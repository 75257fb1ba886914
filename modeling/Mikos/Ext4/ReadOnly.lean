import Mikos.Ext4.Layout

/-!
# Volumes that may not be written

A volume with a journal, one that needs recovery and one with metadata checksums
can be mounted and read, but the driver must leave it alone.  Routines that look
things up change nothing but the scratch buffers; every operation that changes a
volume is followed to its first write.
-/

namespace Mikos.Ext4
open Library Fs

/-! ## Routines that only read -/

/-- Only the scratch buffers of a volume changed. -/
structure Intact (before after : Volume) : Prop where
  device : after.device = before.device
  geometry : after.geometry = before.geometry
  mounted : after.mounted = before.mounted
  freeBlocks : after.freeBlocks = before.freeBlocks
  freeInodes : after.freeInodes = before.freeInodes
  superblock : after.superblock = before.superblock

instance : IsPreorder Volume Intact where
  refl _ := ⟨rfl, rfl, rfl, rfl, rfl, rfl⟩
  trans _ _ _ left right :=
    ⟨right.device.trans left.device, right.geometry.trans left.geometry,
      right.mounted.trans left.mounted, right.freeBlocks.trans left.freeBlocks,
      right.freeInodes.trans left.freeInodes, right.superblock.trans left.superblock⟩

namespace Intact
variable {layout : Layout} {first second : Volume}

theorem scratch (volume : Volume) (block : Bytes) : Intact volume { volume with block } :=
  ⟨rfl, rfl, rfl, rfl, rfl, rfl⟩

theorem image (intact : Intact first second) : second.image = first.image :=
  congrArg Device.image intact.device

theorem fits (intact : Intact first second) (fits : layout.Fits first) : layout.Fits second := by
  refine ⟨intact.geometry.trans fits.geometry, by rw [intact.device, fits.size],
    intact.mounted.trans fits.mounted, ?_⟩
  rw [intact.image]
  exact fits.placed

end Intact

/-- A call fails and writes nothing. -/
abbrev Refuses {α : Type} (call : Action α) (volume : Volume) : Prop :=
  ∃ error after, call volume = .error error after ∧ Intact volume after

/-- A routine that only reads. -/
abbrev Reads {α : Type} (action : Action α) : Prop := Retains Intact action

theorem reads_readExact (offset size : Nat) (output : Bytes) :
    Reads (readExact offset size output) := by
  intro volume
  rw [readExact]
  cases volume.device.readExact offset size output <;> exact refl_of Intact volume

theorem reads_readPhysicalBlock (block : Nat) (output : Bytes) :
    Reads (readPhysicalBlock block output) :=
  .bind .get fun _ => .ite (fun _ => reads_readExact _ _ _) fun _ => .throw _

theorem reads_loadBlock (block : Nat) : Reads (loadBlock block) :=
  .bind .get fun _ => .bind (reads_readPhysicalBlock _ _) fun _ =>
    .modify fun _ => ⟨rfl, rfl, rfl, rfl, rfl, rfl⟩

theorem reads_loadDirectoryBlock (block : Nat) : Reads (loadDirectoryBlock block) :=
  .bind .get fun _ => .bind (reads_readPhysicalBlock _ _) fun _ =>
    .modify fun _ => ⟨rfl, rfl, rfl, rfl, rfl, rfl⟩

theorem reads_fetchBlock (block : Nat) : Reads (fetchBlock block) :=
  .bind (reads_loadBlock block) fun _ => .bind .get fun _ => .pure _

section Mapping
variable {geometry : Geometry} {fetch : Nat → Action Bytes} {logical : Nat}

section
variable (reads : ∀ block, Reads (fetch block))
include reads

theorem reads_mapExtentsAt (expectedDepth capacity : Nat) (extentNode : Bytes) :
    Reads (mapExtentsAt geometry fetch logical expectedDepth capacity extentNode) := by
  induction expectedDepth generalizing capacity extentNode with
  | zero =>
    rw [mapExtentsAt]
    exact .ite (fun _ => .throw _) fun _ => .ofExcept _
  | succ depth ih =>
    rw [mapExtentsAt]
    refine .ite (fun _ => .throw _) fun _ => .bind (.ofExcept _) fun selected => ?_
    cases selected with
    | none => exact .pure _
    | some child => exact .bind (reads child) fun next => ih _ next

theorem reads_mapExtents (node : Node) : Reads (mapExtents geometry fetch node logical) :=
  .ite (fun _ => .throw _) fun _ => reads_mapExtentsAt reads _ _ _

theorem reads_indirectPointer (block i : Nat) : Reads (indirectPointer geometry fetch block i) :=
  .ite (fun _ => .pure _) fun _ => .bind (reads block) fun _ =>
    .ite (fun _ => .throw _) fun _ => .pure _

theorem reads_mapLegacy (node : Node) : Reads (mapLegacy geometry fetch node logical) := by
  have indirect := @reads_indirectPointer geometry fetch reads
  refine .ite (fun _ => .ite (fun _ => .throw _) fun _ => .pure _) fun _ => ?_
  refine .ite (fun _ => .bind (indirect _ _) fun _ => .pure _) fun _ => ?_
  refine .ite (fun _ => .bind (indirect _ _) fun _ => .bind (indirect _ _) fun _ => .pure _)
    fun _ => ?_
  exact .ite (fun _ => .throw _) fun _ => .bind (indirect _ _) fun _ =>
    .bind (indirect _ _) fun _ => .bind (indirect _ _) fun _ => .pure _

theorem reads_mapBlockWith (node : Node) : Reads (mapBlockWith geometry fetch node logical) :=
  .ite (fun _ => .throw _) fun _ =>
    .ite (fun _ => reads_mapExtents reads node) fun _ => reads_mapLegacy reads node

end
end Mapping

theorem reads_mapBlock (node : Node) (logical : Nat) : Reads (mapBlock node logical) :=
  .bind .get fun _ => reads_mapBlockWith reads_fetchBlock node

theorem reads_readInode (inode : Nat) : Reads (readInode inode) :=
  .bind .get fun _ => .ite (fun _ => .throw _) fun _ => .ite (fun _ => .throw _) fun _ =>
    .bind (reads_readExact _ _ _) fun _ =>
      .ite (fun _ => .bind (reads_readExact _ _ _) fun _ => .ite (fun _ => .throw _) fun _ => .pure _)
        fun _ => .throw _

theorem reads_extendRead (node : Node) (logical physical rest fuel following count : Nat) :
    Reads (extendRead node logical physical rest fuel following count) := by
  induction fuel generalizing following count with
  | zero => exact .pure _
  | succ fuel ih =>
    rw [extendRead]
    refine .bind .get fun _ => .ite (fun _ => ?_) fun _ => .pure _
    exact .bind (.tryCatch (reads_mapBlock _ _) fun _ => .pure _) fun _ =>
      .ite (fun _ => .pure _) fun _ => ih _ _

theorem reads_readChunks (node : Node) (fuel offset rest : Nat) :
    Reads (readChunks node fuel offset rest) := by
  induction fuel generalizing offset rest with
  | zero => exact .pure _
  | succ fuel ih =>
    rw [readChunks]
    refine .ite (fun _ => .pure _) fun _ => .bind .get fun _ => ?_
    refine .ite (fun _ => .throw _) fun _ => .bind (reads_mapBlock _ _) fun _ => ?_
    refine .ite (fun _ => .bind (reads_extendRead _ _ _ _ _ _ _) fun _ => ?_) fun _ =>
      .bind (.pure _) fun _ => ?_
    all_goals
      refine .ite (fun _ => .bind (.pure _) fun _ => .bind (ih _ _) fun _ => .pure _) fun _ => ?_
      exact .bind (reads_readExact _ _ _) fun _ => .bind (.pure _) fun _ =>
        .bind (ih _ _) fun _ => .pure _

theorem reads_read (file : Node) (offset size : Nat) : Reads (read file offset size) :=
  .bind .get fun _ => .ite (fun _ => .throw _) fun _ => .ite (fun _ => .throw _) fun _ =>
    .ite (fun _ => .throw _) fun _ => .ite (fun _ => .pure _) fun _ => reads_readChunks _ _ _ _

section Visit
variable {α : Type} {visitor : α → Entry → α × Bool}

theorem reads_visitRecords (physical blockBytes fuel offset : Nat) (seen : α) :
    Reads (visitRecords visitor physical blockBytes fuel offset seen) := by
  induction fuel generalizing offset seen with
  | zero => exact .pure _
  | succ fuel ih =>
    rw [visitRecords]
    refine .bind .get fun _ => .ite (fun _ => .pure _) fun _ => .ite (fun _ => .throw _) fun _ => ?_
    refine .ite (fun _ => ih _ _) fun _ => .ite (fun _ => .throw _) fun _ => ?_
    refine .bind (reads_readInode _) fun _ => ?_
    dsimp only
    split
    · exact ih _ _
    · exact .pure _

theorem reads_visitBlocks (directory : Node) (rest logical : Nat) (seen : α) :
    Reads (visitBlocks visitor directory rest logical seen) := by
  induction rest generalizing logical seen with
  | zero => exact .pure _
  | succ rest ih =>
    rw [visitBlocks]
    refine .ite (fun _ => .throw _) fun _ => .bind .get fun _ => ?_
    refine .bind (reads_mapBlock _ _) fun _ => .ite (fun _ => ih _ _) fun _ => ?_
    refine .bind (reads_loadDirectoryBlock _) fun _ =>
      .bind (reads_visitRecords _ _ _ _ _) fun _ => ?_
    exact .ite (fun _ => ih _ _) fun _ => .pure _

theorem reads_forEach (directory : Node) (start : α) : Reads (forEach visitor directory start) :=
  .bind .get fun _ => .ite (fun _ => .throw _) fun _ => .ite (fun _ => .throw _) fun _ =>
    .ite (fun _ => .throw _) fun _ => reads_visitBlocks _ _ _ _

end Visit

theorem reads_lookup (directory : Node) (name : List UInt8) : Reads (lookup directory name) := by
  refine .ite (fun _ => .throw _) fun _ => .bind (reads_forEach _ _) fun found => ?_
  cases found with
  | none => exact .throw _
  | some node => exact .pure _

theorem reads_walk (start : Node) (path : List (List UInt8)) : Reads (walk start path) := by
  induction path generalizing start with
  | nil => exact .pure _
  | cons component rest ih =>
    rw [walk]
    exact .ite (fun _ => .throw _) fun _ => .ite (fun _ => ih _) fun _ =>
      .ite (fun _ => .throw _) fun _ => .bind (reads_lookup _ _) fun _ => ih _

theorem reads_lookupPath (path : List UInt8) : Reads (lookupPath path) :=
  .bind .get fun _ => .ite (fun _ => .throw _) fun _ =>
    .bind (reads_readInode _) fun _ => reads_walk _ _

theorem reads_resolveParent (path : List UInt8) : Reads (resolveParent path) :=
  .bind .get fun _ => .ite (fun _ => .throw _) fun _ =>
    .ite (fun _ => .bind (reads_readInode _) fun _ => .pure _) fun _ =>
      .bind (reads_lookupPath _) fun _ => .ite (fun _ => .pure _) fun _ => .throw _

theorem reads_requireAbsent (directory : Node) (name : List UInt8) :
    Reads (requireAbsent directory name) := by
  refine .bind (.tryCatch (.bind (reads_lookup _ _) fun _ => .pure _) fun _ => .pure _)
    fun duplicate => ?_
  split
  · exact .throw _
  · exact .pure _
  · exact .throw _

/-! ## Calls -/

/-- A call that may change a volume. -/
inductive Operation where
  | write (file : Node) (offset : Nat) (input : Bytes) (size : Nat)
  | truncate (file : Node) (size : Nat)
  | create (path : List UInt8) (input : Bytes) (size : Nat)
  | mkdir (path : List UInt8) (mode : Nat)
  | remove (path : List UInt8)
  | move (source destination : List UInt8)
  | concatenate (destination source : List UInt8)

/-- Run a routine on the caller's node. -/
def onNode {α : Type} (file : Node) (action : FileAction α) : Action Unit := fun volume =>
  match action (file, volume) with
  | .ok _ (_, volume) => .ok () volume
  | .error error (_, volume) => .error error volume

namespace Operation

def perform : Operation → Action Unit
  | .write file offset input size => onNode file (Ext4.write offset (fun _ => input) size)
  | .truncate file size => onNode file (Ext4.truncate size)
  | .create path input size => Ext4.create path (fun _ => input) size
  | .mkdir path mode => Ext4.mkdir path mode
  | .remove path => Ext4.remove path
  | .move source destination => Ext4.move source destination
  | .concatenate destination source => Ext4.concatenate destination source

/-- The volume after some calls. -/
def run (volume : Volume) (operations : List Operation) : Volume :=
  operations.foldl (fun volume operation => endState (operation.perform volume)) volume

end Operation

/-- What `remove` looks up before it changes anything. -/
def removal (path : List UInt8) : Action (Node × Node) := do
  let (parent, name) ← resolveParent path
  let file ← lookup parent name
  if file.type = .directory then throw .isDirectory else return (parent, file)

/-- What `move` looks up before it changes anything. -/
def relocation (source destination : List UInt8) : Action (Node × Node × List UInt8 × Node) := do
  let (sourceParent, sourceName) ← resolveParent source
  let (destinationParent, destinationName) ← resolveParent destination
  let file ← lookup sourceParent sourceName
  requireAbsent destinationParent destinationName
  return (sourceParent, destinationParent, destinationName, file)

/-- A call that finds nothing to remove, or nothing to move or no place for it. -/
def Operation.isDeclined (volume : Volume) : Operation → Bool
  | .remove path => failed (removal path volume)
  | .move source destination => failed (relocation source destination volume)
  | _ => true

/-- Every removal and every move of a run is declined where it happens. -/
def Operation.areDeclined : Volume → List Operation → Bool
  | _, [] => true
  | volume, operation :: rest =>
    operation.isDeclined volume &&
      areDeclined (endState (operation.perform volume)) rest

theorem remove_eq (path : List UInt8) :
    remove path = (do
      let (parent, file) ← removal path
      eraseDirectoryEntry parent file.directoryEntryOffset
      releaseFileBlocks file
      releaseInode file.inode) := by
  simp only [remove, removal, bind_assoc]
  congr
  funext found
  congr
  funext file
  split <;> rfl

theorem move_eq (source destination : List UInt8) :
    move source destination = (do
      let (sourceParent, destinationParent, destinationName, file) ←
        relocation source destination
      insertDirectoryEntry destinationParent destinationName file
      eraseDirectoryEntry sourceParent file.directoryEntryOffset) := by
  simp only [move, relocation, bind_assoc, pure_bind]

theorem reads_removal (path : List UInt8) : Reads (removal path) :=
  .bind (reads_resolveParent path) fun _ => .bind (reads_lookup _ _) fun _ =>
    .ite (fun _ => .throw _) fun _ => .pure _

theorem reads_relocation (source destination : List UInt8) :
    Reads (relocation source destination) :=
  .bind (reads_resolveParent source) fun _ => .bind (reads_resolveParent destination) fun _ =>
    .bind (reads_lookup _ _) fun _ => .bind (reads_requireAbsent _ _) fun _ => .pure _

/-! ## Every call up to its first write -/

theorem Intact.writableFormat (intact : Intact before after) :
    after.writableFormat = before.writableFormat := by
  rw [Volume.writableFormat, intact.mounted, intact.geometry, Volume.writableFormat]

section Unwritable
variable {volume : Volume} (unwritable : volume.writableFormat = false)

include unwritable

theorem write_unwritable (file : Node) (offset : Nat) (input : Volume → Bytes) (size : Nat) :
    write offset input size (file, volume) = .error .invalidArgument (file, volume) := by
  simp [write, unwritable]

theorem truncate_unwritable (file : Node) (size : Nat) :
    truncate size (file, volume) = .error .invalidArgument (file, volume) := by
  simp [truncate, unwritable]

theorem create_unwritable (path : List UInt8) (input : Volume → Bytes) (size : Nat) :
    create path input size volume = .error .invalidArgument volume := by
  simp [create, unwritable]

theorem mkdir_unwritable (path : List UInt8) (mode : Nat) :
    mkdir path mode volume = .error .unsupported volume := by
  simp [mkdir, unwritable]

theorem copyChunks_unwritable (origin file : Node) (targetSize : Nat) (some : sourceSize ≠ 0) :
    failed (copyChunks origin targetSize sourceSize sourceSize 0 (file, volume)) = true ∧
      Intact volume
        (endState (copyChunks origin targetSize sourceSize sourceSize 0 (file, volume))).2 := by
  obtain ⟨fuel, rfl⟩ := Nat.exists_eq_succ_of_ne_zero some
  simp only [copyChunks, get_bind, ite_apply_state]
  rw [if_neg (by omega)]
  generalize min (fuel.succ - 0) volume.geometry.blockSize = count
  have reads := reads_read origin 0 count volume
  rw [bind_apply, onVolume]
  cases loaded : read origin 0 count volume with
  | error error after =>
    rw [loaded] at reads
    exact ⟨rfl, reads⟩
  | ok bytes after =>
    rw [loaded] at reads
    dsimp only
    rw [bind_apply, onVolume]
    simp only [modify_apply, ite_apply_state]
    have buffered : Intact volume { after with
        directoryBlock := splice after.directoryBlock 0 bytes.length fun i => bytes.getD i 0 } :=
      { reads with }
    split
    · exact ⟨rfl, buffered⟩
    · rw [bind_of_error (write_unwritable (buffered.writableFormat.trans unwritable) _ _ _ _)]
      exact ⟨rfl, buffered⟩

end Unwritable

/-- A concatenation of an empty file, which changes nothing. -/
def Operation.AppendsNothing (volume : Volume) (operation : Operation) : Prop :=
  ∃ destination source target middle origin after,
    operation = .concatenate destination source ∧
      lookupPath destination volume = .ok target middle ∧
      lookupPath source middle = .ok origin after ∧ origin.size = 0

/-- What is required of a call on a volume that may not be written. -/
structure Operation.Refused (volume : Volume) (operation : Operation) : Prop where
  intact : Intact volume (endState (operation.perform volume))
  refused : failed (operation.perform volume) = true ∨ operation.AppendsNothing volume

theorem failed_onNode (file : Node) (action : FileAction α) (volume : Volume) :
    failed (onNode file action volume) = failed (action (file, volume)) ∧
      endState (onNode file action volume) = (endState (action (file, volume))).2 := by
  rw [onNode]
  cases action (file, volume) <;> exact ⟨rfl, rfl⟩

theorem tryLookupPath (path : List UInt8) (volume : Volume) :
    (tryCatch (do return .ok (← lookupPath path)) fun error =>
        return (.error error : Except Error Node) : Action (Except Error Node)) volume =
      match lookupPath path volume with
      | .ok node after => .ok (.ok node) after
      | .error error after => .ok (.error error) after := by
  rw [tryCatch_apply, bind_apply]
  cases lookupPath path volume <;> rfl

/-- Both files are looked up before anything is copied. -/
theorem concatenate_eq (found : lookupPath destination volume = .ok target middle)
    (opened : lookupPath source middle = .ok origin after) : concatenate destination source volume =
      if 0xffffffff < target.size ∨ 0xffffffff < origin.size ∨
          0xffffffff - target.size < origin.size then
        .error .noSpace after
      else
        onNode target (copyChunks origin target.size origin.size origin.size 0) after := by
  rw [concatenate, bind_apply, tryLookupPath, found]
  dsimp only
  rw [bind_apply, tryLookupPath, opened]
  by_cases large : 0xffffffff < target.size ∨ 0xffffffff < origin.size ∨
      0xffffffff - target.size < origin.size
  · exact (congrFun (if_pos large) after).trans (if_pos large).symm
  · refine (congrFun (if_neg large) after).trans (Eq.trans ?_ (if_neg large).symm)
    rw [onNode]
    cases copyChunks origin target.size origin.size origin.size 0 (target, after) <;> rfl

theorem concatenate_failed (missing : failed (lookupPath destination volume) = true ∨
      failed (lookupPath source (endState (lookupPath destination volume))) = true) :
    failed (concatenate destination source volume) = true ∧
      endState (concatenate destination source volume) =
        endState (lookupPath source (endState (lookupPath destination volume))) := by
  rw [concatenate, bind_apply, tryLookupPath]
  cases found : lookupPath destination volume <;> rw [found] at missing <;>
    simp only [endState_ok, endState_error] at missing ⊢ <;> rw [bind_apply, tryLookupPath]
  case error error middle =>
    cases lookupPath source middle <;> exact ⟨rfl, rfl⟩
  case ok target middle =>
    cases opened : lookupPath source middle with
    | error error after => exact ⟨rfl, rfl⟩
    | ok origin after =>
      rw [opened] at missing
      rcases missing with missing | missing <;> cases missing

section
variable {volume : Volume} (unwritable : volume.writableFormat = false)
include unwritable

theorem concatenate_unwritable (destination source : List UInt8) :
    Intact volume (endState (concatenate destination source volume)) ∧
      (failed (concatenate destination source volume) = true ∨
        (Operation.concatenate destination source).AppendsNothing volume) := by
  have intact := trans_of Intact (reads_lookupPath destination volume) (reads_lookupPath source _)
  by_cases missing : failed (lookupPath destination volume) = true ∨
      failed (lookupPath source (endState (lookupPath destination volume))) = true
  · obtain ⟨fails, ends⟩ := concatenate_failed missing
    rw [ends]
    exact ⟨intact, .inl fails⟩
  obtain ⟨target, middle, found⟩ := ok_of_not_failed fun failed => missing (.inl failed)
  rw [found] at missing intact
  obtain ⟨origin, after, opened⟩ := ok_of_not_failed fun failed => missing (.inr failed)
  rw [endState_ok] at intact opened
  rw [opened] at intact
  rw [concatenate_eq found opened]
  split
  · exact ⟨intact, .inl rfl⟩
  obtain ⟨fails, ends⟩ := failed_onNode target
    (copyChunks origin target.size origin.size origin.size 0) after
  by_cases empty : origin.size = 0
  · rw [ends, empty]
    exact ⟨intact, .inr ⟨_, _, _, _, _, _, rfl, found, opened, empty⟩⟩
  · obtain ⟨refused, kept⟩ := copyChunks_unwritable (intact.writableFormat.trans unwritable)
      origin target target.size empty
    rw [fails, ends]
    exact ⟨trans_of Intact intact kept, .inl refused⟩

theorem Operation.refused {operation : Operation} (declined : operation.isDeclined volume = true) :
    operation.Refused volume := by
  cases operation with
  | write file offset input size =>
    obtain ⟨fails, ends⟩ := failed_onNode file (Ext4.write offset (fun _ => input) size) volume
    rw [write_unwritable unwritable] at fails ends
    exact ⟨by rw [perform, ends]; exact refl_of Intact volume, .inl fails⟩
  | truncate file size =>
    obtain ⟨fails, ends⟩ := failed_onNode file (Ext4.truncate size) volume
    rw [truncate_unwritable unwritable] at fails ends
    exact ⟨by rw [perform, ends]; exact refl_of Intact volume, .inl fails⟩
  | create path input size =>
    constructor <;> rw [perform, create_unwritable unwritable]
    · exact refl_of Intact volume
    · exact .inl rfl
  | mkdir path mode =>
    constructor <;> rw [perform, mkdir_unwritable unwritable]
    · exact refl_of Intact volume
    · exact .inl rfl
  | remove path =>
    obtain ⟨fails, ends⟩ := bind_of_failed declined
    constructor <;> rw [perform, remove_eq]
    · rw [ends]
      exact reads_removal path volume
    · exact .inl fails
  | move source destination =>
    obtain ⟨fails, ends⟩ := bind_of_failed declined
    constructor <;> rw [perform, move_eq]
    · rw [ends]
      exact reads_relocation source destination volume
    · exact .inl fails
  | concatenate destination source =>
    obtain ⟨intact, refused⟩ := concatenate_unwritable unwritable destination source
    exact ⟨intact, refused⟩

theorem Operation.run_refused (declined : areDeclined volume operations = true) :
    Intact volume (run volume operations) ∧
      ∀ earlier operation, earlier ++ [operation] <+: operations →
        operation.Refused (run volume earlier) := by
  induction operations generalizing volume with
  | nil =>
    refine ⟨refl_of Intact volume, fun earlier operation first => ?_⟩
    simp at first
  | cons head rest ih =>
    simp only [areDeclined, Bool.and_eq_true] at declined
    have refused := Operation.refused unwritable declined.1
    obtain ⟨intact, later⟩ := ih (refused.intact.writableFormat.trans unwritable) declined.2
    refine ⟨trans_of Intact refused.intact intact, fun earlier operation first => ?_⟩
    cases earlier with
    | nil =>
      obtain ⟨rfl, -⟩ := List.cons_prefix_cons.mp first
      exact refused
    | cons _ earlier =>
      obtain ⟨rfl, tail⟩ := List.cons_prefix_cons.mp first
      exact later earlier operation tail

end

/-- A volume that may not be written is never written, as long as nothing is found
to be removed or moved: the device stays as it was mounted, and every call fails
unless it appends an empty file. -/
theorem unwritable_untouched (device : Device) (volume : Volume)
    (mounted : mount device = .ok volume) (unwritable : volume.writableFormat = false)
    (operations : List Operation) (declined : Operation.areDeclined volume operations = true) :
    (Operation.run volume operations).device = device ∧
      ∀ earlier operation, earlier ++ [operation] <+: operations →
        failed (operation.perform (Operation.run volume earlier)) = true ∨
          operation.AppendsNothing (Operation.run volume earlier) := by
  obtain ⟨intact, refused⟩ := Operation.run_refused unwritable declined
  exact ⟨intact.device.trans (mount_sound mounted).1,
    fun earlier operation first => (refused earlier operation first).refused⟩

/-! ## A volume with a journal -/

/-- An image that consists of little-endian fields: their offsets, their sizes and
their values. -/
def fieldsImage (fields : List (Nat × Nat × Nat)) : Bytes :=
  fields.foldl (fun image (offset, size, value) => splice image offset size (littleBytes value))
    zeroBytes

/-- The superblock and the group descriptor of a volume of sixteen blocks and sixteen
inodes.  The bitmaps are in blocks 3 and 4, the inode table is in blocks 5 and 6. -/
def volumeFields (compatible : Nat) : List (Nat × Nat × Nat) :=
  [(0x400, 4, 16), (0x404, 4, 16), (0x40c, 4, 6), (0x410, 4, 4), (0x414, 4, 1), (0x420, 4, 8192),
    (0x428, 4, 16), (0x438, 2, ext4Magic), (0x45c, 4, compatible),
    (0x460, 4, incompatFileType ||| incompatExtents), (0x800, 4, 3), (0x804, 4, 4), (0x808, 4, 5),
    (0x80c, 2, 6), (0x80e, 2, 4)]

/-- An inode of this volume with its content in one block. -/
def inodeFields (inode mode links size block : Nat) : List (Nat × Nat × Nat) :=
  let offset := 0x1400 + (inode - 1) * 128
  [(offset, 2, mode), (offset + 0x04, 4, size), (offset + 0x1a, 2, links),
    (offset + 0x20, 4, inodeExtents), (offset + 0x28, 2, extentMagic), (offset + 0x2a, 2, 1),
    (offset + 0x2c, 2, 4), (offset + 0x38, 2, 1), (offset + 0x3c, 4, block)]

/-- A directory record with a name of up to two letters. -/
def recordFields (offset inode recordSize nameSize type name : Nat) : List (Nat × Nat × Nat) :=
  [(offset, 4, inode), (offset + 4, 2, recordSize), (offset + 6, 1, nameSize),
    (offset + 7, 1, type), (offset + 8, nameSize, name)]

/-- A root directory in block 7 with a file `f` of three bytes in block 8. -/
def journaled : Device where
  image := fieldsImage (volumeFields compatibleJournal ++ inodeFields 2 0x41ed 2 1024 7 ++
    inodeFields 12 0x81a4 1 3 8 ++ recordFields 0x1c00 2 12 1 2 0x2e ++
    recordFields 0x1c0c 2 12 2 2 0x2e2e ++ recordFields 0x1c18 12 1000 1 1 0x66)
  size := 0x4000

def mountsUnwritable (device : Device) (property : Volume → Bool) : Bool :=
  match mount device with
  | .ok volume => !volume.writableFormat && property volume
  | .error _ => false

theorem mountsUnwritable_iff : mountsUnwritable device property = true ↔
      ∃ volume, mount device = .ok volume ∧ volume.writableFormat = false ∧
        property volume = true := by
  rw [mountsUnwritable]
  cases mount device <;> simp

/-- New names, a missing one and a file that is written and cut. -/
def attempts : List Operation :=
  [.create [0x67] zeroBytes 3, .mkdir [0x64] 0o755, .remove [0x67], .move [0x67] [0x68],
    .write { type := .regular } 0 zeroBytes 3, .truncate { type := .regular } 1,
    .concatenate [0x66] [0x66]]

/-- A volume with a journal is mounted and then left as it was. -/
theorem unwritable_untouched_journaled :
    ∃ volume, mount journaled = .ok volume ∧ volume.writableFormat = false ∧
      (Operation.run volume attempts).device = journaled := by
  have sample : mountsUnwritable journaled
      (fun volume => Operation.areDeclined volume attempts) = true := by
    decide +kernel
  obtain ⟨volume, mounted, unwritable, declined⟩ := mountsUnwritable_iff.mp sample
  exact ⟨volume, mounted, unwritable,
    (unwritable_untouched journaled volume mounted unwritable attempts declined).1⟩

/-- Moving the file succeeds and writes the directory twice. -/
theorem unwritable_moved :
    ∃ volume, mount journaled = .ok volume ∧ volume.writableFormat = false ∧
      ∃ after, (Operation.move [0x66] [0x67]).perform volume = .ok () after ∧
        after.device.writes.length = 2 := by
  have sample : mountsUnwritable journaled (fun volume =>
      match (Operation.move [0x66] [0x67]).perform volume with
      | .ok _ after => after.device.writes.length = 2
      | .error _ _ => false) = true := by
    decide +kernel
  obtain ⟨volume, mounted, unwritable, moved⟩ := mountsUnwritable_iff.mp sample
  refine ⟨volume, mounted, unwritable, ?_⟩
  cases result : (Operation.move [0x66] [0x67]).perform volume with
  | error error after =>
    rw [result] at moved
    cases moved
  | ok _ after =>
    rw [result] at moved
    exact ⟨after, rfl, of_decide_eq_true moved⟩

end Mikos.Ext4
