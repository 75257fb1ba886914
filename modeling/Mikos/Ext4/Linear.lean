import Mikos.Ext4.Disk
import Mikos.Ext4.Mapping
import Mikos.Ext4.Records

/-!
# Directories without an index

A directory is a list of blocks, and each block a chain of records.  Showing the entries,
looking up a name, entering and erasing one read and change these records and nothing
else.
-/

namespace Mikos.Ext4
open Library Fs Function List

/-! ## Inodes -/

noncomputable def Layout.nodeAt (layout : Layout) (image : Bytes) (inode : Nat) : Node :=
  parseInode (splice zeroBytes 0 128 (layout.store image (.inode inode))) inode
    (layout.start (.inode inode))

def Node.Readable (node : Node) : Prop := node.type ≠ .other ∧ node.mode ≠ 0
deriving Decidable

section Inodes
variable {layout : Layout} {volume : Volume} {inode : Nat}

theorem Layout.Fits.readInode_eq (fits : layout.Fits volume) (hasInode : layout.HasInode inode) :
    Ext4.readInode inode volume =
      if (layout.nodeAt volume.image inode).Readable then
        .ok (layout.nodeAt volume.image inode) volume
      else .error .corrupt volume := by
  have bound := inodeGroup_lt hasInode
  have validInode : layout.Valid (.inode inode) := hasInode
  have place : (parseDescriptor layout.toGeometry
      (layout.store volume.image (.descriptor (layout.inodeGroup inode)))).inodeTable = _ :=
    (fits.placed _ bound).2.2
  have whole : 0 + 128 ≤ layout.length (.inode inode) := by
    rw [Nat.zero_add]
    exact layout.sound.inodeSize.1
  have record := fits.readExact validInode whole zeroBytes
  simp only [Nat.zero_add, Nat.add_zero] at record
  obtain ⟨pos, most⟩ := hasInode
  simp only [Ext4.readInode, get_bind, ite_apply_state, fits.geometry, fits.mounted]
  rw [if_neg (by simp; omega), if_neg (show ¬ layout.groupCount ≤
    (inode - 1) / layout.inodesPerGroup from Nat.not_le.mpr bound)]
  refine (bind_of_ok (fits.readDescriptor bound)).trans ?_
  simp only [ite_apply_state]
  rw [place, if_pos (layout.placed bound).2.2]
  have start := layout.wrap_start validInode
  rw [inodeGroup, inodeBit] at start
  rw [inodeGroup, start]
  refine (bind_of_ok record).trans ?_
  by_cases readable : (layout.nodeAt volume.image inode).Readable
  · rw [if_pos readable]
    exact congrFun (if_neg fun refused => refused.elim readable.1 readable.2) volume
  · rw [if_neg readable]
    exact congrFun (if_pos (or_iff_not_and_not.mpr readable)) volume

theorem Layout.Fits.readInode (fits : layout.Fits volume) (hasInode : layout.HasInode inode)
    (readable : (layout.nodeAt volume.image inode).Readable) :
    Ext4.readInode inode volume = .ok (layout.nodeAt volume.image inode) volume := by
  rw [fits.readInode_eq hasInode, if_pos readable]

end Inodes

/-! ## Entries -/

/-- The node of a name in a block. -/
noncomputable def Layout.named (layout : Layout) (image : Bytes) (entry : Nat × Link) : Node :=
  { layout.nodeAt image entry.2.inode with
    directoryEntryOffset := entry.1 * layout.blockSize + entry.2.offset }

/-- The entry that a visitor is shown for a name in a block. -/
noncomputable def Layout.entry (layout : Layout) (image : Bytes) (entry : Nat × Link) : Entry :=
  ⟨entry.2.name, layout.named image entry⟩

/-- The names in some blocks, in the order in which they are looked through. -/
def entriesIn (slots : Nat → List Slot) (blocks : List Nat) : List (Nat × Link) :=
  blocks.flatMap fun block => (links (slots block)).map (Prod.mk block)

/-- The driver reads an inode that is in range and of a type that it knows. -/
def Layout.ReadsInode (layout : Layout) (image : Bytes) (inode : Nat) : Prop :=
  layout.HasInode inode ∧ (layout.nodeAt image inode).Readable

open Classical in
/-- What a visitor makes of some names; the flag says whether it goes on.  The driver reads
the inode before it shows the name, and fails where it cannot. -/
noncomputable def Layout.visited (layout : Layout) (image : Bytes) {α : Type}
    (visitor : α → Entry → α × Bool) : α → List (Nat × Link) → Except Error (α × Bool)
  | seen, [] => .ok (seen, true)
  | seen, entry :: rest =>
    if layout.ReadsInode image entry.2.inode then
      match visitor seen (layout.entry image entry) with
      | (seen, true) => layout.visited image visitor seen rest
      | (seen, false) => .ok (seen, false)
    else .error .corrupt

/-- The visitor of `lookup`. -/
def seek (name : List UInt8) (found : Option Node) (entry : Entry) : Option Node × Bool :=
  if entry.name = name then (some entry.node, false) else (found, true)

/-- The names that a lookup passes: those before the name that it looks for, and this one. -/
def upTo (name : List UInt8) : List (Nat × Link) → List (Nat × Link)
  | [] => []
  | entry :: rest => if entry.2.name = name then [entry] else entry :: upTo name rest

/-- The driver reads the inodes that a lookup passes. -/
def Layout.Reaches (layout : Layout) (image : Bytes) (name : List UInt8)
    (entries : List (Nat × Link)) : Prop :=
  ∀ entry ∈ upTo name entries, layout.ReadsInode image entry.2.inode

/-- The first of some names that is the one looked for. -/
noncomputable def Layout.first (layout : Layout) (image : Bytes) (name : List UInt8)
    (entries : List (Nat × Link)) : Except Error Node :=
  match entries.find? fun entry => entry.2.name = name with
  | some entry => .ok (layout.named image entry)
  | none => .error .notFound

open Classical in
/-- What a lookup answers in a directory with some names. -/
noncomputable def Layout.sought (layout : Layout) (image : Bytes) (name : List UInt8)
    (entries : List (Nat × Link)) : Except Error Node :=
  if name = [] then .error .invalidArgument
  else if layout.Reaches image name entries then layout.first image name entries
  else .error .corrupt

/-- What the check that a name is not taken makes of the answer of the lookup. -/
def absence : Except Error Node → Except Error Unit
  | .ok _ => .error .alreadyExists
  | .error .notFound => .ok ()
  | .error error => .error error

section Visit
variable {layout : Layout} {volume : Volume} {image : Bytes} {slots : List Slot} {offset fuel : Nat}
  {α : Type} {visitor : α → Entry → α × Bool} {name : List UInt8} {entries : List (Nat × Link)}

theorem visited_append (seen : α) (first second : List (Nat × Link)) :
    layout.visited image visitor seen (first ++ second) =
      layout.visited image visitor seen first >>= fun result =>
        if result.2 then layout.visited image visitor result.1 second else .ok result := by
  induction first generalizing seen with
  | nil => rfl
  | cons entry rest ih =>
    simp only [cons_append, Layout.visited]
    split
    · rcases visitor seen (layout.entry image entry) with ⟨next, _ | _⟩
      · rfl
      · exact ih next
    · rfl

theorem mem_of_mem_upTo (mem : entry ∈ upTo name entries) : entry ∈ entries := by
  induction entries with
  | nil => cases mem
  | cons head rest ih =>
    rw [upTo] at mem
    split at mem
    · rw [mem_singleton.mp mem]
      exact mem_cons_self
    · exact mem_cons.mpr ((mem_cons.mp mem).imp_right ih)

theorem mem_upTo_of_find? (found : (entries.find? fun entry => entry.2.name = name) = some entry) :
    entry ∈ upTo name entries := by
  induction entries with
  | nil => cases found
  | cons head rest ih =>
    rw [upTo]
    by_cases same : head.2.name = name
    · rw [find?_cons_of_pos (by simpa using same)] at found
      cases found
      rw [if_pos same]
      exact mem_singleton_self _
    · rw [find?_cons_of_neg (by simpa using same)] at found
      rw [if_neg same]
      exact mem_cons_of_mem _ (ih found)

open Classical in
theorem visited_seek (name : List UInt8) (entries : List (Nat × Link)) :
    (layout.visited image (seek name) none entries).map Prod.fst =
      if layout.Reaches image name entries then
        .ok ((entries.find? fun entry => entry.2.name = name).map (layout.named image))
      else .error .corrupt := by
  induction entries with
  | nil => exact (if_pos (show layout.Reaches image name [] from nofun)).symm
  | cons entry rest ih =>
    by_cases reads : layout.ReadsInode image entry.2.inode
    · rw [Layout.visited, if_pos reads]
      by_cases same : entry.2.name = name
      · have reaches : layout.Reaches image name (entry :: rest) := by
          rw [Layout.Reaches, upTo, if_pos same]
          exact forall_mem_singleton.mpr reads
        have sought : seek name none (layout.entry image entry) =
            (some (layout.named image entry), false) := if_pos same
        rw [if_pos reaches, sought, find?_cons_of_pos (by simpa using same)]
        rfl
      · have reaches : layout.Reaches image name (entry :: rest) ↔ layout.Reaches image name rest := by
          rw [Layout.Reaches, upTo, if_neg same, forall_mem_cons]
          exact and_iff_right reads
        have sought : seek name none (layout.entry image entry) = (none, true) := if_neg same
        simp only [sought, ih, reaches]
        rw [find?_cons_of_neg (by simpa using same)]
    · have stuck : ¬ layout.Reaches image name (entry :: rest) := by
        refine fun reaches => reads (reaches entry ?_)
        rw [upTo]
        split <;> exact mem_cons_self
      rw [Layout.visited, if_neg reads, if_neg stuck]
      rfl

theorem sought_eq_ok (looked : layout.sought image name entries = .ok found) :
    ∃ entry ∈ entries, entry.2.name = name ∧ found = layout.named image entry ∧
      layout.ReadsInode image entry.2.inode := by
  rw [Layout.sought] at looked
  split at looked
  · cases looked
  split at looked
  next reaches =>
    rw [Layout.first] at looked
    split at looked
    next entry listed =>
      cases looked
      exact ⟨entry, mem_of_find?_eq_some listed, by simpa using find?_some listed, rfl,
        reaches entry (mem_upTo_of_find? listed)⟩
    · cases looked
  · cases looked

theorem not_mem_of_absence (passed : absence (layout.sought image name entries) = .ok ()) :
    ∀ entry ∈ entries, entry.2.name ≠ name := by
  intro entry mem same
  have unlisted : layout.sought image name entries = .error .notFound := by
    unfold absence at passed
    split at passed
    · cases passed
    next looked => exact looked
    · cases passed
  rw [Layout.sought] at unlisted
  split at unlisted
  · cases unlisted
  split at unlisted
  · rw [Layout.first] at unlisted
    split at unlisted
    · cases unlisted
    next missing => exact find?_eq_none.mp missing entry mem (by simpa using same)
  · cases unlisted

/-- The records of a loaded block are shown one after the other. -/
theorem visitRecords_chain (fits : layout.Fits volume) (block : Nat) (seen : α)
    (chain : Chain layout.toGeometry volume.directoryBlock layout.blockSize offset slots)
    (enough : slots.length ≤ fuel) :
    visitRecords visitor block layout.blockSize fuel offset seen volume =
      resultOf volume (layout.visited volume.image visitor seen
        ((links slots).map (Prod.mk block))) := by
  induction slots generalizing offset fuel seen with
  | nil =>
    rw [Chain] at chain
    cases fuel with
    | zero => rfl
    | succ fuel =>
      simp only [visitRecords, get_bind, ite_apply_state]
      rw [if_pos (by omega)]
      rfl
  | cons slot rest ih =>
    obtain ⟨fuel, rfl⟩ : ∃ less, fuel = less + 1 := ⟨fuel - 1, by rw [length_cons] at enough; omega⟩
    obtain ⟨here, sound, behind⟩ := chain
    have limit := behind.length_le
    have room := sound.room
    have aligned := sound.aligned
    have short := sound.short
    have inode : (recordHead layout.toGeometry volume.directoryBlock offset).inode = slot.inode := by
      rw [← here, slotAt]
    have size : (recordHead layout.toGeometry volume.directoryBlock offset).recordSize =
        slot.recordSize := by rw [← here, slotAt]
    have nameSize : (recordHead layout.toGeometry volume.directoryBlock offset).nameSize =
        slot.name.length := by rw [← here, length_slotAt_name]
    have nameBytes : recordName volume.directoryBlock offset slot.name.length = slot.name := by
      rw [← nameSize, ← here, slotAt]
    have place : slot.offset = offset := by rw [← here, slotAt]
    rw [length_cons] at enough
    simp only [visitRecords, get_bind, ite_apply_state, fits.geometry, inode, size, nameSize,
      nameBytes]
    rw [if_neg (by omega), if_neg (by omega)]
    split
    next free =>
      rw [links_cons_free free]
      exact ih seen behind (by omega)
    rename_i used
    rw [links_cons_used used, map_cons, Layout.visited]
    split
    next beyond =>
      rw [if_neg fun reads => Nat.not_lt.mpr reads.1.2 beyond]
      rfl
    rename_i inRange
    have hasInode : layout.HasInode slot.inode := ⟨by omega, by omega⟩
    by_cases readable : (layout.nodeAt volume.image slot.inode).Readable
    · rw [if_pos ⟨hasInode, readable⟩]
      refine (bind_of_ok (fits.readInode hasInode readable)).trans ?_
      have shown : (⟨slot.name, { layout.nodeAt volume.image slot.inode with
          directoryEntryOffset := block * layout.blockSize + offset }⟩ : Entry) =
          layout.entry volume.image (block, ⟨slot.offset, slot.inode, slot.name⟩) := by
        rw [← place]
        rfl
      simp only [shown]
      rcases visitor seen (layout.entry volume.image _) with ⟨next, _ | _⟩
      · rfl
      · exact ih next behind (by omega)
    · rw [if_neg fun reads => readable reads.2]
      have unread := fits.readInode_eq hasInode
      rw [if_neg readable] at unread
      exact bind_of_error unread

end Visit

/-! ## Linear directories -/

/-- A directory lies in the blocks of an image: it is mapped to its blocks whatever is in
these, they are different data blocks, and each is a chain of records. -/
structure Layout.Linear (layout : Layout) (image : Bytes) (node : Node) (leaves : List Nat)
    (slots : Nat → List Slot) : Prop where
  type : node.type = .directory
  plain : hasFlag node.flags inodeInlineData = false
  size : node.size = leaves.length * layout.blockSize
  few : leaves.length < 2 ^ 32
  mapped : ∀ blocks : Nat → Bytes,
    (∀ block ∉ leaves, blocks block = window layout.toGeometry image block) →
    ∀ (index : Nat) (inside : index < leaves.length),
      mapOn layout.toGeometry blocks node index = .ok ⟨leaves[index], false⟩
  data : ∀ block ∈ leaves, layout.IsData block
  distinct : leaves.Nodup
  chain : ∀ block ∈ leaves, Chain layout.toGeometry (window layout.toGeometry image block)
    layout.blockSize 0 (slots block)

section Linear
variable {layout : Layout} {volume : Volume} {node : Node} {leaves : List Nat}
  {slots : Nat → List Slot} {block : Nat}

theorem loadDirectoryBlock_run (fits : layout.Fits volume)
    (physical : layout.validPhysicalBlock block = true) :
    ∃ bytes, loadDirectoryBlock block volume = .ok () { volume with directoryBlock := bytes } ∧
      ∀ i < layout.blockSize,
        bytes i = window layout.toGeometry volume.image block i := by
  obtain ⟨bytes, read, agree⟩ := fits.spans.readBlock physical volume.directoryBlock
  refine ⟨bytes, ?_, agree⟩
  simp only [loadDirectoryBlock, get_bind]
  exact (bind_of_ok read).trans rfl

theorem Intact.directoryScratch (volume : Volume) (directoryBlock : Bytes) :
    Intact volume { volume with directoryBlock } :=
  ⟨rfl, rfl, rfl, rfl, rfl, rfl⟩

variable (fits : layout.Fits volume) (linear : layout.Linear volume.image node leaves slots)
include fits linear

namespace Layout.Linear

theorem mapBlock (inside : logical < leaves.length) :
    Answers volume (Ext4.mapBlock node logical) (.ok ⟨leaves[logical], false⟩) := by
  have mapped := linear.mapped _ (fun _ _ => rfl) logical inside
  rw [← mapped]
  exact mapBlock_answers fits.spans node logical

theorem load (intact : Intact volume state) (leaf : block ∈ leaves) :
    ∃ after, loadDirectoryBlock block state = .ok () after ∧ Intact volume after ∧
      Chain layout.toGeometry after.directoryBlock layout.blockSize 0 (slots block) := by
  obtain ⟨bytes, load, agree⟩ := loadDirectoryBlock_run (intact.fits fits) (linear.data block leaf).1
  rw [intact.image] at agree
  exact ⟨_, load, trans_of Intact intact (.directoryScratch state bytes),
    (linear.chain block leaf).congr fun i _ upper => (agree i upper).symm⟩

omit fits in
theorem blocks : wrap 64 (node.size + layout.blockSize - 1) / layout.blockSize = leaves.length := by
  have few := linear.few
  have pos := layout.blockSize_pos
  rw [linear.size]
  generalize leaves.length = count at few ⊢
  have limit : count * layout.blockSize + layout.blockSize - 1 < 2 ^ 64 := by
    rcases layout.sound.blockSize with size | size | size <;> rw [size] <;> omega
  rw [wrap_of_lt limit, Nat.add_sub_assoc pos, Nat.mul_comm, Nat.mul_add_div pos,
    Nat.div_eq_of_lt (by omega), Nat.add_zero]

section Visit
variable {α : Type} (visitor : α → Entry → α × Bool)

theorem visitBlocks (seen : α) (whole : logical + rest = leaves.length) :
    Answers volume (Ext4.visitBlocks visitor node rest logical seen)
      ((layout.visited volume.image visitor seen
        (entriesIn slots (leaves.drop logical))).map Prod.fst) := by
  induction rest generalizing logical seen with
  | zero =>
    rw [drop_of_length_le (by omega)]
    exact .pure _
  | succ rest ih =>
    have inside : logical < leaves.length := by omega
    have leaf := getElem_mem inside
    have mapped := linear.mapBlock fits inside
    have few := linear.few
    have bytesThere : min layout.blockSize
        (node.size - logical * layout.blockSize) = layout.blockSize := by
      rw [linear.size, ← Nat.sub_mul]
      exact Nat.min_eq_left (Nat.le_mul_of_pos_left _ (by omega))
    rw [drop_eq_getElem_cons inside, entriesIn, flatMap_cons, visited_append]
    generalize leaves[logical] = block at leaf mapped ⊢
    intro state intact
    obtain ⟨second, intact₂, map⟩ := mapped state intact
    obtain ⟨third, load, intact₃, chain⟩ := linear.load fits intact₂ leaf
    have many := chain.length_le
    have shown := @visitRecords_chain layout _ _ 0 layout.blockSize α visitor
      (intact₃.fits fits) block seen chain (by omega)
    rw [intact₃.image] at shown
    simp only [Ext4.visitBlocks, ite_apply_state]
    rw [if_neg (by omega), get_bind, intact.geometry, fits.geometry]
    simp only [bytesThere]
    rw [bind_of_ok map]
    simp only [Bool.false_eq_true, if_false]
    rw [bind_of_ok load]
    cases seenHere : layout.visited volume.image visitor seen _ with
    | error error =>
      rw [seenHere] at shown
      exact ⟨_, intact₃, bind_of_error shown⟩
    | ok result =>
      rw [seenHere] at shown
      rw [bind_of_ok shown]
      obtain ⟨next, _ | _⟩ := result
      · exact ⟨_, intact₃, rfl⟩
      · exact ih next (by omega) _ intact₃

/-- Every visitor is shown the names in their order, up to the first inode that the driver
does not read. -/
theorem forEach (start : α) :
    Answers volume (Ext4.forEach visitor node start)
      ((layout.visited volume.image visitor start (entriesIn slots leaves)).map
        Prod.fst) := by
  refine .get_bind fun state intact => ?_
  rw [intact.mounted, fits.mounted, if_neg (by simp), linear.type, if_neg (by simp), linear.plain,
    if_neg (by simp), intact.geometry, fits.geometry, linear.blocks]
  exact linear.visitBlocks fits visitor start (Nat.zero_add _)

end Visit

theorem lookup (name : List UInt8) :
    Answers volume (Ext4.lookup node name)
      (layout.sought volume.image name (entriesIn slots leaves)) := by
  have each := linear.forEach fits (seek name) none
  rw [visited_seek] at each
  refine .ite (fun _ => .throw _) fun _ => ?_
  split at each
  next reaches =>
    rw [if_pos reaches, Layout.first]
    refine each.bind_ok ?_
    cases (entriesIn slots leaves).find? fun entry => entry.2.name = name with
    | some entry => exact .pure _
    | none => exact .throw _
  next stuck =>
    rw [if_neg stuck]
    exact each.bind_error

theorem requireAbsent (name : List UInt8) :
    Answers volume (Ext4.requireAbsent node name)
      (absence (layout.sought volume.image name (entriesIn slots leaves))) := by
  have looked := linear.lookup fits name
  generalize layout.sought volume.image name (entriesIn slots leaves) = found at looked ⊢
  have caught : Answers volume
      (tryCatch (do return .ok (← Ext4.lookup node name)) fun error =>
        return (.error error : Except Error Node)) (.ok found) := by
    intro state intact
    obtain ⟨after, stillIntact, ran⟩ := looked state intact
    refine ⟨after, stillIntact, ?_⟩
    rw [tryCatch_apply, bind_apply, ran]
    cases found <;> rfl
  refine caught.bind_ok ?_
  cases found with
  | ok other => exact .throw _
  | error error => cases error <;> first | exact .pure _ | exact .throw _

end Layout.Linear
end Linear

/-! ## Rewriting a block -/

/-- Other records were written into a data block, and nothing else was written. -/
structure Layout.Rewrites (layout : Layout) (before after : Volume) (block : Nat)
    (slots : List Slot) : Prop where
  fits : layout.Fits after
  regions : ∀ region ≠ .block block,
    layout.store after.image region = layout.store before.image region
  windows : ∀ other ≠ block, window layout.toGeometry after.image other =
    window layout.toGeometry before.image other
  chain : Chain layout.toGeometry (window layout.toGeometry after.image block)
    layout.blockSize 0 slots

/-- A block of a directory was rewritten, which had some names and now has others. -/
structure Layout.Edits (layout : Layout) (before after : Volume) (leaves : List Nat)
    (slots : Nat → List Slot) (block : Nat) (renewed : List Slot) (old new : List (Nat × Link)) :
    Prop extends layout.Rewrites before after block renewed where
  leaf : block ∈ leaves
  old : entriesIn slots leaves = old
  new : entriesIn (update slots block renewed) leaves = new

section Rewrite
variable {layout : Layout} {volume after : Volume} {node child : Node} {leaves : List Nat}
  {slots : Nat → List Slot} {block : Nat} {renewed : List Slot} {name : List UInt8}

theorem Layout.Fits.rewrite (fits : layout.Fits volume) (isData : layout.IsData block)
    (chain : Chain layout.toGeometry input layout.blockSize 0 renewed) :
    ∃ after, Ext4.writeExact (block * layout.blockSize) layout.blockSize input
        volume = .ok () after ∧ layout.Rewrites volume after block renewed := by
  have valid : layout.Valid (.block block) := isData
  have whole : 0 + layout.blockSize ≤ layout.length (.block block) := by
    rw [Nat.zero_add]
    exact le_rfl
  have written := fits.writeExact valid whole input
  have stored := Layout.Fits.store_put volume valid whole input
  have stores : layout.Stores _ volume.device _ := .put valid whole input rfl
  have fits' := stores.fits fits (Layout.Placed.update fits.placed fun _ same => by cases same)
  simp only [Nat.add_zero] at written stored fits'
  have inside : ∀ i < layout.blockSize,
      window layout.toGeometry (splice volume.image (block * layout.blockSize)
        layout.blockSize input) block i = input i := by
    intro i inside
    rw [window, if_pos inside, splice_inside (by omega), Nat.add_sub_cancel_left]
  refine ⟨_, written, ⟨fits', fun region different => ?_, fun other different => ?_,
    chain.congr fun i _ upper => (inside i upper).symm⟩⟩
  · rw [stored, update_of_ne different]
  funext i
  change (if _ then splice volume.image (block * layout.blockSize)
    layout.blockSize input _ else 0) = if _ then _ else 0
  by_cases inside : i < layout.blockSize
  · have apart := Layout.block_apart different layout.blockSize
    rw [Apart] at apart
    rw [if_pos inside, if_pos inside, splice_outside (by omega)]
  · rw [if_neg inside, if_neg inside]

theorem entriesIn_update_of_notMem (outside : block ∉ blocks) :
    entriesIn (update slots block renewed) blocks = entriesIn slots blocks := by
  refine flatMap_congr fun other mem => ?_
  have apart : other ≠ block := fun same => outside (same ▸ mem)
  rw [update_of_ne apart]

theorem entriesIn_update (distinct : leaves.Nodup) (leaf : block ∈ leaves) (renewed : List Slot) :
    ∃ before after,
      entriesIn slots leaves = before ++ ((links (slots block)).map (Prod.mk block) ++ after) ∧
      entriesIn (update slots block renewed) leaves =
        before ++ ((links renewed).map (Prod.mk block) ++ after) := by
  obtain ⟨first, second, rfl⟩ := append_of_mem leaf
  obtain ⟨-, tail, apart⟩ := nodup_append.mp distinct
  have notFirst : block ∉ first := fun mem => apart _ mem _ mem_cons_self rfl
  have notSecond : block ∉ second := (nodup_cons.mp tail).1
  refine ⟨entriesIn slots first, entriesIn slots second, ?_, ?_⟩
  · rw [entriesIn, flatMap_append, flatMap_cons]
    rfl
  · rw [entriesIn, flatMap_append, flatMap_cons, update_self]
    change entriesIn _ first ++ (_ ++ entriesIn _ second) = _
    rw [entriesIn_update_of_notMem notFirst, entriesIn_update_of_notMem notSecond]

theorem mem_entriesIn :
    entry ∈ entriesIn slots blocks ↔ entry.1 ∈ blocks ∧ entry.2 ∈ links (slots entry.1) := by
  simp only [entriesIn, mem_flatMap, mem_map]
  constructor
  · rintro ⟨block, mem, link, listed, rfl⟩
    exact ⟨mem, listed⟩
  · rintro ⟨mem, listed⟩
    exact ⟨entry.1, mem, entry.2, listed, rfl⟩

namespace Layout.Linear

theorem edit (linear : layout.Linear volume.image node leaves slots)
    (edits : layout.Edits volume after leaves slots block renewed old new) :
    layout.Linear after.image node leaves (update slots block renewed) where
  type := linear.type
  plain := linear.plain
  size := linear.size
  few := linear.few
  mapped blocks agree i inside := by
    refine linear.mapped blocks (fun other outside => ?_) i inside
    rw [← edits.windows other fun same => outside (same ▸ edits.leaf)]
    exact agree other outside
  data := linear.data
  distinct := linear.distinct
  chain other leaf := by
    by_cases same : other = block
    · rw [same, update_self]
      exact edits.chain
    · rw [update_of_ne same, edits.windows other same]
      exact linear.chain other leaf

variable (fits : layout.Fits volume) (linear : layout.Linear volume.image node leaves slots)
include fits linear

/-- The name is entered into the first block that has room. -/
theorem insertFrom (short : name.length ≤ 255) (used : child.inode ≠ 0)
    (limit : child.inode < 2 ^ 32) (whole : logical + left = leaves.length)
    (intact : Intact volume state) :
    (∃ after, Ext4.insertFrom node name child left logical state = .error .noSpace after ∧
        Intact volume after ∧ ∀ block ∈ leaves.drop logical, ∀ slot ∈ slots block,
          ¬ slot.HasRoom (recordRoom name.length)) ∨
      ∃ after block renewed entry first second,
        Ext4.insertFrom node name child left logical state = .ok () after ∧
        layout.Edits volume after leaves slots block renewed (first ++ second)
          (first ++ entry :: second) ∧
        entry.2.name = name ∧ entry.2.inode = child.inode := by
  induction left generalizing logical state with
  | zero =>
    rw [drop_of_length_le (by omega)]
    exact .inl ⟨_, rfl, intact, nofun⟩
  | succ left ih =>
    have inside : logical < leaves.length := by omega
    have leaf := getElem_mem inside
    have mapped := linear.mapBlock fits inside
    rw [drop_eq_getElem_cons inside]
    generalize leaves[logical] = block at leaf mapped ⊢
    obtain ⟨second, intact₂, map⟩ := mapped state intact
    obtain ⟨third, load, intact₃, chain⟩ := linear.load fits intact₂ leaf
    have geometry : state.geometry = layout.toGeometry := intact.geometry.trans fits.geometry
    have many := chain.length_le
    simp only [Ext4.insertFrom, get_bind, geometry]
    rw [bind_of_ok map]
    simp only [Bool.false_eq_true, if_false]
    rw [bind_of_ok load, get_bind]
    rcases @findRoom_chain layout.toGeometry third.directoryBlock layout.blockSize 0
      (recordRoom name.length) layout.blockSize (slots block) chain (by omega) with
      ⟨full, noRoom⟩ | ⟨found, hit, room⟩
    · simp only [full]
      rcases ih (show logical + 1 + left = _ by omega) intact₃ with ⟨after, failed, rest⟩ | done
      · exact .inl ⟨after, failed, rest.1, forall_mem_cons.mpr ⟨noRoom, rest.2⟩⟩
      · exact .inr done
    obtain ⟨renewed, before, behind, chain', old, new⟩ :=
      @Room.chain layout.toGeometry third.directoryBlock child.inode
        (recordType layout.toGeometry child.type) name layout.blockSize 0 (slots block)
        found room chain used limit short (fun plain => by simp [recordType, plain])
    obtain ⟨first, last, listed, relisted⟩ :=
      @entriesIn_update leaves slots block linear.distinct leaf renewed
    rw [old, map_append, append_assoc, ← append_assoc] at listed
    rw [new, map_append, map_cons, append_assoc, cons_append, ← append_assoc] at relisted
    simp only [hit, modify_bind, get_bind]
    generalize putRecord _ _ _ _ _ _ = input at chain' ⊢
    have intact₄ : Intact volume { third with directoryBlock := input } :=
      trans_of Intact intact₃ (.directoryScratch third input)
    obtain ⟨after, written, fits', regions, windows, chain''⟩ :=
      (intact₄.fits fits).rewrite (linear.data block leaf) chain'
    rw [intact₄.image] at regions windows
    exact .inr ⟨after, block, renewed, (block, ⟨found.2.1, child.inode, name⟩), _, _, written,
      ⟨⟨fits', regions, windows, chain''⟩, leaf, listed, relisted⟩, rfl, rfl⟩

theorem insertDirectoryEntry (used : child.inode ≠ 0) (limit : child.inode < 2 ^ 32)
    {state : Volume} (intact : Intact volume state) :
    (∃ error after, Ext4.insertDirectoryEntry node name child state = .error error after ∧
        Intact volume after ∧ (error = .noSpace → ∀ block ∈ leaves, ∀ slot ∈ slots block,
          ¬ slot.HasRoom (recordRoom name.length))) ∨
      ∃ after block renewed entry first second,
        Ext4.insertDirectoryEntry node name child state = .ok () after ∧
        layout.Edits volume after leaves slots block renewed (first ++ second)
          (first ++ entry :: second) ∧
        entry.2.name = name ∧ entry.2.inode = child.inode := by
  have geometry : state.geometry = layout.toGeometry := intact.geometry.trans fits.geometry
  simp only [Ext4.insertDirectoryEntry, ite_apply_state, get_bind, geometry]
  split
  · exact .inl ⟨_, _, rfl, intact, nofun⟩
  rename_i taken
  simp only [not_or, Nat.not_lt] at taken
  have count : blocksFor layout.toGeometry node.size = leaves.length := by
    rw [blocksFor, linear.blocks]
    exact wrap_of_lt linear.few
  rw [count]
  refine (linear.insertFrom fits taken.2 used limit (Nat.zero_add _) intact).imp_left ?_
  rintro ⟨after, failed, kept, noRoom⟩
  exact ⟨_, after, failed, kept, fun _ => noRoom⟩

theorem eraseDirectoryEntry {entry : Nat × Link} (mem : entry ∈ entriesIn slots leaves) :
    ∃ after renewed first second,
      Ext4.eraseDirectoryEntry node (entry.1 * layout.blockSize + entry.2.offset) volume =
        .ok () after ∧
      layout.Edits volume after leaves slots entry.1 renewed (first ++ entry :: second)
        (first ++ second) := by
  obtain ⟨leaf, linked⟩ := mem_entriesIn.mp mem
  obtain ⟨block, link⟩ := entry
  obtain ⟨physical, -⟩ := linear.data block leaf
  obtain ⟨before, behind, split⟩ := append_of_mem linked
  obtain ⟨firstSlots, slot, secondSlots, slots_eq, rfl, rfl, isLink⟩ := exists_slot_of_link split
  have used : slot.inode ≠ 0 := by
    intro free
    rw [Slot.link, if_pos free] at isLink
    cases isLink
  obtain rfl : link = ⟨slot.offset, slot.inode, slot.name⟩ := by
    rw [Slot.link, if_neg used] at isLink
    cases isLink
    rfl
  have chain := linear.chain block leaf
  rw [slots_eq] at chain
  obtain ⟨bytes, read, agree⟩ := fits.spans.readBlock physical volume.directoryBlock
  simp only [Ext4.readPhysicalBlock, get_bind, ite_apply_state, fits.geometry, physical, if_true]
    at read
  have chainHere := chain.congr fun i _ upper => (agree i upper).symm
  obtain ⟨here, sound, -, inside⟩ := chainHere.here
  have room := sound.room
  have inode : littleU32 bytes slot.offset = slot.inode := by rw [← here, slotAt, recordHead]
  have pos := layout.blockSize_pos
  have within : (block * layout.blockSize + slot.offset) % layout.blockSize = slot.offset := by
    rw [Nat.mul_comm, Nat.mul_add_mod, Nat.mod_eq_of_lt (by omega)]
  have somewhere : block * layout.blockSize + slot.offset ≠ 0 := by
    have nonzero : 0 < block := by
      rw [Geometry.validPhysicalBlock, Bool.and_eq_true, decide_eq_true_eq] at physical
      exact Nat.pos_of_ne_zero physical.1
    have := Nat.mul_pos nonzero pos
    omega
  have rest := links_erase firstSlots secondSlots slot
  have erased := chainHere.erase
  generalize firstSlots ++ { slot with inode := 0 } :: secondSlots = renewed at erased rest
  obtain ⟨first, last, listing, relisted⟩ :=
    @entriesIn_update leaves slots block linear.distinct leaf renewed
  rw [split, map_append, map_cons, append_assoc, cons_append, ← append_assoc] at listing
  rw [rest, map_append, append_assoc, ← append_assoc] at relisted
  have intact : Intact volume { volume with directoryBlock := put32 bytes slot.offset 0 } :=
    .directoryScratch volume _
  obtain ⟨after, written, rewrites⟩ := (intact.fits fits).rewrite (linear.data block leaf) erased
  refine ⟨after, renewed, _, _, ?_, ⟨⟨rewrites.fits, rewrites.regions, rewrites.windows,
    rewrites.chain⟩, leaf, listing, relisted⟩⟩
  simp only [Ext4.eraseDirectoryEntry, get_bind, ite_apply_state, fits.geometry, within]
  rw [if_neg (by simp only [linear.type, ne_eq, not_true_eq_false, false_or]; exact somewhere),
    Nat.add_sub_cancel, bind_of_ok read, modify_bind]
  simp only [ite_apply_state]
  rw [if_neg (by rw [inode]; omega), modify_bind, get_bind]
  exact written

end Layout.Linear
end Rewrite
end Mikos.Ext4
