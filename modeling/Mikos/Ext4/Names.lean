import Mathlib.Data.Finset.Card
import Mikos.Ext4.Inline

/-!
# The names of a file

A file can have several names, and its inode counts them.  The driver moves a name
without touching the file.  When it removes a name it releases the file as well,
however many names are left.
-/

namespace Mikos.Ext4
open Library Fs

/-! ## Files and names -/

abbrev Name := Nat × List UInt8

def nameOf (path : List UInt8) : Action Name := do
  let (parent, name) ← resolveParent path
  return (parent.inode, name)

def nodeOf (name : Name) : Action Node := do
  let directory ← readInode name.1
  lookup directory name.2

def contentOf (inode offset size : Nat) : Action (List UInt8) := do
  let node ← readInode inode
  read node offset size

def contentAt (name : Name) (offset size : Nat) : Action (List UInt8) := do
  let node ← nodeOf name
  read node offset size

/-- A tree of directories in which an inode has some names, as many as it counts links. -/
structure LinkedFile (layout : Layout) (forest : Forest) (volume : Volume) (inode : Nat)
    (names : Finset Name) : Prop where
  fits : layout.Fits volume
  holds : forest.Holds layout volume.image
  file : (layout.nodeAt volume.image inode).type ≠ .directory
  content : forest.Leaves layout volume.image (layout.nodeAt volume.image inode)
  listed : ∀ name ∈ names, name.1 ∈ forest.directories ∧ name.2 ≠ []
  named : ∀ directory ∈ forest.directories, ∀ name,
    (directory, name) ∈ names ↔ forest.Names directory name inode
  links : (layout.nodeAt volume.image inode).links = names.card

/-! ## Runs -/

/-- A volume, and the names that a file still has. -/
structure Census where
  volume : Volume
  names : Finset Name

/-- Calls that change the names of a file. -/
inductive Edit where
  | remove (path : List UInt8)
  | move (source destination : List UInt8)

/-- What a call on a name of the file does.  The name that `remove` erased is gone, also
when the file behind it could not be released. -/
inductive Edit.Step : Edit → Census → Census → Prop where
  | removed {state : Census} {path : List UInt8} {name : Name} {middle : Volume} :
      nameOf path state.volume = .ok name middle → name ∈ state.names →
      Step (.remove path) state
        ⟨endState (Ext4.remove path state.volume), state.names.erase name⟩
  | moved {state : Census} {source destination : List UInt8} {old new : Name}
      {first second after : Volume} :
      nameOf source state.volume = .ok old first → old ∈ state.names →
      nameOf destination state.volume = .ok new second →
      Ext4.move source destination state.volume = .ok () after →
      Step (.move source destination) state ⟨after, insert new (state.names.erase old)⟩
  | refused {state : Census} {source destination : List UInt8} {old : Name}
      {first after : Volume} {error : Error} :
      nameOf source state.volume = .ok old first → old ∈ state.names →
      Ext4.move source destination state.volume = .error error after →
      Step (.move source destination) state ⟨after, state.names⟩

/-- A name is removed only when the file has no other. -/
def Edit.Careful (state : Census) : Edit → Prop
  | .remove _ => state.names.card = 1
  | .move _ _ => True

/-- The states of careful runs. -/
inductive Edited (start : Census) : Census → Prop where
  | start : Edited start start
  | step {state next : Census} {edit : Edit} : Edited start state → edit.Careful state →
      edit.Step state next → Edited start next

/-- A file is as it was, under all names that it has. -/
structure Kept (start : Volume) (inode : Nat) (state : Census) : Prop where
  found : ∀ name ∈ state.names, ∃ node after, nodeOf name state.volume = .ok node after ∧
    node.inode = inode ∧ node.links = state.names.card
  content : ∀ name ∈ state.names, ∀ offset size,
    answer (contentAt name offset size state.volume) = answer (contentOf inode offset size start)
  blocks : ∀ block, start.geometry.firstDataBlock ≤ block → block < start.geometry.blockCount →
    state.volume.blockMarked block = start.blockMarked block
  inode : state.volume.inodeMarked inode = start.inodeMarked inode

/-! ## What a move keeps -/

section Names
variable {layout : Layout} {forest forest' : Forest} {volume after : Volume} {inode : Nat}
  {names : Finset Name} {name : Name}

theorem nameOf_eq_ok (fits : layout.Fits volume) (holds : forest.Holds layout volume.image)
    (states : nameOf path volume = .ok name after) :
    ∃ parent, forest.resolveParent layout volume.image path = .ok (parent, name.2) ∧
      parent.inode = name.1 := by
  obtain ⟨middle, -, ran⟩ := (resolveParent_answers holds fits path).1 volume (refl_of Intact volume)
  rw [nameOf] at states
  cases resolved : forest.resolveParent layout volume.image path with
  | error error =>
    rw [resolved] at ran
    rw [bind_of_error ran] at states
    cases states
  | ok found =>
    rw [resolved] at ran
    rw [bind_of_ok ran] at states
    cases states
    exact ⟨found.1, rfl, rfl⟩

theorem LinkedFile.nodeOf (linked : LinkedFile layout forest volume inode names)
    (reads : forest.Readable layout volume.image) (mem : name ∈ names) :
    ∃ place, Answers volume (Ext4.nodeOf name)
      (.ok { layout.nodeAt volume.image inode with directoryEntryOffset := place }) := by
  obtain ⟨isDirectory, nonempty⟩ := linked.listed name mem
  obtain ⟨entry, listed, sameName, rfl⟩ := (linked.named name.1 isDirectory name.2).mp mem
  obtain ⟨hasInode, readable, -⟩ := linked.holds.directory name.1 isDirectory
  have directory : Answers volume (readInode name.1)
      (.ok (layout.nodeAt volume.image name.1)) := by
    intro state intact
    have read := (intact.fits linked.fits).readInode hasInode (by rw [intact.image]; exact readable)
    rw [intact.image] at read
    exact ⟨state, intact, read⟩
  have represents : layout.Represents volume.image name.1
      (layout.nodeAt volume.image name.1) := ⟨_, rfl⟩
  have looked := lookup_answers linked.holds linked.fits isDirectory represents name.2
  have first : (forest.listing name.1).find? (fun found => found.2.name = name.2) = some entry := by
    have there : ((forest.listing name.1).find? fun found => found.2.name = name.2).isSome := by
      rw [List.find?_isSome]
      exact ⟨entry, listed, decide_eq_true sameName⟩
    obtain ⟨found, isFound⟩ := Option.isSome_iff_exists.mp there
    have sameFound : found.2.name = name.2 := by simpa using List.find?_some isFound
    rw [isFound, linked.holds.names_unique isDirectory (List.mem_of_find?_eq_some isFound) listed
      (sameFound.trans sameName.symm)]
  have reaches : layout.Reaches volume.image name.2 (forest.listing name.1) :=
    fun found passed => reads name.1 isDirectory found (mem_of_mem_upTo passed)
  rw [Forest.lookup, Layout.sought, if_neg nonempty, if_pos reaches, Layout.first, first] at looked
  exact ⟨_, directory.bind_ok looked⟩

theorem Forest.Moves.readable
    (moves : forest.Moves forest' layout volume after source destination inode)
    (reads : forest.Readable layout volume.image) (isSource : source.1 ∈ forest.directories) :
    forest'.Readable layout after.image := by
  intro directory isDirectory entry listed
  rw [moves.directories] at isDirectory
  rw [Layout.ReadsInode, moves.spares.nodeAt]
  rcases (moves.names directory isDirectory _ _).mp ⟨entry, listed, rfl, rfl⟩ with
    ⟨⟨found, isFound, -, same⟩, -⟩ | ⟨-, same⟩
  · rw [← same]
    exact reads directory isDirectory found isFound
  · obtain ⟨found, isFound, -, isInode⟩ := moves.named
    rw [same, ← isInode]
    exact reads source.1 isSource found isFound

theorem LinkedFile.moves (linked : LinkedFile layout forest volume inode names)
    (mem : source ∈ names)
    (moves : forest.Moves forest' layout volume after source destination inode)
    (isDirectory : destination.1 ∈ forest.directories) (nonempty : destination.2 ≠ []) :
    LinkedFile layout forest' after inode (insert destination (names.erase source)) := by
  have node := moves.spares.nodeAt inode
  have leaf := Forest.IsLeaf.congr moves.directories moves.leaves
  have fresh : destination ∉ names := fun there =>
    moves.absent inode ((linked.named destination.1 isDirectory destination.2).mp there)
  refine
    { fits := moves.spares.fits
      holds := moves.holds
      file := by
        rw [node]
        exact linked.file
      content := ?_
      listed := fun name there => ?_
      named := fun directory isDirectory name => ?_
      links := ?_ }
  · rw [node]
    have windows := linked.content.mapped (window layout.toGeometry after.image)
      moves.spares.windows
    refine ⟨fun blocks agree logical inside => ?_, fun logical mapping inside mapped => ?_⟩
    · rw [windows logical inside]
      refine linked.content.mapped blocks (fun block outside => ?_) logical inside
      rw [agree block fun isLeaf => outside ((leaf block).mp isLeaf)]
      exact moves.spares.windows block outside
    · rw [leaf]
      rw [windows logical inside] at mapped
      exact linked.content.outside logical mapping inside mapped
  · rw [moves.directories]
    rcases Finset.mem_insert.mp there with rfl | old
    · exact ⟨isDirectory, nonempty⟩
    · exact linked.listed name (Finset.mem_of_mem_erase old)
  · rw [moves.directories] at isDirectory
    rw [moves.names directory isDirectory, Finset.mem_insert, Finset.mem_erase,
      linked.named directory isDirectory]
    simp only [and_true]
    rw [or_comm, and_comm]
  · rw [node, linked.links, Finset.card_insert_of_notMem fun there =>
      fresh (Finset.mem_of_mem_erase there), Finset.card_erase_add_one mem]

/-- The file is found under its names, and reads as it did. -/
theorem LinkedFile.kept (origin : LinkedFile layout forest start inode names)
    (linked : LinkedFile layout forest' state.volume inode state.names)
    (reads : forest'.Readable layout state.volume.image)
    (spares : forest.Spares layout start state.volume) (remains : state.names.Nonempty) :
    Kept start inode state := by
  have node := spares.nodeAt inode
  obtain ⟨used, inodeUsed⟩ := spares.used
  obtain ⟨some, isName⟩ := remains
  have hasInode : layout.HasInode inode ∧ (layout.nodeAt start.image inode).Readable := by
    obtain ⟨isDirectory, -⟩ := linked.listed some isName
    obtain ⟨entry, listed, -, rfl⟩ := (linked.named some.1 isDirectory some.2).mp isName
    have readable := reads some.1 isDirectory entry listed
    rw [Layout.ReadsInode, node] at readable
    exact readable
  refine
    { found := fun name mem => ?_
      content := fun name mem offset size => ?_
      blocks := fun block lower upper => ?_
      inode := ?_ }
  · obtain ⟨place, answers⟩ := linked.nodeOf reads mem
    obtain ⟨after, -, ran⟩ := answers state.volume (refl_of Intact _)
    exact ⟨_, after, ran, rfl, linked.links⟩
  · obtain ⟨place, answers⟩ := linked.nodeOf reads mem
    obtain ⟨after, intact, ran⟩ := answers state.volume (refl_of Intact _)
    have opened := origin.fits.readInode hasInode.1 hasInode.2
    rw [contentAt, contentOf, bind_of_ok ran, bind_of_ok opened, node]
    exact read_spared spares origin.content origin.fits intact _ offset size
  · rw [origin.fits.geometry] at lower upper
    rw [spares.fits.blockMarked ⟨lower, upper⟩, origin.fits.blockMarked ⟨lower, upper⟩]
    exact congrFun used block
  · rw [spares.fits.inodeMarked hasInode.1, origin.fits.inodeMarked hasInode.1]
    exact congrFun inodeUsed inode

theorem LinkedFile.intact (linked : LinkedFile layout forest volume inode names)
    (intact : Intact volume after) : LinkedFile layout forest after inode names := by
  obtain ⟨fits, holds, file, content, listed, named, links⟩ := linked
  rw [← intact.image] at holds file content links
  exact ⟨intact.fits fits, holds, file, content, listed, named, links⟩

theorem LinkedFile.step {state next : Census} {edit : Edit}
    (linked : LinkedFile layout forest state.volume inode state.names)
    (reads : forest.Readable layout state.volume.image)
    (careful : edit.Careful state) (step : edit.Step state next) :
    next.names = ∅ ∨ ∃ forest', LinkedFile layout forest' next.volume inode next.names ∧
      forest'.Readable layout next.volume.image ∧
      forest'.directories = forest.directories ∧ forest'.leaves = forest.leaves ∧
      forest.Spares layout state.volume next.volume := by
  cases step with
  | @removed _ path name middle states mem =>
    have alone : (state.names.erase name).card = 0 := by
      rw [Finset.card_erase_of_mem mem]
      rw [Edit.Careful] at careful
      omega
    exact .inl (Finset.card_eq_zero.mp alone)
  | @moved _ source destination old new first second after statesOld mem statesNew ran =>
    refine .inr ?_
    obtain ⟨parent, resolved, sameOld⟩ := nameOf_eq_ok linked.fits linked.holds statesOld
    obtain ⟨parent', resolved', sameNew⟩ := nameOf_eq_ok linked.fits linked.holds statesNew
    rcases move_cases linked.fits linked.holds source destination with ⟨_, _, failed, -⟩ |
      ⟨sourceParent, sourceName, destinationParent, destinationName, moved, last, forest',
        isSource, isDestination, moves, changed⟩
    · rw [failed] at ran
      cases ran
    rw [moves] at ran
    rw [resolved] at isSource
    rw [resolved'] at isDestination
    cases ran
    cases isSource
    cases isDestination
    rw [sameOld, sameNew] at changed
    obtain ⟨isDirectory, -⟩ := linked.listed old mem
    obtain ⟨entry, listed, sameName, rfl⟩ := (linked.named old.1 isDirectory old.2).mp mem
    obtain ⟨other, otherListed, otherName, rfl⟩ := changed.named
    obtain rfl := linked.holds.names_unique isDirectory otherListed listed
      (otherName.trans sameName.symm)
    obtain ⟨isNew, -, nonempty, -⟩ :=
      (resolveParent_answers linked.holds linked.fits destination).2 _ _ resolved'
    rw [sameNew] at isNew
    exact ⟨forest', linked.moves mem changed isNew nonempty, changed.readable reads isDirectory,
      changed.directories, changed.leaves, changed.spares⟩
  | @refused _ source destination old first after error states mem ran =>
    refine .inr ?_
    rcases move_cases linked.fits linked.holds source destination with ⟨_, _, failed, intact⟩ |
      ⟨_, _, _, _, _, _, _, -, -, moved, -⟩
    · rw [failed] at ran
      cases ran
      rw [← intact.image] at reads
      exact ⟨forest, linked.intact intact, reads, rfl, rfl, .of_intact linked.fits intact⟩
    · rw [moved] at ran
      cases ran

theorem LinkedFile.edited (origin : LinkedFile layout forest start inode names)
    (readsAll : forest.Readable layout start.image) (edited : Edited ⟨start, names⟩ state) :
    state.names = ∅ ∨ ∃ forest', LinkedFile layout forest' state.volume inode state.names ∧
      forest'.Readable layout state.volume.image ∧
      forest'.directories = forest.directories ∧ forest'.leaves = forest.leaves ∧
      forest.Spares layout start state.volume := by
  induction edited with
  | start =>
    exact .inr ⟨forest, origin, readsAll, rfl, rfl, .of_intact origin.fits (refl_of Intact start)⟩
  | @step state next edit before careful step ih =>
    rcases ih with none | ⟨forest', linked, reads, directories, leaves, spares⟩
    · have noName : ∀ name, name ∉ state.names := by simp [none]
      cases step with
      | removed _ mem
      | moved _ mem _ _
      | refused _ mem _ => exact absurd mem (noName _)
    · refine (linked.step reads careful step).imp_right ?_
      rintro ⟨last, linkedLast, readsLast, directoriesLast, leavesLast, sparesLast⟩
      exact ⟨last, linkedLast, readsLast, directoriesLast.trans directories,
        leavesLast.trans leaves, spares.trans (sparesLast.congr directories leaves)⟩

end Names

/-- However the names of a file are moved, and until its last name is removed, it stays as
it was under all of its names, provided that the driver reads whatever the directories
name. -/
theorem names_keep_file (layout : Layout) (forest : Forest) (start : Volume) (inode : Nat)
    (names : Finset Name) (linked : LinkedFile layout forest start inode names)
    (reads : forest.Readable layout start.image) (state : Census)
    (edited : Edited ⟨start, names⟩ state) (remains : state.names.Nonempty) :
    Kept start inode state := by
  rcases linked.edited reads edited with none | ⟨forest', linked', reads', -, -, spares⟩
  · rw [none] at remains
    exact absurd remains Finset.not_nonempty_empty
  · exact linked.kept linked' reads' spares remains

/-! ## A file with two names -/

/-- The root directory in block 6 names a file `f` and `g`. -/
def twiceNamed : Device := grouped <|
  bitmapFields 0xc00 2 0x7fff ++ bitmapFields 0x1000 1 0xff ++ bitmapFields 0x5000 1 0x0b ++
  extentFields 0x1480 0x41ed 2 1 6 ++ extentFields 0x5580 0x81a4 2 9 7 ++
  recordFields 0x1800 2 12 1 2 0x2e ++ recordFields 0x180c 2 12 2 2 0x2e2e ++
  recordFields 0x1818 12 12 1 1 0x66 ++ recordFields 0x1824 12 988 1 1 0x67

def twiceNamedForest : Forest where
  directories := {2}
  leaves _ := [6]
  slots _ := [⟨0, 2, 12, [dot]⟩, ⟨12, 2, 12, [dot, dot]⟩, ⟨24, 12, 12, [0x66]⟩, ⟨36, 12, 988, [0x67]⟩]

/-- A device is mounted with the layout of two groups, and something holds. -/
def mountsGrouped (device : Device) (property : Volume → Bool) : Bool :=
  mountsWritable device fun volume => volume.geometry = groupedGeometry &&
    ((List.range 2).all fun group =>
      (volume.groupDescriptor group).blockBitmap = (groupedPlaces group).blockBitmap &&
      (volume.groupDescriptor group).inodeBitmap = (groupedPlaces group).inodeBitmap &&
      (volume.groupDescriptor group).inodeTable = (groupedPlaces group).inodeTable) &&
    property volume

theorem fits_of_mountsGrouped {device : Device} {property : Volume → Bool}
    (size : device.size = 0x8400) (sample : mountsGrouped device property = true) :
    ∃ volume, groupedLayout.Fits volume ∧ volume.device = device ∧ property volume = true := by
  obtain ⟨volume, mounted, -, checks⟩ := mountsWritable_iff.mp sample
  simp only [Bool.and_eq_true, decide_eq_true_eq, List.all_eq_true, List.mem_range] at checks
  obtain ⟨⟨geometry, places⟩, holds⟩ := checks
  refine ⟨volume, Layout.fits_of_mount mounted geometry size fun group bound => ?_,
    (mount_sound mounted).1, holds⟩
  obtain ⟨⟨first, second⟩, third⟩ := places group bound
  exact ⟨first, second, third⟩

/-- A run ends because the volume is damaged, or looks so. -/
def corrupts {α : Type} (result : EStateM.Result Error Volume α) : Bool :=
  answer result matches .error .corrupt

theorem exists_of_corrupts {α : Type} {result : EStateM.Result Error Volume α}
    (ends : corrupts result = true) : ∃ after, result = .error .corrupt after := by
  cases result with
  | ok value after => cases ends
  | error error after => cases error <;> first | exact ⟨after, rfl⟩ | cases ends

theorem linkedFile_twiceNamed (fits : groupedLayout.Fits volume)
    (device : volume.device = twiceNamed) :
    LinkedFile groupedLayout twiceNamedForest volume 12 {(2, [0x66]), (2, [0x67])} := by
  have hasInode : groupedLayout.HasInode 12 := by decide
  have node := Layout.nodeAt_eq hasInode volume.image
  refine
    { fits
      holds := ?_
      file := ?_
      content := ?_
      listed := by decide
      named := ?_
      links := ?_ }
  · rw [Volume.image, device]
    refine .of_inline ?_ ?_ ?_ ?_ ?_ ?_ ?_ <;> decide +kernel
  · rw [node, Volume.image, device]
    decide +kernel
  · rw [node, Volume.image, device]
    exact @Forest.Leaves.of_inline _ _ _ _ 9 (by decide +kernel) (by decide +kernel)
      (by decide +kernel)
  · intro directory isDirectory name
    have listing : twiceNamedForest.listing directory =
        [(6, ⟨0, 2, [dot]⟩), (6, ⟨12, 2, [dot, dot]⟩), (6, ⟨24, 12, [0x66]⟩),
          (6, ⟨36, 12, [0x67]⟩)] := rfl
    obtain rfl : directory = 2 := Finset.mem_singleton.mp isDirectory
    rw [Forest.Names, listing]
    simp [eq_comm]
  · rw [node, Volume.image, device]
    decide +kernel

theorem readable_twiceNamed : twiceNamedForest.Readable groupedLayout twiceNamed.image :=
  .of_inline (by decide +kernel)

/-- One of the two names is moved. -/
theorem names_keep_file_renamed :
    ∃ start state, LinkedFile groupedLayout twiceNamedForest start 12
        {(2, [0x66]), (2, [0x67])} ∧
      twiceNamedForest.Readable groupedLayout start.image ∧
      Edited ⟨start, {(2, [0x66]), (2, [0x67])}⟩ state ∧
      state.names = {(2, [0x67]), (2, [0x68])} ∧ Kept start 12 state := by
  have sample : mountsGrouped twiceNamed (fun volume =>
      yields (nameOf [slash, 0x66] volume) (2, [0x66]) (fun _ => true) &&
      yields (nameOf [slash, 0x68] volume) (2, [0x68]) (fun _ => true) &&
      yields (Ext4.move [slash, 0x66] [slash, 0x68] volume) () fun _ => true) = true := by
    decide +kernel
  obtain ⟨start, fits, device, checks⟩ := fits_of_mountsGrouped rfl sample
  simp only [Bool.and_eq_true] at checks
  obtain ⟨⟨statesOld, statesNew⟩, moves⟩ := checks
  obtain ⟨first, statesOld, -⟩ := yields_iff.mp statesOld
  obtain ⟨second, statesNew, -⟩ := yields_iff.mp statesNew
  obtain ⟨after, moves, -⟩ := yields_iff.mp moves
  have linked := linkedFile_twiceNamed fits device
  have reads := readable_twiceNamed
  rw [← device] at reads
  have step := @Edit.Step.moved ⟨start, {(2, [0x66]), (2, [0x67])}⟩ _ _ _ _ _ _ _ statesOld
    (by simp) statesNew moves
  have edited := Edited.start.step (show Edit.Careful _ (.move _ _) from trivial) step
  have names : insert (2, [0x68]) (Finset.erase {(2, [0x66]), (2, [0x67])} (2, [0x66])) =
      ({(2, [0x67]), (2, [0x68])} : Finset Name) := by
    decide
  refine ⟨start, _, linked, reads, edited, names, ?_⟩
  exact names_keep_file groupedLayout twiceNamedForest start 12 _ linked reads _ edited
    ⟨(2, [0x68]), by simp⟩

/-- After one of the two names was removed, the other leads to an inode that is gone. -/
theorem other_name_lost :
    ∃ start state after, LinkedFile groupedLayout twiceNamedForest start 12
        {(2, [0x66]), (2, [0x67])} ∧
      twiceNamedForest.Readable groupedLayout start.image ∧
      Ext4.remove [slash, 0x66] start = .ok () state.volume ∧
      (Edit.remove [slash, 0x66]).Step ⟨start, {(2, [0x66]), (2, [0x67])}⟩ state ∧
      (2, [0x67]) ∈ state.names ∧ nodeOf (2, [0x67]) state.volume = .error .corrupt after := by
  have sample : mountsGrouped twiceNamed (fun volume =>
      yields (nameOf [slash, 0x66] volume) (2, [0x66]) (fun _ => true) &&
      yields (Ext4.remove [slash, 0x66] volume) () fun after =>
        corrupts (nodeOf (2, [0x67]) after)) = true := by
    decide +kernel
  obtain ⟨start, fits, device, checks⟩ := fits_of_mountsGrouped rfl sample
  simp only [Bool.and_eq_true] at checks
  obtain ⟨states, removes⟩ := checks
  obtain ⟨first, states, -⟩ := yields_iff.mp states
  obtain ⟨middle, removes, looks⟩ := yields_iff.mp removes
  have step := @Edit.Step.removed ⟨start, {(2, [0x66]), (2, [0x67])}⟩ _ _ _ states (by simp)
  simp only [removes, endState_ok] at step
  obtain ⟨after, looked⟩ := exists_of_corrupts looks
  have remains : ((2, [0x67]) : Name) ∈ Finset.erase {(2, [0x66]), (2, [0x67])} (2, [0x66]) := by
    decide
  have reads := readable_twiceNamed
  rw [← device] at reads
  exact ⟨start, _, after, linkedFile_twiceNamed fits device, reads, removes, step, remains, looked⟩

end Mikos.Ext4
