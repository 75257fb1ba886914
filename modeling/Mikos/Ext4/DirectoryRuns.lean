import Mikos.Ext4.Names

/-!
# Directories under the calls of the driver

However names are entered and erased, the blocks of a directory stay chains of records,
and each call changes the one name that it is about.  Showing a directory stops at an
inode that the driver does not read, and with it the lookup of all later names.
-/

namespace Mikos.Ext4
open Library Fs Function

/-! ## Showing a directory -/

/-- The visitor that takes down what it is shown. -/
def collect (seen : List Entry) (entry : Entry) : List Entry × Bool := (seen ++ [entry], true)

/-- The directory is listed: every entry is shown once and in the order of the records. -/
def Layout.Lists (layout : Layout) (volume : Volume) (node : Node) (entries : List (Nat × Link)) :
    Prop :=
  ∃ after, forEach collect node [] volume =
      .ok (entries.map (layout.entry volume.image)) after ∧ Intact volume after

section Show
variable {layout : Layout} {volume : Volume} {image : Bytes} {node : Node} {leaves : List Nat}
  {slots : Nat → List Slot} {name path : List UInt8}

open Classical in
theorem visited_collect (seen : List Entry) (entries : List (Nat × Link)) :
    (layout.visited image collect seen entries).map Prod.fst =
      if ∀ entry ∈ entries, layout.ReadsInode image entry.2.inode then
        .ok (seen ++ entries.map (layout.entry image))
      else .error .corrupt := by
  induction entries generalizing seen with
  | nil => simp [Layout.visited, Except.map]
  | cons entry rest ih =>
    rw [Layout.visited]
    by_cases reads : layout.ReadsInode image entry.2.inode
    · simp [reads, collect, ih]
    · simp [reads, Except.map]

variable (fits : layout.Fits volume) (linear : layout.Linear volume.image node leaves slots)
include fits linear

/-- A directory is listed if and only if the driver reads every inode that it names. -/
theorem Layout.Linear.lists_iff :
    layout.Lists volume node (entriesIn slots leaves) ↔
      ∀ entry ∈ entriesIn slots leaves, layout.ReadsInode volume.image entry.2.inode := by
  obtain ⟨after, intact, ran⟩ := linear.forEach fits collect [] volume (refl_of Intact volume)
  rw [visited_collect, List.nil_append] at ran
  constructor
  · rintro ⟨last, listed, -⟩
    by_contra unread
    rw [listed, if_neg unread] at ran
    cases ran
  · intro reads
    rw [if_pos reads] at ran
    exact ⟨after, ran, intact⟩

/-- A lookup finds the first entry with a name if and only if the driver reads the inodes
that it passes. -/
theorem Layout.Linear.lookup_iff (nonempty : name ≠ []) :
    (∃ after, Ext4.lookup node name volume =
        resultOf after (layout.first volume.image name (entriesIn slots leaves))) ↔
      layout.Reaches volume.image name (entriesIn slots leaves) := by
  obtain ⟨after, -, ran⟩ := linear.lookup fits name volume (refl_of Intact volume)
  rw [Layout.sought, if_neg nonempty] at ran
  constructor
  · rintro ⟨last, found⟩
    by_contra stuck
    rw [found, if_neg stuck, Layout.first] at ran
    cases hit : (entriesIn slots leaves).find? fun entry => entry.2.name = name <;>
      rw [hit] at ran <;> cases ran
  · intro reaches
    rw [if_pos reaches] at ran
    exact ⟨after, ran⟩

theorem Layout.Linear.lookup_stuck (nonempty : name ≠ [])
    (stuck : ¬ layout.Reaches volume.image name (entriesIn slots leaves)) :
    Answers volume (Ext4.lookup node name) (.error .corrupt) ∧
      Answers volume (Ext4.requireAbsent node name) (.error .corrupt) := by
  have looked := linear.lookup fits name
  have required := linear.requireAbsent fits name
  rw [Layout.sought, if_neg nonempty, if_neg stuck] at looked required
  exact ⟨looked, required⟩

/-- A name that a lookup does not reach is neither created nor removed. -/
theorem Layout.Linear.refuses (nonempty : name ≠ [])
    (stuck : ¬ layout.Reaches volume.image name (entriesIn slots leaves))
    (resolves : resolveParent path volume = .ok (node, name) middle) :
    (∀ input size, Refuses (create path input size) volume) ∧
      (∀ mode, Refuses (mkdir path mode) volume) ∧ Refuses (remove path) volume := by
  have intact := reads_resolveParent path volume
  rw [resolves] at intact
  obtain ⟨looked, required⟩ := linear.lookup_stuck fits nonempty stuck
  obtain ⟨after, intact', ran⟩ := required middle intact
  refine ⟨fun input size => ?_, fun mode => ?_, ?_⟩
  · simp only [Refuses, create, get_bind, ite_apply_state]
    split
    · rw [bind_of_ok resolves]
      exact ⟨_, after, bind_of_error ran, intact'⟩
    · exact ⟨_, volume, rfl, refl_of Intact volume⟩
  · simp only [Refuses, mkdir, get_bind, ite_apply_state]
    split
    · rw [bind_of_ok resolves]
      simp only [ite_apply_state]
      split
      · exact ⟨_, middle, rfl, intact⟩
      split
      · exact ⟨_, middle, rfl, intact⟩
      · exact ⟨_, after, bind_of_error ran, intact'⟩
    · exact ⟨_, volume, rfl, refl_of Intact volume⟩
  · obtain ⟨last, intact'', failed⟩ := looked middle intact
    rw [Refuses, remove, bind_of_ok resolves]
    exact ⟨_, last, bind_of_error failed, intact''⟩

end Show

/-- The root directory in block 6 names a pipe `p` and a file `f`. -/
def pipeNamed : Device := grouped <|
  bitmapFields 0xc00 2 0x7fff ++ bitmapFields 0x1000 1 0xff ++ bitmapFields 0x5000 1 0x1b ++
  extentFields 0x1480 0x41ed 2 1 6 ++ extentFields 0x5580 0x81a4 1 9 7 ++
  extentFields 0x5600 0x11a4 1 0 0 ++
  recordFields 0x1800 2 12 1 2 0x2e ++ recordFields 0x180c 2 12 2 2 0x2e2e ++
  recordFields 0x1818 13 12 1 5 0x70 ++ recordFields 0x1824 12 988 1 1 0x66

def pipeNamedSlots (_ : Nat) : List Slot :=
  [⟨0, 2, 12, [dot]⟩, ⟨12, 2, 12, [dot, dot]⟩, ⟨24, 13, 12, [0x70]⟩, ⟨36, 12, 988, [0x66]⟩]

theorem linear_pipeNamed : groupedLayout.Linear pipeNamed.image
    (groupedLayout.nodeOn pipeNamed.image 2) [6] pipeNamedSlots := by
  refine .of_inline ?_ ?_ ?_ ?_ ?_ ?_ ?_ ?_ <;> decide +kernel

inductive DirectoryCall where
  | insert (name : List UInt8) (child : Node)
  | erase (entryOffset : Nat)
  | initializeBlock (directory parent : Node) (block : Nat)

def DirectoryCall.perform (node : Node) : DirectoryCall → Action Unit
  | .insert name child => insertDirectoryEntry node name child
  | .erase entryOffset => eraseDirectoryEntry node entryOffset
  | .initializeBlock directory parent block => initializeDirectoryBlock directory parent block

/-- A volume and the records in its blocks. -/
structure Tiled where
  volume : Volume
  slots : Nat → List Slot

/-- A directory is mapped without reading a block, which is none of its own. -/
def Layout.Idle (layout : Layout) (image : Bytes) (node : Node) (leaves : List Nat) (block : Nat) :
    Prop :=
  layout.IsData block ∧ block ∉ leaves ∧ ∀ blocks : Nat → Bytes,
    (∀ other ∉ leaves, other ≠ block → blocks other = window layout.toGeometry image other) →
    ∀ (index : Nat) (inside : index < leaves.length),
      mapOn layout.toGeometry blocks node index = .ok ⟨leaves[index], false⟩

/-- A call names inodes, erases a name where it is listed, and prepares a block that is not
in use. -/
def DirectoryCall.Admissible (layout : Layout) (node : Node) (leaves : List Nat) (state : Tiled) :
    DirectoryCall → Prop
  | .insert _ child => child.inode ≠ 0 ∧ child.inode < 2 ^ 32
  | .erase entryOffset => ∃ entry ∈ entriesIn state.slots leaves,
      entryOffset = entry.1 * layout.blockSize + entry.2.offset
  | .initializeBlock directory parent block =>
      directory.inode < 2 ^ 32 ∧ parent.inode < 2 ^ 32 ∧
        layout.Idle state.volume.image node leaves block

def newDirectory (geometry : Geometry) (directory parent : Node) : List Slot :=
  [⟨0, directory.inode, 12, [dot]⟩, ⟨12, parent.inode, geometry.blockSize - 12, [dot, dot]⟩]

/-- What a call does to the names of a directory, which keep their inodes and places. -/
inductive DirectoryCall.Effect (layout : Layout) (leaves : List Nat) (state : Tiled) :
    DirectoryCall → EStateM.Result Error Volume Unit → (Nat → List Slot) → Prop where
  | refused {name : List UInt8} {child : Node} {error : Error} {after : Volume}
      (intact : Intact state.volume after)
      (full : error = .noSpace → ∀ block ∈ leaves, ∀ slot ∈ state.slots block,
        ¬ slot.HasRoom (recordRoom name.length)) :
      Effect layout leaves state (.insert name child) (.error error after) state.slots
  | inserted
      (edits : layout.Edits state.volume after leaves state.slots block renewed (first ++ second)
        (first ++ entry :: second)) (isName : entry.2.name = name)
      (isInode : entry.2.inode = child.inode) :
      Effect layout leaves state (.insert name child) (.ok () after)
        (update state.slots block renewed)
  | erased (edits : layout.Edits state.volume after leaves state.slots entry.1 renewed
        (first ++ entry :: second) (first ++ second)) : Effect layout leaves state
        (.erase (entry.1 * layout.blockSize + entry.2.offset)) (.ok () after)
        (update state.slots entry.1 renewed)
  | initialized (rewrites : layout.Rewrites state.volume after block
        (newDirectory layout.toGeometry directory parent)) :
      Effect layout leaves state (.initializeBlock directory parent block) (.ok () after) state.slots

/-- The states that admissible calls lead to. -/
inductive DirectoryRun (layout : Layout) (node : Node) (leaves : List Nat) (start : Tiled) :
    Tiled → Prop where
  | start : DirectoryRun layout node leaves start start
  | step {call : DirectoryCall} (run : DirectoryRun layout node leaves start state)
      (admissible : call.Admissible layout node leaves state)
      (effect : call.Effect layout leaves state (call.perform node state.volume) slots) :
      DirectoryRun layout node leaves start ⟨endState (call.perform node state.volume), slots⟩

section Calls
variable {layout : Layout} {volume after : Volume} {node directory parent : Node}
  {leaves : List Nat} {slots : Nat → List Slot} {block : Nat} {state : Tiled} {call : DirectoryCall}

theorem initializeDirectoryBlock_run (fits : layout.Fits volume) (isData : layout.IsData block)
    (ownLimit : directory.inode < 2 ^ 32) (parentLimit : parent.inode < 2 ^ 32) :
    ∃ after, initializeDirectoryBlock directory parent block volume = .ok () after ∧
      layout.Rewrites volume after block (newDirectory layout.toGeometry directory parent) := by
  generalize typeIs : (if layout.hasFileType then 2 else 0) = type
  have typed : layout.hasFileType = false → type = 0 := by
    intro plain
    rw [← typeIs, plain]
    rfl
  generalize zeroedIs : splice volume.directoryBlock 0 layout.blockSize zeroBytes = zeroed
  generalize ownIs : putRecord zeroed 0 directory.inode 12 type [dot] = own
  generalize bytesIs : putRecord own 12 parent.inode (layout.blockSize - 12) type
    [dot, dot] = bytes
  have small : layout.blockSize < 2 ^ 16 ∧ 1024 ≤ layout.blockSize ∧ layout.blockSize % 4 = 0 := by
    rcases layout.sound.blockSize with size | size | size <;> rw [size] <;> decide
  have second : slotAt layout.toGeometry bytes 12 =
      ⟨12, parent.inode, layout.blockSize - 12, [dot, dot]⟩ := by
    rw [← bytesIs]
    exact slotAt_putRecord parentLimit (by omega) (by decide) typed
  have first : slotAt layout.toGeometry bytes 0 = ⟨0, directory.inode, 12, [dot]⟩ := by
    have alone : slotAt layout.toGeometry own 0 = ⟨0, directory.inode, 12, [dot]⟩ := by
      rw [← ownIs]
      exact slotAt_putRecord ownLimit (by decide) (by decide) typed
    rw [← alone]
    refine slotAt_congr fun i _ upper => ?_
    rw [alone, List.length_singleton] at upper
    rw [← bytesIs, putRecord_outside (.inl (by omega))]
  have chain : Chain layout.toGeometry bytes layout.blockSize 0
      (newDirectory layout.toGeometry directory parent) :=
    ⟨first, ⟨by simp, by simp, by simp⟩, second, ⟨by dsimp; omega, by dsimp; omega, by simp⟩,
      by dsimp [Chain]; omega⟩
  have intact : Intact volume { volume with directoryBlock := bytes } := .directoryScratch ..
  obtain ⟨after, written, rewrites⟩ := (intact.fits fits).rewrite isData chain
  refine ⟨after, ?_, rewrites.fits, rewrites.regions, rewrites.windows, rewrites.chain⟩
  simp only [fits.geometry] at written
  simp only [initializeDirectoryBlock, get_bind, modify_bind, fits.geometry, typeIs, zeroedIs,
    ownIs, bytesIs]
  exact written

theorem Layout.Linear.spare (linear : layout.Linear volume.image node leaves slots)
    (rewrites : layout.Rewrites volume after block renewed)
    (idle : layout.Idle volume.image node leaves block) :
    layout.Linear after.image node leaves slots := by
  obtain ⟨-, outside, mapped⟩ := idle
  exact
    { linear with
      mapped := fun blocks agree => mapped blocks fun other apart different => by
        rw [← rewrites.windows other different]
        exact agree other apart
      chain := fun other leaf => by
        rw [rewrites.windows other fun same => outside (same ▸ leaf)]
        exact linear.chain other leaf }

theorem DirectoryCall.Admissible.effect (admissible : call.Admissible layout node leaves state)
    (fits : layout.Fits state.volume)
    (linear : layout.Linear state.volume.image node leaves state.slots) :
    ∃ slots, call.Effect layout leaves state (call.perform node state.volume) slots := by
  cases call with
  | insert name child =>
    rcases @Layout.Linear.insertDirectoryEntry layout state.volume node child leaves state.slots
      name fits linear admissible.1 admissible.2 _ (refl_of Intact _) with
      ⟨error, after, failed, intact, full⟩ | ⟨after, _, _, _, _, _, inserted, edits, isName, isInode⟩
    · rw [perform, failed]
      exact ⟨_, .refused intact full⟩
    · rw [perform, inserted]
      exact ⟨_, .inserted edits isName isInode⟩
  | erase entryOffset =>
    obtain ⟨entry, listed, rfl⟩ := admissible
    obtain ⟨after, _, _, _, erased, edits⟩ := linear.eraseDirectoryEntry fits listed
    rw [perform, erased]
    exact ⟨_, .erased edits⟩
  | initializeBlock directory parent block =>
    obtain ⟨ownLimit, parentLimit, isData, -⟩ := admissible
    obtain ⟨after, initialized, rewrites⟩ :=
      initializeDirectoryBlock_run fits isData ownLimit parentLimit
    rw [perform, initialized]
    exact ⟨_, .initialized rewrites⟩

theorem DirectoryCall.Effect.linear (effect : call.Effect layout leaves state result slots)
    (fits : layout.Fits state.volume) (admissible : call.Admissible layout node leaves state)
    (linear : layout.Linear state.volume.image node leaves state.slots) :
    layout.Fits (endState result) ∧ layout.Linear (endState result).image node leaves slots := by
  cases effect with
  | refused intact full =>
    refine ⟨intact.fits fits, ?_⟩
    rw [endState_error, intact.image]
    exact linear
  | inserted edits _ _
  | erased edits => exact ⟨edits.fits, linear.edit edits⟩
  | initialized rewrites => exact ⟨rewrites.fits, linear.spare rewrites admissible.2.2⟩

theorem DirectoryRun.linear (run : DirectoryRun layout node leaves first state)
    (fits : layout.Fits first.volume)
    (linear : layout.Linear first.volume.image node leaves first.slots) :
    layout.Fits state.volume ∧ layout.Linear state.volume.image node leaves state.slots := by
  induction run with
  | start => exact ⟨fits, linear⟩
  | step run admissible effect ih => exact effect.linear ih.1 admissible ih.2

end Calls

/-- Along every run of calls the blocks of a directory are chains of records and every call
has its effect; the entries are shown as the records state them if and only if the driver
reads the inodes that they name. -/
theorem directory_stays_tiled (layout : Layout) (node : Node) (leaves : List Nat) (start : Tiled)
    (fits : layout.Fits start.volume)
    (linear : layout.Linear start.volume.image node leaves start.slots) (state : Tiled)
    (run : DirectoryRun layout node leaves start state) :
    layout.Linear state.volume.image node leaves state.slots ∧
      (layout.Lists state.volume node (entriesIn state.slots leaves) ↔
        ∀ entry ∈ entriesIn state.slots leaves,
          layout.ReadsInode state.volume.image entry.2.inode) ∧
      ∀ call : DirectoryCall, call.Admissible layout node leaves state →
        ∃ slots, call.Effect layout leaves state (call.perform node state.volume) slots := by
  obtain ⟨fits', linear'⟩ := run.linear fits linear
  exact ⟨linear', linear'.lists_iff fits', fun call admissible => admissible.effect fits' linear'⟩

/-- One of two names of a file is erased, and then another one is entered. -/
theorem directory_stays_tiled_renamed :
    ∃ volume state slots, groupedLayout.Fits volume ∧ volume.device = twiceNamed ∧
      DirectoryRun groupedLayout (groupedLayout.nodeAt volume.image 2) [6]
        ⟨volume, twiceNamedForest.slots⟩ state ∧
      state.volume = endState (eraseDirectoryEntry (groupedLayout.nodeAt volume.image 2)
        (6 * 1024 + 24) volume) ∧
      (DirectoryCall.insert [0x68] { inode := 12 }).Effect groupedLayout [6] state
        (insertDirectoryEntry (groupedLayout.nodeAt volume.image 2) [0x68] { inode := 12 }
          state.volume) slots := by
  obtain ⟨volume, fits, device, -⟩ := @fits_of_mountsGrouped twiceNamed (fun _ => true) rfl
    (by decide +kernel)
  have isDirectory : 2 ∈ twiceNamedForest.directories := by decide
  have represents : groupedLayout.Represents volume.image 2
      (groupedLayout.nodeAt volume.image 2) := ⟨_, rfl⟩
  have linear := (linkedFile_twiceNamed fits device).holds.linear isDirectory represents
  have listed : (6, ⟨24, 12, [0x66]⟩) ∈ entriesIn twiceNamedForest.slots [6] := by decide
  have admissible : (DirectoryCall.erase (6 * 1024 + 24)).Admissible groupedLayout
      (groupedLayout.nodeAt volume.image 2) [6] ⟨volume, twiceNamedForest.slots⟩ :=
    ⟨_, listed, rfl⟩
  obtain ⟨after, effect⟩ := admissible.effect fits linear
  have run := DirectoryRun.start.step admissible effect
  obtain ⟨-, -, effects⟩ := directory_stays_tiled groupedLayout _ _ ⟨volume, _⟩ fits linear _ run
  obtain ⟨slots, does⟩ := effects (.insert [0x68] { inode := 12 }) ⟨by decide, by decide⟩
  exact ⟨volume, _, slots, fits, device, run, rfl, does⟩

/-- A name behind a pipe is erased: neither before nor after it is the directory listed. -/
theorem erased_behind_pipe :
    ∃ volume first after last, groupedLayout.Fits volume ∧
      groupedLayout.Linear volume.image (groupedLayout.nodeOn volume.image 2) [6]
        pipeNamedSlots ∧
      forEach collect (groupedLayout.nodeOn volume.image 2) [] volume =
        .error .corrupt first ∧
      eraseDirectoryEntry (groupedLayout.nodeOn volume.image 2) (6 * 1024 + 36) volume =
        .ok () after ∧
      forEach collect (groupedLayout.nodeOn volume.image 2) [] after =
        .error .corrupt last := by
  have sample : mountsGrouped pipeNamed (fun volume =>
      corrupts (forEach collect (groupedLayout.nodeOn volume.image 2) [] volume) &&
      yields (eraseDirectoryEntry (groupedLayout.nodeOn volume.image 2) (6 * 1024 + 36)
        volume) () fun after =>
        corrupts (forEach collect (groupedLayout.nodeOn volume.image 2) [] after)) = true := by
    decide +kernel
  obtain ⟨volume, fits, device, checks⟩ := fits_of_mountsGrouped rfl sample
  rw [Bool.and_eq_true] at checks
  obtain ⟨first, before⟩ := exists_of_corrupts checks.1
  obtain ⟨after, erased, stops⟩ := yields_iff.mp checks.2
  obtain ⟨last, behind⟩ := exists_of_corrupts stops
  refine ⟨volume, first, after, last, fits, ?_, before, erased, behind⟩
  rw [Volume.image, device]
  exact linear_pipeNamed

end Mikos.Ext4
