import Mikos.Process.FileCalls
import Mikos.Process.Opens

/-!
# Access modes

A file cannot be changed through a descriptor that was opened for reading only, as long as no
call gives the descriptor another mode; and what is in a file is returned through a descriptor
that was opened for writing only unless there is nothing to read at its offset.
-/

namespace Mikos.Process
open Library Network Function
variable {machine : Machine} {holder : Holder} {world : World} {table : DescriptorTable}

/-! ## What calls do to descriptors -/

/-- A call fails, or it sets up a descriptor and returns its number. -/
def SetsUp (table : DescriptorTable) (good : Fin 16 → Descriptor → Prop)
    (outcome : UInt32 × Running) : Prop :=
  (16 ≤ outcome.1.toNat ∧ outcome.2.descriptors = table) ∨
    ∃ slot descriptor, outcome.1 = UInt32.ofNat slot.val ∧
      outcome.2.descriptors = update table slot descriptor ∧ good slot descriptor

namespace Running
variable {running : Running} {moment : Moment} {good : Fin 16 → Descriptor → Prop}

theorem setsUp_fails (same : running.descriptors = table) (value : Errno) :
    SetsUp table good (running.fails value) :=
  .inl ⟨Nat.le_trans (by decide) (error_large value), same⟩

theorem setsUp_install (same : running.descriptors = table) (proper : good slot descriptor) :
    SetsUp table good (running.install slot descriptor) :=
  .inr ⟨slot, descriptor, rfl, by rw [install, same], proper⟩

theorem setsUp_ite [Decidable condition] (left : SetsUp table good first)
    (right : SetsUp table good second) :
    SetsUp table good (if condition then first else second) := by
  split
  · exact left
  · exact right

theorem openat_setsUp (directory path flags : UInt32) :
    SetsUp running.descriptors (fun _ => HasMode flags)
      (running.openat machine moment directory path flags) := by
  have opens := openat_opens machine running moment directory path flags
  generalize running.openat machine moment directory path flags = outcome at opens
  cases opens with
  | refused value
  | abandoned files value => exact setsUp_fails rfl value
  | opened files ptys slot file mode => exact setsUp_install rfl mode

theorem duplicateTo_setsUp (oldDescriptor newDescriptor : Nat) (flags : UInt32) :
    SetsUp running.descriptors (fun _ descriptor => ∃ inside : oldDescriptor < 16,
        descriptor = running.duplicateSource ⟨oldDescriptor, inside⟩)
      (running.duplicateTo machine oldDescriptor newDescriptor flags) := by
  rw [duplicateTo]
  split
  next inside =>
    dsimp only
    split
    · exact setsUp_fails rfl _
    split
    · exact setsUp_fails rfl _
    split
    · exact setsUp_fails rfl _
    next channels retained =>
      refine .inr ⟨⟨newDescriptor, inside.2⟩, _, rfl, ?_, inside.1, rfl⟩
      exact update_idem ..
  · exact setsUp_fails rfl _

theorem fcntl_duplicate_setsUp {command : UInt32} (duplicates : command = 0 ∨ command = 1030)
    (descriptor argument : UInt32) :
    SetsUp running.descriptors (fun _ source => ∃ inside : descriptor.toNat < 16,
        source = running.duplicateSource ⟨descriptor.toNat, inside⟩)
      (running.fcntl machine descriptor command argument) := by
  have others : ¬ (command = 1 ∨ command = 2) ∧ command ≠ 3 ∧ command ≠ 4 ∧
      ¬ (command ≠ 0 ∧ command ≠ 1030) := by
    rcases duplicates with rfl | rfl <;> decide
  rw [fcntl, if_neg others.1, if_neg others.2.1, if_neg others.2.2.1, if_neg others.2.2.2]
  refine setsUp_ite (setsUp_fails rfl _) ?_
  split
  · exact setsUp_fails rfl _
  · exact duplicateTo_setsUp ..

theorem fcntl_setFlags (descriptor argument : UInt32) :
    (running.fcntl machine descriptor 4 argument).2.descriptors =
      if inside : descriptor.toNat < 16 then
        if 3 ≤ descriptor.toNat ∧ (running.descriptors ⟨descriptor.toNat, inside⟩).node ≠ .none then
          update running.descriptors ⟨descriptor.toNat, inside⟩
            { running.descriptors ⟨descriptor.toNat, inside⟩ with flags := argument }
        else running.descriptors
      else running.descriptors := by
  rw [fcntl, if_neg (by decide), if_neg (by decide), if_pos rfl]
  split
  next inside =>
    split
    next standard => rw [if_neg (by omega)]
    rename_i other
    rw [descriptorOpen, dif_pos inside]
    by_cases closed : (running.descriptors ⟨descriptor.toNat, inside⟩).node = .none
    · simp [closed, other, fails]
    · simp [closed, other, Nat.not_lt.mp other]
  · rfl

theorem fcntl_others (duplicates : ¬ (command = 0 ∨ command = 1030)) (sets : command ≠ 4)
    (descriptor argument : UInt32) :
    (running.fcntl machine descriptor command argument).2.descriptors = running.descriptors := by
  rw [not_or] at duplicates
  rw [fcntl]
  split
  · split <;> rfl
  split
  · split
    · split
      · rfl
      · split <;> rfl
    · rfl
  · rfl

end Running

/-! ## Descriptors that were opened for reading only -/

/-- A descriptor of a regular file that was opened with a mode. -/
def Holder.OpenedWith (holder : Holder) (mode : UInt32) (slot : Fin 16) (inode : Nat) : Prop :=
  (holder.descriptors slot).node = .filesystem inode .regular ∧
    (holder.openings slot).flags &&& 3 = mode

/-- What was opened for reading only still has this mode. -/
def Holder.Marked (holder : Holder) : Prop :=
  ∀ slot inode, holder.OpenedWith 0 slot inode → (holder.descriptors slot).flags &&& 3 = 0

theorem toNat_ofNat_slot (slot : Fin 16) : (UInt32.ofNat slot.val).toNat = slot.val := by
  rw [UInt32.toNat_ofNat']
  exact Nat.mod_eq_of_lt (by omega)

section
variable (marked : holder.Marked)
include marked

theorem marked_of_setsUp (setsUp : SetsUp holder.descriptors good outcome)
    (proper : ∀ slot descriptor inode, good slot descriptor →
      descriptor.node = .filesystem inode .regular → opening.flags &&& 3 = 0 →
      descriptor.flags &&& 3 = 0) :
    (Holder.ofRunning outcome.2 (holder.opened outcome.1 opening)).Marked := by
  rintro slot inode ⟨node, mode⟩
  rcases setsUp with ⟨failed, same⟩ | ⟨target, descriptor, result, same, given⟩
  · rw [Holder.ofRunning, Holder.opened, dif_neg (Nat.not_lt.mpr failed)] at mode
    simp only [Holder.ofRunning, same] at node mode ⊢
    exact marked slot inode ⟨node, mode⟩
  have number : outcome.1.toNat = target.val := by rw [result, toNat_ofNat_slot]
  have inside : outcome.1.toNat < 16 := by rw [number]; exact target.isLt
  rw [Holder.ofRunning, Holder.opened, dif_pos inside] at mode
  have slotEq : (⟨outcome.1.toNat, inside⟩ : Fin 16) = target := Fin.ext number
  rw [slotEq] at mode
  simp only [Holder.ofRunning, same] at node mode ⊢
  by_cases own : slot = target
  · subst own
    rw [update_self] at node mode ⊢
    exact proper slot descriptor inode given node mode
  · rw [update_of_ne own] at node mode ⊢
    exact marked slot inode ⟨node, mode⟩

theorem Holder.Marked.openat (channels : Channels) (names : Files)
    (moment : Moment) (directory path flags : UInt32) :
    (holder.openat machine channels names moment directory path flags).2.1.Marked := by
  have setsUp := @Running.openat_setsUp machine (holder.running channels names) moment directory
    path flags
  refine marked_of_setsUp marked setsUp fun slot descriptor inode given node mode => ?_
  rw [given inode .regular node]
  exact mode

/-- A duplicate has the node, the flags and the origin of its source. -/
theorem Holder.Marked.duplicated
    (source : ∃ inside : old.toNat < 16, descriptor =
      (holder.running channels fun _ => none).duplicateSource ⟨old.toNat, inside⟩)
    (node : descriptor.node = .filesystem inode .regular)
    (mode : (holder.duplicated old).flags &&& 3 = 0) : descriptor.flags &&& 3 = 0 := by
  obtain ⟨inside, rfl⟩ := source
  rw [Running.duplicateSource] at node ⊢
  split at node
  · cases node
  rename_i first
  rw [if_neg first]
  split at node
  · cases node
  rename_i second
  rw [if_neg second]
  rw [Holder.duplicated, dif_pos ⟨Nat.not_lt.mp second, inside⟩] at mode
  exact marked ⟨old.toNat, inside⟩ inode ⟨node, mode⟩

theorem Holder.Marked.dup3 (channels : Channels) (oldDescriptor newDescriptor flags : UInt32) :
    (holder.dup3 machine channels oldDescriptor newDescriptor flags).2.1.Marked := by
  have setsUp := @Running.duplicateTo_setsUp machine (holder.running channels fun _ => none)
    oldDescriptor.toNat newDescriptor.toNat flags
  exact marked_of_setsUp marked setsUp fun slot descriptor inode given node mode =>
    marked.duplicated given node mode

end

/-- A call gives no descriptor that was opened for reading only another mode, and asks for no
data through one that was opened for writing only, where there is some. -/
def Holder.Keeps (holder : Holder) : FileCall → Prop
  | .fcntl descriptor command argument => command = 4 → ∀ slot inode,
      3 ≤ slot.val → slot.val = descriptor.toNat → holder.OpenedWith 0 slot inode →
      argument &&& 3 = 0
  | .read _ _ descriptor address size => ∀ slot inode,
      holder.descriptors.slot descriptor.toNat = some slot → holder.OpenedWith 1 slot inode →
      ¬ (UserContains address.toNat size.toNat ∧ 0 < size.toNat ∧
        (holder.descriptors slot).offset < holder.nodeSize slot)
  | _ => True

theorem Holder.Marked.fcntl (marked : holder.Marked) (channels : Channels)
    (keeps : holder.Keeps (.fcntl descriptor command argument)) :
    (holder.fcntl machine channels descriptor command argument).2.1.Marked := by
  rw [Holder.fcntl]
  dsimp only
  by_cases duplicates : command = 0 ∨ command = 1030
  · rw [if_pos duplicates]
    have setsUp := @Running.fcntl_duplicate_setsUp machine (holder.running channels fun _ => none)
      command duplicates descriptor argument
    exact marked_of_setsUp marked setsUp fun slot source inode given node mode =>
      marked.duplicated given node mode
  rw [if_neg duplicates]
  rintro slot inode ⟨node, mode⟩
  simp only [Holder.ofRunning] at node mode ⊢
  by_cases sets : command = 4
  · subst sets
    rw [Running.fcntl_setFlags] at node ⊢
    split at node
    next inside =>
      rw [dif_pos inside]
      split at node
      next isOpen =>
        rw [if_pos isOpen]
        by_cases own : slot = ⟨descriptor.toNat, inside⟩
        · subst own
          rw [update_self] at node ⊢
          exact keeps rfl _ inode isOpen.1 rfl ⟨node, mode⟩
        · rw [update_of_ne own] at node ⊢
          exact marked slot inode ⟨node, mode⟩
      next closed =>
        rw [if_neg closed]
        exact marked slot inode ⟨node, mode⟩
    next outside =>
      rw [dif_neg outside]
      exact marked slot inode ⟨node, mode⟩
  · rw [Running.fcntl_others duplicates sets] at node ⊢
    exact marked slot inode ⟨node, mode⟩

structure SameModes (before after : Holder) : Prop where
  node : ∀ slot, (after.descriptors slot).node = (before.descriptors slot).node
  flags : ∀ slot, (after.descriptors slot).flags = (before.descriptors slot).flags
  origin : ∀ slot, (after.openings slot).flags = (before.openings slot).flags

namespace SameModes
variable {before between after : Holder}

theorem refl (holder : Holder) : SameModes holder holder :=
  ⟨fun _ => rfl, fun _ => rfl, fun _ => rfl⟩

theorem trans (first : SameModes before between) (second : SameModes between after) :
    SameModes before after :=
  ⟨fun slot => (second.node slot).trans (first.node slot),
    fun slot => (second.flags slot).trans (first.flags slot),
    fun slot => (second.origin slot).trans (first.origin slot)⟩

theorem seek (slot : Fin 16) (offset : Nat) : SameModes holder (holder.seek slot offset) := by
  refine ⟨fun other => ?_, fun other => ?_, fun _ => rfl⟩ <;>
  · by_cases own : other = slot
    · subst own
      simp [Holder.seek]
    · simp [Holder.seek, own]

theorem resize (slot : Fin 16) (size : Nat) : SameModes holder (holder.resize slot size) := by
  refine ⟨fun _ => rfl, fun _ => rfl, fun other => ?_⟩
  by_cases own : other = slot
  · subst own
    simp [Holder.resize]
  · simp [Holder.resize, own]

theorem store (memory : Bytes) : SameModes holder { holder with memory } :=
  ⟨fun _ => rfl, fun _ => rfl, fun _ => rfl⟩

theorem marked (same : SameModes before after) (marked : before.Marked) : after.Marked := by
  rintro slot inode ⟨node, mode⟩
  rw [same.flags]
  exact marked slot inode ⟨(same.node slot).symm.trans node, by rw [← same.origin]; exact mode⟩

end SameModes

section
variable (data : Nat → FileData) (answer : Answer)

theorem sameModes_read (other : UInt32 × Bytes) (descriptor address size : UInt32) :
    SameModes holder (holder.read data answer other descriptor address size).2 := by
  rw [Holder.read]
  split
  · split
    · exact .refl _
    · split
      · exact .refl _
      · exact .store _
  rename_i slot found
  split
  · exact .refl _
  split
  · exact .refl _
  split
  next inode type node =>
    rw [Holder.readFile]
    split
    · exact .refl _
    split
    · exact .refl _
    · split
      · exact .refl _
      · exact (SameModes.store _).trans (.seek _ _)
  · exact .refl _
  · exact .refl _
  · exact .refl _
  · exact .store _

theorem sameModes_write (other : UInt32) (descriptor address size : UInt32) :
    SameModes holder (holder.write data answer other descriptor address size).2.1 := by
  rw [Holder.write]
  split
  · exact .refl _
  split
  · split <;> exact .refl _
  rename_i slot found
  split
  · exact .refl _
  next inode type node =>
    split
    · exact .refl _
    unfold Holder.writeFile
    dsimp only
    generalize (if (holder.descriptors slot).flags &&& 0x400 ≠ 0 then holder.nodeSize slot
      else (holder.descriptors slot).offset) = offset
    split
    · exact .seek _ _
    split
    · exact .seek _ _
    · split
      · exact (SameModes.seek _ _).trans (.resize _ _)
      · exact ((SameModes.seek _ _).trans (.resize _ _)).trans (.seek _ _)
  · exact .refl _
  · exact .refl _
  · exact .refl _

theorem sameModes_ftruncate (descriptor size : UInt32) :
    SameModes holder (holder.ftruncate data answer descriptor size).2.1 := by
  rw [Holder.ftruncate]
  split
  next inside =>
    dsimp only
    split
    next inode type node =>
      split
      · exact .refl _
      unfold Holder.truncateFile
      dsimp only
      split
      · exact .refl _
      split
      · exact .refl _
      split
      · exact .refl _
      · split <;> exact .resize _ _
    · exact .refl _
  · exact .refl _

end

/-! ## Runs -/

namespace World

/-- What was opened for reading only still has this mode, in every process. -/
def Marked (world : World) : Prop :=
  ∀ pid holder, world.holders pid = some holder → holder.Marked

/-- No regular file can be changed through a descriptor that was opened for reading only. -/
def Guarded (world : World) : Prop :=
  ∀ pid holder descriptor slot inode, world.holders pid = some holder →
    holder.descriptors.slot descriptor = some slot → holder.OpenedWith 0 slot inode →
    (∀ answer other (number address size : UInt32), number.toNat = descriptor →
      (holder.write world.data answer other number address size).2.2 = world.data) ∧
    ∀ answer (number size : UInt32), number.toNat = descriptor →
      (holder.ftruncate world.data answer number size).2.2 = world.data

/-- No call returns what is in a regular file through a descriptor that was opened for writing
only. -/
def Discreet (world : World) (holder : Holder) : FileCall → Prop
  | .read _ other descriptor address size => ∀ slot inode,
      holder.descriptors.slot descriptor.toNat = some slot → holder.OpenedWith 1 slot inode →
      ∀ answer, (holder.read world.data answer other descriptor address size).1 = 0 ∨
        2 ^ 31 ≤ (holder.read world.data answer other descriptor address size).1.toNat
  | _ => True

section
variable (marked : world.Marked)
include marked

theorem Marked.put (own : holder.Marked) : (world.put pid holder).Marked := by
  intro other owner found
  simp only [World.put] at found
  by_cases same : other = pid
  · subst same
    rw [update_self] at found
    cases found
    exact own
  · rw [update_of_ne same] at found
    exact marked other owner found

theorem Marked.congr {after : World} (same : after.holders = world.holders) : after.Marked := by
  intro pid holder found
  rw [same] at found
  exact marked pid holder found

theorem Marked.perform (present : world.holders pid = some holder) (keeps : holder.Keeps call) :
    (world.perform machine pid holder call).2.Marked := by
  have own := marked pid holder present
  cases call with
  | openat names data moment directory path flags =>
    exact Marked.put (marked.congr rfl) (own.openat _ names moment directory path flags)
  | fcntl descriptor command argument => exact Marked.put (marked.congr rfl) (own.fcntl _ keeps)
  | dup3 oldDescriptor newDescriptor flags =>
    exact Marked.put (marked.congr rfl) (own.dup3 _ oldDescriptor newDescriptor flags)
  | clone child =>
    rw [World.perform, World.clone]
    split
    · exact marked
    · split
      · exact Marked.put (marked.congr rfl) own
      · exact marked.congr rfl
  | read answer other descriptor address size =>
    exact Marked.put marked ((sameModes_read ..).marked own)
  | write answer other descriptor address size =>
    exact Marked.put (marked.congr rfl) ((sameModes_write ..).marked own)
  | ftruncate answer descriptor size =>
    exact Marked.put (marked.congr rfl) ((sameModes_ftruncate ..).marked own)

theorem Marked.guarded : world.Guarded := by
  intro pid holder descriptor slot inode present found opened
  have mode := marked pid holder present slot inode opened
  refine ⟨fun answer other number address size same => ?_, fun answer number size same => ?_⟩
  · rw [Holder.write]
    split
    · rfl
    rw [same, found]
    dsimp only
    rw [opened.1]
    dsimp only
    rw [if_pos (.inr mode)]
  rw [Holder.ftruncate]
  split
  next inside =>
    obtain rfl : slot = ⟨number.toNat, inside⟩ := by
      rw [DescriptorTable.slot] at found
      split at found
      · split at found
        · cases found
        · cases found
          exact Fin.ext same.symm
      · cases found
    dsimp only
    rw [opened.1]
    dsimp only
    rw [if_pos (.inr mode)]
  · rfl

end

/-- A world that was reached by calls that are allowed, from one in which nothing is open. -/
inductive Reached (machine : Machine) (Allowed : Holder → FileCall → Prop) : World → Prop where
  | start {world : World}
      (closed : ∀ pid holder, world.holders pid = some holder → holder.descriptors = .closed) :
      Reached machine Allowed world
  | step {world : World} {pid : Nat} {holder : Holder} (reached : Reached machine Allowed world)
      (present : world.holders pid = some holder) (call : FileCall)
      (allowed : Allowed holder call) :
      Reached machine Allowed (world.perform machine pid holder call).2

theorem Reached.marked (reached : Reached machine Holder.Keeps world) : world.Marked := by
  induction reached with
  | start closed =>
    rintro pid holder present slot inode ⟨node, -⟩
    rw [closed pid holder present] at node
    cases node
  | step reached present call keeps ih => exact ih.perform present keeps

end World

/-! ## Reading -/

/-- A read through a descriptor of a file returns data exactly if there is some. -/
theorem read_data_iff (found : holder.descriptors.slot descriptor.toNat = some slot)
    (node : (holder.descriptors slot).node = .filesystem inode .regular) :
    (∀ answer, (holder.read data answer other descriptor address size).1 = 0 ∨
        2 ^ 31 ≤ (holder.read data answer other descriptor address size).1.toNat) ↔
      ¬ (UserContains address.toNat size.toNat ∧ 0 < size.toNat ∧
        (holder.descriptors slot).offset < holder.nodeSize slot) := by
  have regular : (Node.filesystem inode FileType.regular).directory = false := rfl
  constructor
  · rintro silent ⟨inside, some, waiting⟩
    have bound := inside.2.2
    have result : (holder.read data (.done zeroBytes) other descriptor address size).1 =
        UInt32.ofNat
          (min (holder.nodeSize slot - (holder.descriptors slot).offset) size.toNat) := by
      rw [Holder.read, found]
      dsimp only
      rw [node, regular]
      simp only [Bool.false_eq_true, if_false, inside, not_true, Holder.readFile]
      rw [if_neg (Nat.not_le.mpr waiting)]
      simp
    have count := silent (.done zeroBytes)
    have small : userEnd - address.toNat < 2 ^ 31 := by
      have begin := inside.1
      simp only [userBegin, userEnd] at begin ⊢
      omega
    rw [result, ← UInt32.toNat_inj, UInt32.toNat_ofNat', Nat.mod_eq_of_lt (by omega)] at count
    simp only [UInt32.toNat_zero] at count
    omega
  intro nothing answer
  rw [Holder.read, found]
  dsimp only
  rw [node, regular]
  simp only [Bool.false_eq_true, if_false]
  split
  · exact .inr (error_failed _)
  rename_i inside
  rw [Holder.readFile]
  split
  · exact .inl rfl
  rename_i waiting
  cases answer with
  | failed left held => exact .inr (error_failed _)
  | done rest =>
    have none : size.toNat = 0 := by
      by_contra some
      exact nothing ⟨Classical.not_not.mp inside, Nat.pos_of_ne_zero some, Nat.not_le.mp waiting⟩
    left
    simp [none]

/-! ## Main result -/

namespace World

/-- After `F_SETFL` with another mode the file can be changed. -/
theorem not_guarded_of_setFlags (other : 3 ≤ slot.val) (same : slot.val = descriptor.toNat)
    (opened : holder.OpenedWith 0 slot inode) (mode : argument &&& 3 ≠ 0) :
    ¬ (world.perform machine pid holder (.fcntl descriptor 4 argument)).2.Guarded := by
  intro guarded
  have inside : descriptor.toNat < 16 := same ▸ slot.isLt
  obtain rfl : slot = ⟨descriptor.toNat, inside⟩ := Fin.ext same
  have isOpen : (holder.descriptors ⟨descriptor.toNat, inside⟩).node ≠ .none := by
    rw [opened.1]
    nofun
  have changed := @Running.fcntl_setFlags machine (holder.running world.channels fun _ => none)
    descriptor argument
  rw [dif_pos inside, if_pos ⟨other, isOpen⟩] at changed
  let later : Holder := (holder.fcntl machine world.channels descriptor 4 argument).2.1
  have table : later.descriptors = update holder.descriptors ⟨descriptor.toNat, inside⟩
      { holder.descriptors ⟨descriptor.toNat, inside⟩ with flags := argument } := changed
  have node : (later.descriptors ⟨descriptor.toNat, inside⟩).node = .filesystem inode .regular := by
    rw [table, update_self]
    exact opened.1
  have flags : (later.descriptors ⟨descriptor.toNat, inside⟩).flags = argument := by
    rw [table, update_self]
  have found : later.descriptors.slot descriptor.toNat = some ⟨descriptor.toNat, inside⟩ := by
    rw [DescriptorTable.slot, dif_pos inside,
      if_neg fun standard => Nat.not_lt.mpr other standard.1]
  have origin : later.OpenedWith 0 ⟨descriptor.toNat, inside⟩ inode := ⟨node, opened.2⟩
  -- A call of `ftruncate` to another size reaches the file system, which may change the file.
  let size : UInt32 := if (later.openings ⟨descriptor.toNat, inside⟩).size = 0 then 1 else 0
  let left : FileData := { size := (world.data inode).size + 1 }
  have unchanged := (guarded pid later descriptor.toNat _ inode (update_self ..) found
    origin).2 (.failed left 0) descriptor size rfl
  have reaches : (later.ftruncate world.data (.failed left 0) descriptor size).2.2 =
      update world.data inode left := by
    have refused : ¬ (descriptor.toNat < 3 ∨ argument &&& 3 = 0) := by
      rintro (standard | none)
      · exact Nat.not_lt.mpr other standard
      · exact mode none
    rw [Holder.ftruncate, dif_pos inside]
    dsimp only
    rw [node]
    dsimp only
    rw [flags, if_neg refused, Holder.truncateFile, if_neg (by decide)]
    dsimp only [size]
    by_cases empty : (later.openings ⟨descriptor.toNat, inside⟩).size = 0
    · simp [empty]
    · simp [empty, Ne.symm empty]
  have sizes := congrArg FileData.size (congrFun (reaches.symm.trans unchanged) inode)
  rw [update_self] at sizes
  exact absurd sizes (Nat.succ_ne_self _)

/-- In every run whose calls keep the modes of descriptors that were opened for reading only and
ask for no data through descriptors that were opened for writing only, no file can be changed
through one of the former and no data is returned through one of the latter; and each further
call keeps to that exactly if it meets this condition. -/
theorem access_modes_enforced (reached : Reached machine Holder.Keeps world) :
    world.Guarded ∧ ∀ pid holder call, world.holders pid = some holder →
      ((world.Discreet holder call ∧ (world.perform machine pid holder call).2.Guarded) ↔
        holder.Keeps call) := by
  have marked := reached.marked
  refine ⟨marked.guarded, fun pid holder call present => ⟨?_, fun keeps => ⟨?_, ?_⟩⟩⟩
  · rintro ⟨discreet, guarded⟩
    cases call with
    | fcntl descriptor command argument =>
      rintro rfl slot inode other same opened
      by_contra mode
      exact not_guarded_of_setFlags other same opened mode guarded
    | read answer other descriptor address size =>
      intro slot inode found opened
      exact (read_data_iff found opened.1).mp (discreet slot inode found opened)
    | _ => trivial
  · cases call with
    | read answer other descriptor address size =>
      intro slot inode found opened
      exact (read_data_iff found opened.1).mpr (keeps slot inode found opened)
    | _ => trivial
  · exact (marked.perform present keeps).guarded

/-! ## A file of one byte -/

/-- The results of a process's calls, one after the other. -/
def follow (machine : Machine) (pid : Nat) : List FileCall → World → List UInt32 × World
  | [], world => ([], world)
  | call :: rest, world =>
    match world.holders pid with
    | none => ([], world)
    | some holder =>
      let (result, world) := world.perform machine pid holder call
      let (results, world) := follow machine pid rest world
      (result :: results, world)

theorem Reached.follow (allowed : ∀ holder call, Allowed holder call) (calls : List FileCall)
    (reached : Reached machine Allowed world) :
    Reached machine Allowed (world.follow machine pid calls).2 := by
  induction calls generalizing world with
  | nil => exact reached
  | cons call rest ih =>
    rw [World.follow]
    cases present : world.holders pid with
    | none => exact reached
    | some holder => exact ih (reached.step present call (allowed holder call))

/-- The path `/a` stands in the memory of process 1, and the file has inode 7. -/
def oneFile : World where
  holders pid :=
    if pid = 1 then
      some { memory := splice zeroBytes userBegin 2 fun position => [0x2f, 0x61].getD position 0 }
    else none
  data _ := { size := 1, bytes := fun _ => 0x78 }

def openWith (mode : UInt32) : FileCall :=
  .openat (fun name => if name = text ['/', 'a'] then some { inode := 7, size := 1 } else none)
    oneFile.data {} 0 (UInt32.ofNat userBegin) mode

theorem oneFile_reached : Reached machine Allowed oneFile := by
  refine .start fun pid holder present => ?_
  simp only [oneFile] at present
  split at present
  · cases present
    rfl
  · cases present

/-- `fcntl` may set the append flag of a file opened for reading. -/
theorem access_modes_enforced_append :
    Reached {} Holder.Keeps (oneFile.follow {} 1 [openWith 0]).2 ∧
      (oneFile.follow {} 1 [openWith 0]).2.Guarded ∧
      ∃ holder, (oneFile.follow {} 1 [openWith 0]).2.holders 1 = some holder ∧
        holder.OpenedWith 0 3 7 ∧
        ((oneFile.follow {} 1 [openWith 0]).2.perform {} 1 holder
          (.fcntl 3 4 0x400)).2.Guarded := by
  have opened := @Reached.step {} Holder.Keeps oneFile 1 _ oneFile_reached rfl (openWith 0) trivial
  have reached : Reached {} Holder.Keeps (oneFile.follow {} 1 [openWith 0]).2 := opened
  have enforced := access_modes_enforced reached
  refine ⟨reached, enforced.1, _, rfl, ⟨by decide +kernel, by decide +kernel⟩, ?_⟩
  have keeps := enforced.2 1 _ (.fcntl 3 4 0x400) rfl
  exact (keeps.mpr fun _ _ _ _ _ _ => by decide).2

/-- A read returns what is in a file that was opened for writing only; and a file that was opened
for reading only is cut after `F_SETFL` has given the descriptor another mode. -/
theorem modes_evaded :
    (Reached {} (fun _ _ => True) (oneFile.follow {} 1 [openWith 1]).2 ∧
      (oneFile.follow {} 1
        [openWith 1, .read (.done zeroBytes) (0, zeroBytes) 3 (UInt32.ofNat userBegin) 1]).1
        = [3, 1] ∧
      ∃ holder, (oneFile.follow {} 1 [openWith 1]).2.holders 1 = some holder ∧
        holder.OpenedWith 1 3 7 ∧
        ¬ (oneFile.follow {} 1 [openWith 1]).2.Discreet holder
          (.read (.done zeroBytes) (0, zeroBytes) 3 (UInt32.ofNat userBegin) 1)) ∧
    (Reached {} (fun _ _ => True) (oneFile.follow {} 1 [openWith 0, .fcntl 3 4 2]).2 ∧
      (∃ holder, (oneFile.follow {} 1 [openWith 0, .fcntl 3 4 2]).2.holders 1 = some holder ∧
        holder.OpenedWith 0 3 7) ∧
      (oneFile.follow {} 1 [openWith 0, .fcntl 3 4 2, .ftruncate (.done zeroBytes) 3 0]).1 =
        [3, 0, 0] ∧
      ((oneFile.follow {} 1 [openWith 0, .fcntl 3 4 2]).2.data 7).size = 1 ∧
      ((oneFile.follow {} 1
        [openWith 0, .fcntl 3 4 2, .ftruncate (.done zeroBytes) 3 0]).2.data 7).size = 0) := by
  refine ⟨⟨oneFile_reached.follow (fun _ _ => trivial) _, by decide +kernel, _, rfl,
    ⟨by decide +kernel, by decide +kernel⟩, fun discreet => ?_⟩,
    ⟨oneFile_reached.follow (fun _ _ => trivial) _, ⟨_, rfl, by decide +kernel, by decide +kernel⟩,
      by decide +kernel, by decide +kernel, by decide +kernel⟩⟩
  exact absurd (discreet 3 7 (by decide +kernel) ⟨by decide +kernel, by decide +kernel⟩
    (.done zeroBytes)) (by decide +kernel)

end World
end Mikos.Process
