import Mikos.Process.Calls

/-!
# What `openat` does

It fails at once, fails after it has created or cut the file, or sets up a descriptor.
-/

namespace Mikos.Process
open Library

/-- A descriptor has the access mode of the flags, if it is one of a file. -/
def HasMode (flags : UInt32) (descriptor : Descriptor) : Prop :=
  ∀ inode type, descriptor.node = .filesystem inode type → descriptor.flags &&& 3 = flags &&& 3

namespace Running

/-- The names that `openat` opens without a look at the file system. -/
def PtyName (canonical : Text) : Prop :=
  canonical = ptmxPath ∨ canonical = ttyPath ∨ (Path.numberedSuffix canonical ptsStem 4).isSome

/-- The file behind a node. -/
def PathNode.stored : PathNode → Option FileNode
  | .file node => node
  | _ => .none

section Outcomes
variable (machine : Machine) (running : Running) (moment : Moment) (node : PathNode)
  (canonical : Text) (flags : UInt32)

/-- The flags do not suit the node, or the file system does not cut it. -/
def Unsuited : Prop :=
  flags &&& 0x10000 ≠ 0 ∧ node.directory = false ∨
    flags &&& 0x200 ≠ 0 ∧
      ((∃ pseudo, node = .pseudo pseudo) ∨ node.directory = true ∨ moment.truncated = false)

/-- `openat` creates a file, or cuts one that is not empty, and only then finds that it has no
descriptor for it, or that the flags do not suit the new file. -/
def Spoils : Prop :=
  ¬ PtyName canonical ∧
    match node with
    | .none =>
      flags &&& 0x40 ≠ 0 ∧ machine.mounted canonical = false ∧
        ∃ file, moment.created = some file ∧
          (Unsuited moment (.file file) flags ∨ running.descriptors.firstClosed 3 = none)
    | .file file =>
      ¬ (flags &&& 0x40 ≠ 0 ∧ flags &&& 0x80 ≠ 0) ∧ flags &&& 0x200 ≠ 0 ∧ 0 < file.size ∧
        ¬ Unsuited moment (.file file) flags ∧ running.descriptors.firstClosed 3 = none
    | _ => False

/-- `openat` opens a pseudo-terminal. -/
def OpensTerminal : Prop :=
  PtyName canonical ∧ running.descriptors.firstClosed 3 ≠ none ∧
    (running.ptyEnd canonical).1.1 = .success

/-- What `openNode` does.  Flags that do not suit the node are found before the file is cut. -/
inductive OpensNode : UInt32 × Running → Prop where
  | refused (value : Errno) (unsuited : Unsuited moment node flags) :
      OpensNode (running.fails value)
  | full (value : Errno) (suited : ¬ Unsuited moment node flags)
      (none : running.descriptors.firstClosed 3 = none) :
      OpensNode ((if flags &&& 0x200 ≠ 0 then running.truncate canonical node
        else (node, running)).2.fails value)
  | opened (files : Files) (slot : Fin 16) (file : Descriptor) (mode : HasMode flags file)
      (suited : ¬ Unsuited moment node flags) (free : running.descriptors.firstClosed 3 ≠ none) :
      OpensNode ({ running with files }.install slot file)

/-- What `openat` does with a path that was resolved to a node. -/
inductive Opens : UInt32 × Running → Prop where
  | refused (value : Errno) (early : ¬ Spoils machine running moment node canonical flags)
      (closed : ¬ OpensTerminal running canonical) : Opens (running.fails value)
  | abandoned (files : Files) (value : Errno)
      (late : Spoils machine running moment node canonical flags)
      (changed : files canonical ≠ node.stored) : Opens ({ running with files }.fails value)
  | opened (files : Files) (ptys : PtyTable) (slot : Fin 16) (file : Descriptor)
      (mode : HasMode flags file) (fine : ¬ Spoils machine running moment node canonical flags)
      (missing : flags &&& 0x40 ≠ 0 → flags &&& 0x80 ≠ 0 →
        OpensTerminal running canonical ∨ node = .none) :
      Opens ({ running with files, channels.ptys := ptys }.install slot file)

end Outcomes

variable {machine : Machine} {running : Running} {moment : Moment} {node : PathNode}
  {canonical : Text} {flags : UInt32}

theorem Spoils.cuts (spoils : Spoils machine running moment node canonical flags)
    (found : node ≠ .none) :
    ∃ file, node = .file file ∧ ¬ (flags &&& 0x40 ≠ 0 ∧ flags &&& 0x80 ≠ 0) ∧
      flags &&& 0x200 ≠ 0 ∧ 0 < file.size ∧ ¬ Unsuited moment node flags ∧
      running.descriptors.firstClosed 3 = none := by
  cases node with
  | none => exact absurd rfl found
  | file file => exact ⟨file, rfl, spoils.2⟩
  | _ => exact spoils.2.elim

theorem openPty_opens (named : PtyName canonical) :
    Opens machine running moment node canonical flags (running.openPty canonical flags) := by
  have fine : ¬ Spoils machine running moment node canonical flags := fun spoils => spoils.1 named
  rw [openPty]
  split
  next none => exact .refused _ fine fun opens => opens.2.1 none
  rename_i slot found
  have closed {status handle ptys} (attempted : running.ptyEnd canonical = ((status, handle), ptys))
      (failed : status ≠ .success) : ¬ OpensTerminal running canonical :=
    fun opens => failed (by rw [← opens.2.2, attempted])
  generalize attempted : running.ptyEnd canonical = attempt
  obtain ⟨⟨status, handle⟩, ptys⟩ := attempt
  cases status with
  | success =>
    refine .opened running.files ptys slot _ (fun inode type same => by cases same) fine
      fun _ _ => .inl ⟨named, by simp [found], by rw [attempted]⟩
  | badHandle
  | locked
  | noSpace => exact .refused _ fine (closed attempted (by decide))

theorem openNode_opens (running : Running) (moment : Moment) (node : PathNode) (canonical : Text)
    (flags : UInt32) :
    OpensNode running moment node canonical flags
      (running.openNode moment node canonical flags) := by
  unfold openNode
  refine iteInduction (fun unsuited => .refused _ (.inl unsuited)) fun open₁ =>
    iteInduction (fun unsuited => .refused _ (.inr ⟨unsuited.1, .inl ?_⟩)) fun open₂ =>
    iteInduction (fun unsuited => .refused _ (.inr ⟨unsuited.1, .inr (.inl unsuited.2)⟩)) fun open₃ =>
    iteInduction (fun failed => .refused _ (.inr ⟨failed.1, .inr (.inr failed.2)⟩)) fun open₄ => ?_
  · cases node with
    | pseudo node => exact ⟨node, rfl⟩
    | _ => cases unsuited.2
  have suited : ¬ Unsuited moment node flags := by
    rintro (directory | ⟨cuts, ⟨pseudo, rfl⟩ | directory | failed⟩)
    · exact open₁ directory
    · exact open₂ ⟨cuts, rfl⟩
    · exact open₃ ⟨cuts, directory⟩
    · exact open₄ ⟨cuts, failed⟩
  have cut : ∃ files, (if flags &&& 0x200 ≠ 0 then running.truncate canonical node
      else (node, running)).2 = { running with files } := by
    split
    · cases node <;> exact ⟨_, rfl⟩
    · exact ⟨_, rfl⟩
  have full := @OpensNode.full running moment node canonical flags
  generalize (if flags &&& 0x200 ≠ 0 then running.truncate canonical node else (node, running)) =
    result at cut full ⊢
  obtain ⟨after, _⟩ := result
  obtain ⟨files, rfl⟩ := cut
  dsimp only
  split
  next none => exact full _ suited none
  rename_i slot free
  refine .opened files slot _ (fun _ _ _ => ?_) suited (by simp [free])
  rw [UInt32.and_assoc]
  rfl

theorem stored_of_pathNodeFrom
    (found : running.pathNodeFrom machine address base = (.file file, canonical)) :
    running.files canonical = some file := by
  rw [pathNodeFrom] at found
  split at found
  · cases found
  split at found
  · cases found
  dsimp only at found
  split at found <;> cases found
  assumption

theorem stored_of_pathNodeAt
    (found : running.pathNodeAt machine descriptor address = (.file file, canonical)) :
    running.files canonical = some file := by
  rw [pathNodeAt] at found
  split at found
  · cases found
  split at found
  · exact stored_of_pathNodeFrom found
  split at found
  · dsimp only at found
    split at found
    · cases found
    · exact stored_of_pathNodeFrom found
  · cases found

theorem openat_opens (machine : Machine) (running : Running) (moment : Moment)
    (descriptor path flags : UInt32) :
    Opens machine running moment (running.pathNodeAt machine descriptor path.toNat).1
      (running.pathNodeAt machine descriptor path.toNat).2 flags
      (running.openat machine moment descriptor path flags) := by
  have stored : ∀ file, (running.pathNodeAt machine descriptor path.toNat).1 = .file file →
      running.files (running.pathNodeAt machine descriptor path.toNat).2 = some file :=
    fun file found => stored_of_pathNodeAt (Prod.ext found rfl)
  rw [openat]
  generalize running.pathNodeAt machine descriptor path.toNat = resolved at stored ⊢
  obtain ⟨node, canonical⟩ := resolved
  dsimp only at stored ⊢
  split
  next named => exact openPty_opens named
  rename_i unnamed
  have closed : ¬ OpensTerminal running canonical := fun opens => unnamed opens.1
  split
  · refine iteInduction (fun none => .refused _ (fun spoils => spoils.2.1 none) closed)
      fun creates => ?_
    refine iteInduction (fun mounted => .refused _ (fun spoils => ?_) closed) fun mounted => ?_
    · simp [mounted, Spoils] at spoils
    rw [Bool.not_eq_true] at mounted
    split
    next failed =>
      refine .refused _ (fun spoils => ?_) closed
      obtain ⟨-, -, -, file, created, -⟩ := spoils
      cases failed.symm.trans created
    rename_i file created
    have opens := openNode_opens
      { running with files := Function.update running.files canonical file }
      moment (.file file) canonical flags
    generalize openNode .. = outcome at opens ⊢
    cases opens with
    | refused value unsuited =>
      refine .abandoned _ value ⟨unnamed, creates, mounted, file, created, .inl unsuited⟩ ?_
      simp [PathNode.stored]
    | full value suited none =>
      have late : Spoils machine running moment .none canonical flags :=
        ⟨unnamed, creates, mounted, file, created, .inr none⟩
      split
      · exact .abandoned _ value late (by simp [PathNode.stored])
      · exact .abandoned _ value late (by simp [PathNode.stored])
    | opened files slot descriptor mode suited free =>
      refine .opened files _ slot descriptor mode ?_ fun _ _ => .inr rfl
      rintro ⟨-, -, -, other, isOther, unsuited | none⟩
      · cases created.symm.trans isOther
        exact suited unsuited
      · exact free none
  rename_i other
  refine iteInduction (fun exclusive => .refused _ (fun spoils => ?_) closed) fun shared => ?_
  · obtain ⟨-, -, shared, -⟩ := spoils.cuts other
    exact shared exclusive
  have opens := openNode_opens running moment node canonical flags
  generalize openNode .. = outcome at opens ⊢
  cases opens with
  | refused value unsuited =>
    refine .refused value (fun spoils => ?_) closed
    obtain ⟨-, -, -, -, -, suited, -⟩ := spoils.cuts other
    exact suited unsuited
  | full value suited none =>
    cases node with
    | file file =>
      by_cases cuts : flags &&& 0x200 ≠ 0
      · rw [if_pos cuts]
        rcases Nat.eq_zero_or_pos file.size with empty | some
        · have kept : (running.truncate canonical (.file file)).2 = running := by
            rw [truncate, ← empty]
            dsimp only
            rw [← stored file rfl, Function.update_eq_self]
          rw [kept]
          exact .refused value (fun spoils => Nat.ne_of_gt spoils.2.2.2.1 empty) closed
        · refine .abandoned _ value ⟨unnamed, shared, cuts, some, suited, none⟩ fun same => ?_
          have size := congrArg (Option.map FileNode.size) same
          simp only [PathNode.stored, Function.update_self, Option.map_some, Option.some.injEq]
            at size
          exact Nat.ne_of_lt some size
      · rw [if_neg cuts]
        exact .refused value (fun spoils => cuts spoils.2.2.1) closed
    | none => exact absurd rfl other
    | _ => split <;> exact .refused value And.right closed
  | opened files slot descriptor mode suited free =>
    refine .opened files _ slot descriptor mode (fun spoils => ?_) fun creates exclusive =>
      absurd ⟨creates, exclusive⟩ shared
    obtain ⟨-, -, -, -, -, -, none⟩ := spoils.cuts other
    exact free none

end Running
end Mikos.Process
