import Mikos.Process.Dispatch

/-!
# The suspended processes in the records

How the records change while the running process stays, and what a process takes from its record
when it goes on.
-/

namespace Mikos.Process
open Library Network List Suspended

theorem card_held_le (saved : SavedContext) (table : DescriptorTable) :
    (held saved table).card ≤ 1 := by
  rw [held]
  split <;> simp

namespace Suspended
variable {suspended : Suspended}

/-- The records apart from those of the parent. -/
def others (suspended : Suspended) : Multiset Holding :=
  suspended.parked +
    held suspended.interactiveChild.toSavedContext suspended.interactiveChildDescriptors +
    held suspended.interactiveParent.toSavedContext suspended.interactiveParentDescriptors +
    stacked suspended.nested

theorem occupied_eq (suspended : Suspended) :
    suspended.occupied =
      held suspended.parent.toSavedContext suspended.parentDescriptors + suspended.others := by
  rw [occupied, others]
  abel

theorem occupied_of_inactive (regular : suspended.parent.Regular)
    (idle : suspended.parent.active = false) : suspended.occupied = suspended.others := by
  rw [occupied_eq, held_of_invalid (regular.invalid idle), Multiset.zero_add]

/-- The process in the parent's record. -/
def parentHolding (suspended : Suspended) : Holding :=
  (suspended.parent.toSavedContext.quiet, suspended.parentDescriptors)

theorem occupied_of_active (regular : suspended.parent.Regular)
    (active : suspended.parent.active = true) :
    suspended.occupied = {suspended.parentHolding} + suspended.others := by
  rw [occupied_eq, held_of_valid (regular.valid.mp active)]
  rfl

theorem mem_parentHolding (regular : suspended.parent.Regular)
    (active : suspended.parent.active = true) : suspended.parentHolding ∈ suspended.occupied := by
  rw [occupied_of_active regular active]
  exact Multiset.mem_add.mpr (.inl (Multiset.mem_singleton_self _))

theorem others_parent (parent : SuspendedParent) (table : DescriptorTable) :
    { suspended with parent, parentDescriptors := table }.others = suspended.others := rfl

/-- Without a parked process the other records do not depend on the background one. -/
theorem others_background {background : ParkedBackground} (before : ¬ suspended.background.Parked)
    (after : ¬ background.Parked) : { suspended with background }.others = suspended.others := by
  simp only [others, parked, if_neg before, if_neg after]

theorem parked_of_ne_zero (nonzero : suspended.parked ≠ 0) : suspended.background.Parked := by
  by_contra nobody
  exact nonzero (if_neg nobody)

/-- Writing over the background record loses the process that is parked there. -/
theorem occupied_background_lost {background : ParkedBackground} (after : ¬ background.Parked) :
    { suspended with background }.occupied + suspended.parked = suspended.occupied := by
  have nobody : { suspended with background }.parked = 0 := if_neg after
  rw [occupied, nobody, occupied]
  abel

/-- The record of the interactive child is cleared. -/
theorem occupied_childless (suspended : Suspended) (table : DescriptorTable) :
    suspended.occupied =
      held suspended.interactiveChild.toSavedContext suspended.interactiveChildDescriptors +
        { suspended with
          interactiveChild := {}, interactiveChildDescriptors := table }.occupied := by
  have nothing : ¬ SnapshotAllocation.Valid ({} : ParkedInteractiveChild).snapshot := by decide
  have same : { suspended with
      interactiveChild := {}, interactiveChildDescriptors := table }.parked = suspended.parked := rfl
  rw [occupied, occupied, same, held_of_invalid nothing]
  abel

theorem Orderly.childless (orderly : suspended.Orderly) (table : DescriptorTable) :
    { suspended with interactiveChild := {}, interactiveChildDescriptors := table }.Orderly :=
  have nobody : ({} : ParkedInteractiveChild).used = true ↔
    SnapshotAllocation.Valid ({} : ParkedInteractiveChild).snapshot := by decide
  { orderly with interactiveChild := nobody }

theorem interactiveParent_reinstateAncestor (context : Context) :
    (suspended.reinstateAncestor context).interactiveParent = suspended.interactiveParent := by
  rw [reinstateAncestor]
  split
  · rfl
  · rw [popAncestor]
    split <;> rfl

theorem card_stacked_le (nested : List (SuspendedParent × DescriptorTable)) :
    (stacked nested).card ≤ nested.length := by
  induction nested with
  | nil => simp [stacked]
  | cons ancestor nested ih =>
    have one := card_held_le ancestor.1.toSavedContext ancestor.2
    simp only [stacked, map_cons, sum_cons, Multiset.card_add, length_cons] at ih ⊢
    omega

theorem card_others_le (orderly : suspended.Orderly) :
    suspended.others.card ≤ 3 + nestedAncestorCapacity := by
  have parked : suspended.parked.card ≤ 1 := by
    rw [parked]
    split <;> simp
  have nested := (card_stacked_le suspended.nested).trans orderly.depth
  have child := card_held_le suspended.interactiveChild.toSavedContext
    suspended.interactiveChildDescriptors
  have parent := card_held_le suspended.interactiveParent.toSavedContext
    suspended.interactiveParentDescriptors
  rw [others]
  simp only [Multiset.card_add]
  omega

end Suspended

/-- The snapshot of a process that was just saved is not in user memory. -/
theorem SavedAs.not_user (savedAs : SavedAs machine context stack before taken record arena memory)
    (within : record.snapshot.Contains address) : ¬ UserAddress address := by
  have range := savedAs.owned.bounds (Multiset.mem_cons_self ..)
  rw [Span.Contains] at within
  rw [UserAddress]
  omega

namespace Kernel
variable {machine : Machine} {kernel kernel' : Kernel} {outcome : Outcome}

/-! ## Quiet moves -/

/-- The effect of quiet moves. -/
structure Settled (kernel kernel' : Kernel) (lost : Multiset Holding) : Prop where
  occupied : kernel'.suspended.occupied + lost = kernel.suspended.occupied
  lost : lost ≠ 0 → kernel.suspended.background.Parked
  parked : kernel'.suspended.background.Parked → kernel.suspended.background.Parked
  orderly : kernel'.suspended.Orderly
  arena : kernel'.arena = kernel.arena
  context : Ordinary kernel.context kernel'.context
  memory : ∀ address, ¬ UserAddress address → kernel'.memory address = kernel.memory address
  replaced : kernel'.imageReplaced = kernel.imageReplaced
  active : kernel'.suspended.parent.active = kernel.suspended.parent.active

theorem Settled.of_same (orderly : kernel.suspended.Orderly)
    (suspended : kernel'.suspended = kernel.suspended) (arena : kernel'.arena = kernel.arena)
    (context : Ordinary kernel.context kernel'.context)
    (memory : ∀ address, ¬ UserAddress address → kernel'.memory address = kernel.memory address)
    (replaced : kernel'.imageReplaced = kernel.imageReplaced) : Settled kernel kernel' 0 := by
  refine ⟨?_, (absurd rfl ·), ?_, ?_, arena, context, memory, replaced, ?_⟩ <;>
    rw [suspended]
  · rw [Multiset.add_zero]
  · exact id
  · exact orderly

theorem Settled.refl (orderly : kernel.suspended.Orderly) : Settled kernel kernel 0 :=
  .of_same orderly rfl rfl (.refl _) (fun _ _ => rfl) rfl

theorem Settled.trans {lost lost' : Multiset Holding} (first : Settled kernel between lost)
    (second : Settled between kernel' lost') : Settled kernel kernel' (lost' + lost) where
  occupied := by rw [← add_assoc, second.occupied, first.occupied]
  lost nonzero := by
    by_cases none : lost' = 0
    · rw [none, Multiset.zero_add] at nonzero
      exact first.lost nonzero
    · exact first.parked (second.lost none)
  parked := first.parked ∘ second.parked
  orderly := second.orderly
  arena := second.arena.trans first.arena
  context := first.context.trans second.context
  memory address outside := (second.memory address outside).trans (first.memory address outside)
  replaced := second.replaced.trans first.replaced
  active := second.active.trans first.active

/-- Records other than those of the parent and the background one are left alone. -/
theorem Settled.of_suspendRefused (orderly : kernel.suspended.Orderly)
    (idle : kernel.suspended.parent.active = false) (refused : SuspendRefused kernel kernel') :
    Settled kernel kernel' 0 := by
  obtain ⟨inactive', regular⟩ := refused
  refine ⟨?_, (absurd rfl ·), id, { orderly with parent := regular }, rfl,
    .refl _, fun _ _ => rfl, rfl, inactive'.trans idle.symm⟩
  rw [Multiset.add_zero, occupied_of_inactive orderly.parent idle,
    occupied_of_inactive regular inactive', others_parent]

theorem Attempt.settled (orderly : kernel.suspended.Orderly)
    (attempt : Attempt machine kernel kernel') : ∃ lost, Settled kernel kernel' lost := by
  cases attempt with
  | channels => exact ⟨0, .of_same orderly rfl rfl (.refl _) (fun _ _ => rfl) rfl⟩
  | parksBackground refused =>
    cases refused with
    | stays => exact ⟨0, .refl orderly⟩
    | refused free snapshot =>
      -- the record is no longer in use, whatever it held
      have nobody : ∀ background : ParkedBackground, background.used = false →
          ¬ background.Parked := by
        rintro background unused ⟨used, -⟩
        rw [unused] at used
        cases used
      refine ⟨kernel.suspended.parked, ?_, parked_of_ne_zero,
        fun parked => absurd parked (nobody _ rfl),
        { orderly with background := fun used => (Bool.false_ne_true used).elim }, rfl, .refl _,
        fun _ _ => rfl, rfl, rfl⟩
      exact occupied_background_lost (nobody _ rfl)
  | parksInteractive refused =>
    cases refused with
    | stays => exact ⟨0, .refl orderly⟩
    | refused unused =>
      have empty : ¬ SnapshotAllocation.Valid kernel.suspended.interactiveChild.snapshot := by
        rw [← orderly.interactiveChild, unused]
        decide
      have same := occupied_childless kernel.suspended kernel.suspended.interactiveChildDescriptors
      rw [held_of_invalid empty, Multiset.zero_add] at same
      exact ⟨0, (Multiset.add_zero _).trans same.symm, (absurd rfl ·), id, orderly.childless _, rfl,
        .refl _, fun _ _ => rfl, rfl, rfl⟩
  | resumesBackground refused
  | resumesInteractive refused =>
    cases refused with
    | stays => exact ⟨0, .refl orderly⟩
    | refused ready idle refuses => exact ⟨0, .of_suspendRefused orderly idle refuses⟩

theorem quiet_queue (saved : SavedContext) (signal : Nat) :
    { saved with signals := saved.signals.queue signal }.quiet = saved.quiet := by
  rw [SavedContext.quiet, SavedContext.quiet, SignalState.queue]
  split <;> rfl

theorem Quiet.settled (orderly : kernel.suspended.Orderly) (quiet : Quiet machine kernel kernel') :
    ∃ lost, Settled kernel kernel' lost := by
  cases quiet with
  | attempt attempt => exact attempt.settled orderly
  | runs move => exact ⟨0, .of_same orderly rfl rfl move.context move.outside rfl⟩
  | @signalsParent signal =>
    refine ⟨0, ?_, (absurd rfl ·), id,
      { orderly with parent := ⟨orderly.parent.saved, orderly.parent.valid⟩ }, rfl, .refl _,
      fun _ _ => rfl, rfl, rfl⟩
    have same := quiet_queue kernel.suspended.parent.toSavedContext signal
    rw [Multiset.add_zero, occupied_eq, occupied_eq]
    refine congrArg (· + kernel.suspended.others) ?_
    simp only [held, same]

theorem Quiets.settled (orderly : kernel.suspended.Orderly)
    (quiets : Quiets machine kernel kernel') : ∃ lost, Settled kernel kernel' lost := by
  induction quiets with
  | refl => exact ⟨0, .refl orderly⟩
  | tail _ quiet ih =>
    obtain ⟨lost, settled⟩ := ih
    obtain ⟨lost', settled'⟩ := quiet.settled settled.orderly
    exact ⟨_, settled.trans settled'⟩

/-! ## Loading programs -/

/-- Loading the files of a file system writes only user memory. -/
def LoadsInside (machine : Machine) (files : Files) : Prop :=
  ∀ path node, files path = some node → ∀ writableOnly memory address, ¬ UserAddress address →
    (loadExecutable machine files node writableOnly memory).2 address = memory address

/-- Only the copy of a program that the interactive kernel carries could be loaded elsewhere. -/
theorem loadsInside_of_plain (machine : Machine) (files : Files)
    (plain : machine.interactive = false ∨ files dropbearPath = none) :
    LoadsInside machine files := by
  intro path node file writableOnly memory address outside
  rw [loadExecutable, if_neg, loadImage_outside node outside]
  rintro ⟨interactive, same⟩
  rcases plain with plain | missing
  · rw [plain] at interactive
    cases interactive
  · rw [sameFile, missing] at same
    cases same

theorem restoreExecutableImage_outside (inside : LoadsInside machine files) (path : Text)
    (memory : Bytes) (outside : ¬ UserAddress address) :
    (restoreExecutableImage machine files path memory).2 address = memory address := by
  rw [restoreExecutableImage]
  split
  · rfl
  next node file => exact inside path node file false memory address outside

theorem Executes.outside (inside : LoadsInside machine kernel.files)
    (admissible : Admissible arguments) (admissible' : Admissible environment)
    (executes : Executes machine kernel path arguments environment result)
    (outside : ¬ UserAddress address) : result.2.memory address = kernel.memory address := by
  cases executes with
  | unchanged => rfl
  | @unloaded node memory file loaded
  | @large node image memory file loaded high =>
    have same := inside path node file (sameFile kernel.files busyboxPath node) kernel.memory
      address outside
    rwa [loaded] at same
  | @replaced node image memory mmapBegin tag file loaded mapped fits =>
    have same := inside path node file (sameFile kernel.files busyboxPath node) kernel.memory
      address outside
    rw [loaded] at same
    obtain ⟨low, high, stack⟩ := makeInitialStack_spec admissible admissible' image memory
    have bottom : userBegin + 0x2000 ≤ userStackTop := by decide
    have top : userStackTop ≤ userEnd := by decide
    rw [UserAddress] at outside
    rw [← same]
    exact stack address (by omega)

/-! ## Suspending the running process -/

section Suspending
variable {leaked : Multiset SnapshotAllocation} {stack childPid : Nat}

/-- The running process in the parent's record, with its bytes in its snapshot. -/
structure SuspendedAs (machine : Machine) (kernel : Kernel) (stack childPid : Nat)
    (leaked : Multiset SnapshotAllocation) (record : SavedContext) (kernel' : Kernel) : Prop where
  parent : kernel'.suspended.parent =
    { kernel.suspended.parent with
      toSavedContext := record, childPid, active := true, memorySaved := true }
  descriptors : kernel'.suspended.parentDescriptors = kernel.descriptors
  occupied : kernel'.suspended.occupied =
    {(record.quiet, kernel.descriptors)} + kernel.suspended.occupied
  stocked : Stocked machine kernel'.suspended kernel'.arena leaked
  savedAs : SavedAs machine kernel.context stack kernel.memory
    (ranges kernel.suspended.occupied + leaked) record kernel'.arena kernel'.memory

theorem Suspends.suspendedAs (stocked : Stocked machine kernel.suspended kernel.arena leaked)
    (bounded : Bounded kernel.context) (idle : kernel.suspended.parent.active = false)
    (suspends : Suspends machine kernel stack childPid kernel') :
    ∃ record, SuspendedAs machine kernel stack childPid leaked record kernel' := by
  have orderly := stocked.orderly
  cases suspends with
  | @intro record arena memory saves =>
    have savedAs := savedAs_of_saveMemory stocked.owned rfl saves
    generalize placed : { kernel.suspended.parent with
      toSavedContext := record, childPid, active := true, memorySaved := true } = parent
    have regular : parent.Regular := by
      rw [← placed]
      exact ⟨rfl, fun _ => savedAs.valid, fun _ => rfl⟩
    have occupied : { kernel.suspended with
        parent, parentDescriptors := kernel.descriptors }.occupied =
        {(record.quiet, kernel.descriptors)} + kernel.suspended.occupied := by
      rw [occupied_of_active regular (by rw [← placed]), others_parent,
        occupied_of_inactive orderly.parent idle, ← placed]
      rfl
    have orderly' : { kernel.suspended with
        parent, parentDescriptors := kernel.descriptors }.Orderly :=
      { orderly with parent := regular }
    have stocked' := stocked.insert orderly' savedAs bounded ((Multiset.add_zero _).trans occupied)
    rw [ranges_zero, Multiset.zero_add] at stocked'
    exact ⟨record, placed.symm, rfl, occupied, stocked', savedAs⟩

end Suspending

/-! ## Return to the parent -/

theorem retiredParent_regular (saved : kernel.suspended.parent.memorySaved = true)
    (status : UInt32) (childCompleted : Bool) :
    (kernel.retiredParent status childCompleted).Regular ∧
      (kernel.retiredParent status childCompleted).active = false := by
  have invalid := SnapshotAllocation.not_valid_invalid
  rw [retiredParent, saved]
  cases childCompleted <;>
    exact ⟨⟨rfl, fun active => (Bool.false_ne_true active).elim, fun valid => absurd valid invalid⟩,
      rfl⟩

/-- A memory in which a process can be put back: its snapshot was not touched. -/
def Staged (kernel : Kernel) (saved : SavedContext) (staged : Bytes) : Prop :=
  ∀ {before}, Stored saved kernel.memory before → Stored saved staged before

/-- The image of a process is loaded again, or it is that of the running process. -/
def Reloads (machine : Machine) (kernel : Kernel) (saved : SavedContext) (staged loaded : Bytes) :
    Prop :=
  restoreExecutableImage machine kernel.files saved.executablePath staged = (true, loaded) ∨
    (kernel.context.image = saved.image ∧ loaded = staged)

/-- A suspended process goes on with the bytes in its snapshot. -/
def Returned (machine : Machine) (kernel kernel' : Kernel) (holding : Holding) : Prop :=
  ∃ staged loaded, Staged kernel holding.1 staged ∧
    Reloads machine kernel holding.1 staged loaded ∧
    kernel'.memory = holding.1.restoreMemory loaded

theorem Reloads.outside (reloads : Reloads machine kernel saved staged loaded)
    (inside : LoadsInside machine kernel.files) (outside : ¬ UserAddress address) :
    loaded address = staged address := by
  rcases reloads with restores | ⟨-, rfl⟩
  · have same := restoreExecutableImage_outside inside saved.executablePath staged outside
    rwa [restores] at same
  · rfl

/-- A process that is put back changes only user memory. -/
theorem Reloads.restored (reloads : Reloads machine kernel saved staged loaded)
    (inside : LoadsInside machine kernel.files) (placed : Placed saved)
    (outside : ¬ UserAddress address) : saved.restoreMemory loaded address = staged address := by
  rw [Placed.restoreMemory_outside fun covered => outside (placed.user_of_covers covered)]
  exact reloads.outside inside outside

theorem Returned.earlier (returned : Returned machine between kernel' holding)
    (image : between.context.image = kernel.context.image) (files : between.files = kernel.files)
    (staged : Staged kernel holding.1 between.memory) :
    Returned machine kernel kernel' holding := by
  obtain ⟨later, loaded, stages, reloads, same⟩ := returned
  refine ⟨later, loaded, fun stored => stages (staged stored), ?_, same⟩
  rw [Reloads, ← files, ← image]
  exact reloads

/-- The parent goes on in place of the running process. -/
structure Adopts (machine : Machine) (kernel resumed : Kernel)
    (leaked : Multiset SnapshotAllocation) : Prop where
  stocked : Stocked machine resumed.suspended resumed.arena leaked
  idle : resumed.suspended.parent.active = false
  bounded : Bounded resumed.context
  memory : LoadsInside machine kernel.files → ∀ address, ¬ UserAddress address →
    resumed.memory address = kernel.memory address
  returned : Returned machine kernel resumed kernel.suspended.parentHolding

theorem adoptParent_adopts {arena : SnapshotArena}
    (stocked : Stocked machine kernel.suspended kernel.arena leaked)
    (active : kernel.suspended.parent.active = true)
    (loaded : kernel.reloadIfReplaced machine kernel.suspended.parent.toSavedContext = .ok memory)
    (freed : releaseSnapshot kernel.arena kernel.suspended.parent.snapshot = .ok arena)
    (status : UInt32) (childCompleted returnFromClone : Bool) :
    Adopts machine kernel
      (kernel.adoptParent machine memory arena status childCompleted returnFromClone) leaked := by
  have orderly := stocked.orderly
  have saved := orderly.parent.saved.trans active
  have placed := stocked.placed _ (mem_parentHolding orderly.parent active)
  obtain ⟨regular, idle⟩ := retiredParent_regular saved status childCompleted
  have occupied : kernel.suspended.occupied =
      {kernel.suspended.parentHolding} +
        { kernel.suspended with
          parent := kernel.retiredParent status childCompleted
          parentDescriptors := .closed }.occupied := by
    rw [occupied_of_active orderly.parent active, occupied_of_inactive regular idle]
    rfl
  have reloads : Reloads machine kernel kernel.suspended.parentHolding.1 kernel.memory memory :=
    (reloadIfReplaced_eq_ok.mp loaded).imp_left And.right
  rw [adoptParent_eq, saved]
  exact ⟨stocked.remove { orderly with parent := regular } freed occupied, idle,
    { placed.bounded with }, fun inside _ => reloads.restored inside placed,
    kernel.memory, memory, id, reloads, rfl⟩

theorem Returned.bytes (returned : Returned machine kernel kernel' holding)
    (placed : Placed holding.1)
    (below : holding.1.snapshot.address + holding.1.snapshot.size ≤ userBegin)
    (inside : LoadsInside machine kernel.files) (stored : Stored holding.1 kernel.memory before)
    (covered : holding.1.Covers address) : kernel'.memory address = before address := by
  obtain ⟨staged, loaded, stages, reloads, same⟩ := returned
  have kept : Stored holding.1 loaded before := by
    refine (stages stored).congr placed.room fun address within => reloads.outside inside ?_
    rw [Span.Contains] at within
    rw [UserAddress]
    omega
  rw [same, placed.restoreMemory_stored below kept, if_pos covered]

end Kernel
end Mikos.Process
