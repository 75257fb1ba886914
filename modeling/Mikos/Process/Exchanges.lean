import Mikos.Process.Stock

/-!
# Exchanges between the running process and the suspended ones

`clone` puts the running process into a record and `exit` takes one out.  A process is lost only
when the background record, in which it is parked, is written over.
-/

namespace Mikos.Process
open Library Network List Suspended
namespace Kernel
variable {machine : Machine} {kernel kernel' : Kernel} {outcome : Outcome}

/-- What a step does to the suspended processes: some join them, some leave them, and some are
lost.  The bytes of the others stay in their snapshots. -/
structure Exchanged (machine : Machine) (kernel kernel' : Kernel)
    (leaked : Multiset SnapshotAllocation) (entering leaving lost : Multiset Holding) : Prop where
  danger : lost ≠ 0 → kernel.suspended.background.Parked
  stocked : Stocked machine kernel'.suspended kernel'.arena (ranges lost + leaked)
  bounded : Bounded kernel'.context
  left : ∀ holding ∈ leaving, Returned machine kernel kernel' holding
  memory : LoadsInside machine kernel.files → ∀ address, ¬ UserAddress address →
    (∀ holding ∈ entering, ¬ holding.1.snapshot.Contains address) →
    kernel'.memory address = kernel.memory address
  stored : LoadsInside machine kernel.files → ∀ holding ∈ entering,
    Stored holding.1 kernel'.memory kernel.memory
  apart : ∀ allocation ∈ ranges kernel.suspended.occupied + leaked, ∀ holding ∈ entering,
    ∀ address, allocation.Contains address → ¬ holding.1.snapshot.Contains address

section Exchanging
variable {leaked : Multiset SnapshotAllocation} {lost : Multiset Holding}

/-- The snapshots of all suspended processes stay as they are. -/
theorem Exchanged.kept {entering leaving : Multiset Holding}
    (exchanged : Exchanged machine kernel kernel' leaked entering leaving lost)
    (stocked : Stocked machine kernel.suspended kernel.arena leaked)
    (inside : LoadsInside machine kernel.files) (mem : holding ∈ kernel.suspended.occupied)
    (stored : Stored holding.1 kernel.memory before) : Stored holding.1 kernel'.memory before :=
  stored.congr (stocked.placed _ mem).room fun address within =>
    exchanged.memory inside address (stocked.not_user mem within) fun new entered =>
      exchanged.apart _ (Stocked.mem_ranges mem leaked) new entered address within

section
variable (stocked : Stocked machine kernel.suspended kernel.arena leaked)
include stocked

/-- No process comes or goes, but some may be lost. -/
theorem Exchanged.of_lost (orderly : kernel'.suspended.Orderly)
    (occupied : kernel'.suspended.occupied + lost = kernel.suspended.occupied)
    (danger : lost ≠ 0 → kernel.suspended.background.Parked)
    (arena : kernel'.arena = kernel.arena) (bounded : Bounded kernel'.context)
    (memory : LoadsInside machine kernel.files → ∀ address, ¬ UserAddress address →
      kernel'.memory address = kernel.memory address) :
    Exchanged machine kernel kernel' leaked 0 0 lost where
  danger := danger
  stocked := by
    rw [arena]
    exact stocked.move orderly occupied
  bounded := bounded
  left := by simp
  memory inside address outside _ := memory inside address outside
  stored := by simp
  apart := by simp

theorem Settled.exchanged (bounded : Bounded kernel.context) (settled : Settled kernel kernel' lost) :
    Exchanged machine kernel kernel' leaked 0 0 lost :=
  .of_lost stocked settled.orderly settled.occupied settled.lost settled.arena
    (settled.context.bounded bounded) fun _ => settled.memory

theorem Exchanged.of_same (suspended : kernel'.suspended = kernel.suspended)
    (arena : kernel'.arena = kernel.arena) (bounded : Bounded kernel'.context)
    (memory : LoadsInside machine kernel.files → ∀ address, ¬ UserAddress address →
      kernel'.memory address = kernel.memory address) :
    Exchanged machine kernel kernel' leaked 0 0 0 :=
  .of_lost stocked (suspended ▸ stocked.orderly) (by simp [suspended])
    (absurd rfl ·) arena bounded memory

theorem Exchanged.of_hints
    (saved : kernel'.suspended.parent.toSavedContext = kernel.suspended.parent.toSavedContext)
    (active : kernel'.suspended.parent.active = kernel.suspended.parent.active)
    (memorySaved : kernel'.suspended.parent.memorySaved = kernel.suspended.parent.memorySaved)
    (suspended : kernel'.suspended = { kernel.suspended with parent := kernel'.suspended.parent })
    (arena : kernel'.arena = kernel.arena) (bounded : Bounded kernel'.context)
    (memory : ∀ address, ¬ UserAddress address → kernel'.memory address = kernel.memory address) :
    Exchanged machine kernel kernel' leaked 0 0 0 := by
  have orderly := stocked.orderly
  have orderly' : kernel'.suspended.Orderly := by
    rw [suspended]
    exact { orderly with parent := ⟨by rw [memorySaved, active]; exact orderly.parent.saved,
      by rw [active, saved]; exact orderly.parent.valid⟩ }
  have occupied : kernel'.suspended.occupied = kernel.suspended.occupied := by
    rw [suspended, occupied_eq, occupied_eq, saved]
    rfl
  exact .of_lost stocked orderly' ((Multiset.add_zero _).trans occupied)
    (absurd rfl ·) arena bounded fun _ => memory

end

section
variable {stack : Nat} {record : SavedContext} {arena : SnapshotArena} {memory : Bytes}
  (savedAs : SavedAs machine kernel.context stack kernel.memory
    (ranges kernel.suspended.occupied + leaked) record arena memory)
include savedAs

/-- An older process can be put back in the memory in which the running one was saved. -/
theorem staged_of_savedAs (stocked : Stocked machine kernel.suspended kernel.arena leaked)
    (older : holding ∈ kernel.suspended.occupied) : Staged kernel holding.1 memory :=
  fun {_} stored => stored.congr (stocked.placed _ older).room fun _ within =>
    savedAs.outside _ (savedAs.elsewhere (Stocked.mem_ranges older leaked) within)

/-- The running process joins the records, and another one may leave them. -/
theorem exchanged_of_savedAs (bounded : Bounded kernel.context) {leaving : Multiset Holding}
    (danger : lost ≠ 0 → kernel.suspended.background.Parked)
    (stocked : Stocked machine kernel'.suspended kernel'.arena (ranges lost + leaked))
    (bounded' : Bounded kernel'.context)
    (left : ∀ holding ∈ leaving, Returned machine kernel kernel' holding)
    (unchanged : LoadsInside machine kernel.files → ∀ address, ¬ UserAddress address →
      kernel'.memory address = memory address) :
    Exchanged machine kernel kernel' leaked {(record.quiet, kernel.descriptors)} leaving lost where
  danger := danger
  stocked := stocked
  bounded := bounded'
  left := left
  memory inside address outside elsewhere := (unchanged inside address outside).trans
    (savedAs.outside address (elsewhere _ (Multiset.mem_singleton_self _)))
  stored inside holding mem := by
    rw [Multiset.mem_singleton.mp mem]
    exact savedAs.stored.congr (savedAs.placed bounded).room fun address within =>
      unchanged inside address (savedAs.not_user within)
  apart allocation older holding mem address within := by
    rw [Multiset.mem_singleton.mp mem]
    exact savedAs.elsewhere older within

end

/-! ### `clone` -/

variable {flags stack childTid : UInt32}

theorem becomeChild_memory (accepts : CloneAccepts kernel.context.frame flags stack childTid)
    (forked : Kernel) (outside : ¬ UserAddress address) :
    (forked.becomeChild flags childTid).memory address = forked.memory address := by
  rw [becomeChild]
  dsimp only
  split
  next written =>
    have either : flags &&& (0x01000000 ||| 0x00200000) ≠ 0 := by
      intro none
      apply written
      have part : (0x01000000 : UInt32) = (0x01000000 ||| 0x00200000) &&& 0x01000000 := by decide
      rw [part, ← UInt32.and_assoc, none]
      decide
    exact Running.splice_user (accepts.2.2.2 either).1 le_rfl _ _ outside
  · rfl

section
variable (stocked : Stocked machine kernel.suspended kernel.arena leaked)
  (bounded : Bounded kernel.context)
include stocked bounded

/-- A refused `clone` may write over a parked process. -/
theorem clone_refused_exchanged {parent : SuspendedParent} {nextPid : Nat}
    (before : kernel.suspended.parent.active = false) (idle : parent.active = false)
    (regular : parent.Regular) : Exchanged machine kernel
      { kernel with
        channels
        nextPid
        suspended :=
          { kernel.suspended with
            parent, parentDescriptors := .closed }.reinstateAncestor kernel.context }
      leaked 0 0 kernel.suspended.overwritten := by
  have orderly := stocked.orderly
  have orderly' : { kernel.suspended with parent, parentDescriptors := .closed }.Orderly :=
    { orderly with parent := regular }
  have same : { kernel.suspended with parent, parentDescriptors := .closed }.occupied =
      kernel.suspended.occupied := by
    rw [occupied_of_inactive regular idle, occupied_of_inactive orderly.parent before]
    rfl
  have occupied := occupied_reinstateAncestor orderly' idle kernel.context
  rw [same] at occupied
  refine .of_lost stocked (orderly'.reinstateAncestor _) occupied (fun nonzero => ?_) rfl bounded
    fun _ _ _ => rfl
  rw [overwritten] at nonzero
  split at nonzero
  · exact absurd rfl nonzero
  · exact parked_of_ne_zero nonzero

theorem clone_refusedNested_exchanged {suspended : Suspended} {nextPid : Nat}
    (stacking : kernel.suspended.stackAncestor = some suspended) : Exchanged machine kernel
      { kernel with
        channels
        nextPid
        suspended.background :=
          (({} : Suspended).captureBackground kernel.context invalidSocket .none).background }
      leaked 0 0 0 := by
  have orderly := stocked.orderly
  have away : ¬ kernel.suspended.background.Parked := by
    rintro ⟨-, -, valid⟩
    rw [stackAncestor] at stacking
    split at stacking
    · cases stacking
    next fits =>
      simp only [not_or] at fits
      exact fits.2.2.2.1 valid
  have nobody : ¬ (({} : Suspended).captureBackground kernel.context invalidSocket
      .none).background.Parked := by
    rintro ⟨-, waits, -⟩
    cases waits
  have unparked : (({} : Suspended).captureBackground kernel.context invalidSocket
      .none).background.wait ≠ .socketRead := by
    intro waits
    cases waits
  generalize (({} : Suspended).captureBackground kernel.context invalidSocket .none).background =
    background at nobody unparked
  have occupied : { kernel.suspended with background }.occupied = kernel.suspended.occupied := by
    rw [occupied_eq, occupied_eq, others_background away nobody]
  exact .of_lost stocked { orderly with background := fun _ waits => absurd waits unparked }
    ((Multiset.add_zero _).trans occupied) (absurd rfl ·) rfl bounded
    fun _ _ _ => rfl

theorem forks_exchanged {suspended : Suspended}
    (accepts : CloneAccepts kernel.context.frame flags stack childTid)
    (room : kernel.CloneRoom suspended) (suspends : Suspends machine
      { kernel with suspended, nextPid := wrap 32 (kernel.nextPid + 1) }
      (cloneStack kernel.context.frame stack) kernel.nextPid forked) : ∃ record, SuspendedAs machine
        { kernel with suspended, nextPid := wrap 32 (kernel.nextPid + 1) }
        (cloneStack kernel.context.frame stack) kernel.nextPid leaked record forked ∧
      Exchanged machine kernel (forked.becomeChild flags childTid) leaked
        {(record.quiet, kernel.descriptors)} 0 0 := by
  obtain ⟨regular, idle⟩ := regular_of_room stocked.orderly.parent room
  have same : suspended.occupied = kernel.suspended.occupied := by
    rcases room with ⟨-, rfl⟩ | ⟨-, stacking⟩
    · rfl
    · exact occupied_stackAncestor stacking
  have orderly : suspended.Orderly := by
    rcases room with ⟨-, rfl⟩ | ⟨-, stacking⟩
    · exact stocked.orderly
    · exact stocked.orderly.stackAncestor stacking
  have stocked' := stocked.move orderly ((Multiset.add_zero _).trans same)
  rw [ranges_zero, Multiset.zero_add] at stocked'
  obtain ⟨record, suspendedAs⟩ := suspends.suspendedAs (by exact stocked') (by exact bounded)
    (by exact idle)
  have savedAs := suspendedAs.savedAs
  simp only [same] at savedAs
  refine ⟨record, suspendedAs, exchanged_of_savedAs savedAs bounded
    (absurd rfl ·) ?_ ?_ (by simp)
    fun _ _ => becomeChild_memory accepts forked⟩
  · rw [ranges_zero, Multiset.zero_add]
    exact suspendedAs.stocked
  · cases suspends
    exact { bounded with }

end

/-- A process has made a child, which runs in its place. -/
structure Forked (machine : Machine) (kernel kernel' : Kernel)
    (leaked : Multiset SnapshotAllocation) (record : SavedContext) : Prop where
  exchanged : Exchanged machine kernel kernel' leaked {(record.quiet, kernel.descriptors)} 0 0
  same : record.toContext = kernel.context
  stack : record.stackBegin =
    alignDown (cloneStack kernel.context.frame (kernel.context.frame.argument 1)) 16
  placed : Placed record
  parent : kernel'.suspended.parent.toSavedContext = record
  table : kernel'.suspended.parentDescriptors = kernel.descriptors
  active : kernel'.suspended.parent.active = true
  context : kernel'.context =
    { kernel.context with
      frame := kernel'.context.frame
      pid := kernel.nextPid
      parentPid := kernel.context.pid
      childTidAddress := kernel'.context.childTidAddress }
  files : kernel'.files = kernel.files

theorem forks_forked (sound : Stocked machine kernel.suspended kernel.arena leaked)
    (bounded : Bounded kernel.context) {suspended : Suspended}
    (accepts : CloneAccepts kernel.context.frame flags (kernel.context.frame.argument 1) childTid)
    (room : kernel.CloneRoom suspended) (suspends : Suspends machine
      { kernel with suspended, nextPid := wrap 32 (kernel.nextPid + 1) }
      (cloneStack kernel.context.frame (kernel.context.frame.argument 1)) kernel.nextPid forked) :
    ∃ record, Forked machine kernel (forked.becomeChild flags childTid) leaked record := by
  obtain ⟨record, suspendedAs, exchanged⟩ := forks_exchanged sound bounded accepts room suspends
  have savedAs := suspendedAs.savedAs
  have parent := suspendedAs.parent
  refine ⟨record, exchanged, savedAs.same, savedAs.stackBegin, savedAs.placed bounded, ?_,
    suspendedAs.descriptors, ?_, ?_, ?_⟩
  · rw [becomeChild, parent]
  · rw [becomeChild, parent]
  · rw [becomeChild, parent]
    have same : record.pid = kernel.context.pid := by rw [savedAs.same]
    cases suspends
    simp only [same]
  · cases suspends
    rfl

/-! ### `exit` -/

theorem leaving_memory (outside : ¬ UserAddress address) :
    kernel.leaving.memory address = kernel.memory address := by
  rw [leaving_eq]
  simp only [clearChildTid]
  split
  next given => exact Running.splice_user given.2 le_rfl _ _ outside
  · rfl

theorem leaving_staged (stocked : Stocked machine kernel.suspended kernel.arena leaked)
    (active : kernel.suspended.parent.active = true) :
    Staged kernel kernel.suspended.parentHolding.1 kernel.leaving.memory := by
  have mem := mem_parentHolding stocked.orderly.parent active
  exact fun {_} stored => stored.congr (stocked.placed _ mem).room fun address within =>
    leaving_memory (stocked.not_user mem within)

/-- A process that exits is no longer remembered as the background one, not even if another
process is parked there under its number. -/
theorem leaving_occupied (kernel : Kernel) :
    ∃ lost, kernel.leaving.suspended.occupied + lost = kernel.suspended.occupied ∧
      (lost ≠ 0 → kernel.suspended.background.Parked) ∧
      (kernel.leaving.suspended.background.Parked → kernel.suspended.background.Parked) := by
  by_cases own : kernel.suspended.background.used ∧
      kernel.context.pid = kernel.suspended.background.pid
  · have forgotten : kernel.leaving.suspended =
        { kernel.suspended with
          background := { kernel.suspended.background with used := false, wait := .none } } := by
      rw [leaving, forgetBackground, if_pos (by exact own)]
      rfl
    have nobody : ¬ ParkedBackground.Parked
        { kernel.suspended.background with used := false, wait := .none } := by
      rintro ⟨used, -⟩
      cases used
    refine ⟨kernel.suspended.parked, ?_, parked_of_ne_zero, fun parked => ?_⟩
    · rw [forgotten]
      exact occupied_background_lost nobody
    · rw [forgotten] at parked
      exact absurd parked nobody
  have same : kernel.leaving.suspended = kernel.suspended := by
    rw [leaving, forgetBackground, if_neg (by exact own)]
    rfl
  exact ⟨0, by rw [same, Multiset.add_zero], (absurd rfl ·),
    by rw [same]; exact id⟩

theorem leaving_background (background : kernel.suspended.background.used = true →
      kernel.suspended.background.wait = .socketRead →
      SnapshotAllocation.Valid kernel.suspended.background.snapshot) :
    kernel.leaving.suspended.background.used = true →
      kernel.leaving.suspended.background.wait = .socketRead →
      SnapshotAllocation.Valid kernel.leaving.suspended.background.snapshot := by
  rw [leaving, forgetBackground]
  split
  · exact fun used => (Bool.false_ne_true used).elim
  · exact background

theorem ends_exchanged (stocked : Stocked machine kernel.suspended kernel.arena leaked)
    (active : kernel.suspended.parent.active = true) {arena : SnapshotArena}
    (loaded : kernel.leaving.reloadIfReplaced machine kernel.suspended.parent.toSavedContext =
      .ok memory)
    (freed : releaseSnapshot kernel.arena kernel.suspended.parent.snapshot = .ok arena) :
    ∃ lost, Exchanged machine kernel
      (kernel.leaving.adoptParent machine memory arena status true true).reinstated leaked 0
      {kernel.suspended.parentHolding} lost := by
  obtain ⟨forgotten, occupied, danger, parked⟩ := leaving_occupied kernel
  have parent : kernel.leaving.suspended.parent = kernel.suspended.parent := by rw [leaving_eq]
  have table : kernel.leaving.suspended.parentDescriptors = kernel.suspended.parentDescriptors := by
    rw [leaving_eq]
  have arenaSame : kernel.leaving.arena = kernel.arena := by rw [leaving_eq]
  have files : kernel.leaving.files = kernel.files := by rw [leaving_eq]
  have orderly : kernel.leaving.suspended.Orderly := by
    have before := stocked.orderly
    have background := leaving_background before.background
    rw [leaving_eq] at background ⊢
    exact { before with background := background }
  have stocked' : Stocked machine kernel.leaving.suspended kernel.leaving.arena
      (ranges forgotten + leaked) := by
    rw [arenaSame]
    exact stocked.move orderly occupied
  rw [← parent] at active loaded
  rw [← arenaSame, ← parent] at freed
  have adopts := adoptParent_adopts stocked' active loaded freed status true true
  have holdingSame : kernel.leaving.suspended.parentHolding = kernel.suspended.parentHolding := by
    rw [parentHolding, parent, table]
    rfl
  have comesBack : Returned machine kernel _ _ := adopts.returned.earlier (by rw [leaving_eq]) files
    (by rw [holdingSame]; exact leaving_staged stocked (parent ▸ active))
  rw [holdingSame] at comesBack
  generalize returned : kernel.leaving.adoptParent machine memory arena status true true = resumed
    at adopts comesBack
  have reinstates := occupied_reinstateAncestor adopts.stocked.orderly adopts.idle resumed.context
  have background : resumed.suspended.background = kernel.leaving.suspended.background := by
    rw [← returned, adoptParent_eq]
  refine ⟨resumed.suspended.overwritten + forgotten, fun nonzero => ?_, ?_, adopts.bounded, ?_, ?_,
    by simp, by simp⟩
  · by_cases none : forgotten = 0
    · rw [none, Multiset.add_zero, overwritten] at nonzero
      split at nonzero
      · exact absurd rfl nonzero
      · exact parked (background ▸ parked_of_ne_zero nonzero)
    · exact danger none
  · rw [ranges_add, add_assoc]
    exact adopts.stocked.move (adopts.stocked.orderly.reinstateAncestor _) reinstates
  · intro holding mem
    rw [Multiset.mem_singleton.mp mem]
    exact comesBack
  · intro inside address outside _
    exact (adopts.memory (files ▸ inside) address outside).trans (leaving_memory outside)

end Exchanging
end Kernel
end Mikos.Process
