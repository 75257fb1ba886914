import Mathlib.Algebra.Order.Group.Multiset
import Mathlib.Tactic.Abel
import Mikos.Process.Runs

/-!
# Snapshots and their owners

Every record of a suspended process that has a snapshot owns its range of the arena.  Saving
a process takes a new range and writes only there; putting a process back writes only user
memory and gives the range back.
-/

namespace Mikos.Process
open Library Network List

/-! ## Sequences that may stop the machine -/

theorem Halting.bind_eq_ok {next : α → Halting β} :
    (first >>= next) = .ok result ↔ ∃ value, first = .ok value ∧ next value = .ok result := by
  cases first with
  | error code =>
    constructor
    · intro stopped
      cases stopped
    · rintro ⟨_, stopped, _⟩
      cases stopped
  | ok value =>
    constructor
    · intro rest
      exact ⟨value, rfl, rest⟩
    · rintro ⟨_, same, rest⟩
      cases same
      exact rest

theorem Halting.exists_of_map {result : Halting α} (seen : result.map view = .ok value) :
    ∃ outcome, result = .ok outcome ∧ view outcome = value := by
  cases result with
  | error code => cases seen
  | ok outcome =>
    cases seen
    exact ⟨outcome, rfl, rfl⟩

/-! ## Saving the memory of a process -/

/-- The bounds of a process's regions. -/
structure Bounded (context : Context) : Prop where
  mutableBegin : userBegin ≤ context.mutableBegin ∧ context.mutableBegin ≤ userEnd
  brk : userBegin ≤ context.brk ∧ context.brk ≤ userEnd
  mmapBegin : userBegin ≤ context.mmapBegin
  mmapCursor : context.mmapBegin ≤ context.mmapCursor ∧ context.mmapCursor ≤ userStackTop

/-- A record whose snapshot has room for its regions, all of them in user memory. -/
structure Placed (saved : SavedContext) : Prop where
  bounded : Bounded saved.toContext
  mutable : saved.mutableBegin ≤ saved.brk
  stack : userBegin ≤ saved.stackBegin ∧ saved.stackBegin ≤ userStackTop
  mutableSize : saved.mutableSize = saved.brk - saved.mutableBegin
  mmapSize : saved.mmapSize = saved.mmapCursor - saved.mmapBegin
  stackSize : saved.stackSize = userStackTop - saved.stackBegin
  room : totalSize saved.regions ≤ saved.snapshot.size

/-- What the attempt to save a record does. -/
inductive SavesMemory (saved : SavedContext) (arena : SnapshotArena) (memory : Bytes) :
    Bool × SavedContext × SnapshotArena × Bytes → Prop where
  | refused {record : SavedContext} (context : record.toContext = saved.toContext)
      (stack : record.stackBegin = saved.stackBegin)
      (snapshot : record.snapshot = saved.snapshot ∨ record.snapshot = .invalid) :
      SavesMemory saved arena memory (false, record, arena, memory)
  | saved {record : SavedContext} {after : SnapshotArena}
      (context : record.toContext = saved.toContext)
      (stack : record.stackBegin = saved.stackBegin)
      (mutable : saved.mutableBegin ≤ saved.brk)
      (mmap : saved.mmapBegin ≤ saved.mmapCursor)
      (stackTop : saved.stackBegin ≤ userStackTop)
      (mutableSize : record.mutableSize = saved.brk - saved.mutableBegin)
      (mmapSize : record.mmapSize = saved.mmapCursor - saved.mmapBegin)
      (stackSize : record.stackSize = userStackTop - saved.stackBegin)
      (valid : SnapshotAllocation.Valid record.snapshot)
      (allocated : arena.allocate (totalSize record.regions) = (record.snapshot, after)) :
      SavesMemory saved arena memory
        (true, record, after, pack record.regions record.snapshot.address memory)

theorem SavedContext.saveMemory_spec (represents : arena.Represents blocks) (saved : SavedContext)
    (memory : Bytes) : SavesMemory saved arena memory (saved.saveMemory arena memory) := by
  rw [saveMemory]
  split
  · exact .refused rfl rfl (.inl rfl)
  rename_i bounds
  dsimp only
  split
  · exact .refused rfl rfl (.inl rfl)
  have outcome := SnapshotArena.allocate_spec represents
    (totalSize { saved with
      mutableSize := saved.brk - saved.mutableBegin
      mmapSize := saved.mmapCursor - saved.mmapBegin
      stackSize := userStackTop - saved.stackBegin }.regions)
  generalize reading : arena.allocate _ = attempt at outcome ⊢
  cases outcome with
  | refused =>
    rw [if_neg SnapshotAllocation.not_valid_invalid]
    exact .refused rfl rfl (.inr rfl)
  | granted represents' range capacity live enough =>
    have valid := represents'.live_valid (live.mem_iff.mpr mem_cons_self)
    rw [if_pos valid]
    exact .saved rfl rfl (by omega) (by omega) (by omega) rfl rfl rfl valid reading

/-! ## The ranges in use -/

/-- The ranges of an arena that lies below user memory. -/
def Owned (machine : Machine) (arena : SnapshotArena) (ranges : Multiset SnapshotAllocation) :
    Prop :=
  ∃ blocks, arena.Represents blocks ∧ arena.beginAddress = machine.arenaBegin ∧
    arena.endAddress = userBegin ∧ arena.extentCapacity = 64 ∧
    (arena.live blocks : Multiset SnapshotAllocation) = ranges

namespace Owned
variable {machine : Machine} {arena after : SnapshotArena} {ranges : Multiset SnapshotAllocation}
  {allocation other : SnapshotAllocation}

theorem initial (machine : Machine) :
    Owned machine (SnapshotArena.start {} machine.arenaBegin userBegin).2 0 := by
  have placed := machine.arenaPlaced
  have aligned := machine.arenaAligned
  have whole : userBegin = 0x81000000 := rfl
  have sixteen : arenaAlignment = 16 := rfl
  have low : alignUp machine.arenaBegin arenaAlignment = machine.arenaBegin := by
    rw [alignUp, wrap_of_lt (by omega), alignDown]
    rw [sixteen] at aligned ⊢
    omega
  have high : alignDown userBegin arenaAlignment = userBegin := by decide
  have represents := @SnapshotArena.represents_start machine.arenaBegin userBegin (by omega)
    (by omega) (by omega)
  refine ⟨_, represents, ?_⟩
  rw [SnapshotArena.start, low, high, if_neg (by omega)]
  exact ⟨rfl, rfl, rfl, rfl⟩

theorem bounds (owned : Owned machine arena ranges) (mem : allocation ∈ ranges) :
    machine.arenaBegin ≤ allocation.address ∧ allocation.address + allocation.size ≤ userBegin := by
  obtain ⟨blocks, represents, start, stop, -, rfl⟩ := owned
  have inside := represents.live_bounds (Multiset.mem_coe.mp mem)
  rwa [start, stop] at inside

theorem valid (owned : Owned machine arena ranges) (mem : allocation ∈ ranges) :
    SnapshotAllocation.Valid allocation := by
  obtain ⟨blocks, represents, -, -, -, rfl⟩ := owned
  exact represents.live_valid (Multiset.mem_coe.mp mem)

theorem apart (owned : Owned machine arena (allocation ::ₘ ranges)) (mem : other ∈ ranges) :
    allocation.address + allocation.size ≤ other.address ∨
      other.address + other.size ≤ allocation.address := by
  obtain ⟨blocks, represents, -, -, -, live⟩ := owned
  have distinct : (allocation ::ₘ ranges).Nodup := by
    rw [← live]
    exact Multiset.coe_nodup.mpr represents.proper.usedSpans_nodup
  have different : allocation ≠ other := by
    rintro rfl
    exact (Multiset.nodup_cons.mp distinct).1 mem
  have first : allocation ∈ arena.live blocks := by
    rw [← Multiset.mem_coe, live]
    exact Multiset.mem_cons_self ..
  have second : other ∈ arena.live blocks := by
    rw [← Multiset.mem_coe, live]
    exact Multiset.mem_cons_of_mem mem
  exact SnapshotArena.Represents.live_apart first second different

theorem allocate (owned : Owned machine arena ranges) (valid : SnapshotAllocation.Valid allocation)
    (allocated : arena.allocate requested = (allocation, after)) :
    Owned machine after (allocation ::ₘ ranges) ∧ requested ≤ allocation.size := by
  obtain ⟨blocks, represents, start, stop, capacity, rfl⟩ := owned
  have outcome := SnapshotArena.allocate_spec represents requested
  rw [allocated] at outcome
  cases outcome with
  | refused => exact absurd valid SnapshotAllocation.not_valid_invalid
  | granted represents' range capacity' live enough =>
    exact ⟨⟨_, represents', range.1.trans start, range.2.trans stop, capacity'.trans capacity,
      Multiset.coe_eq_coe.mpr live⟩, enough⟩

theorem release (owned : Owned machine arena (allocation ::ₘ ranges))
    (freed : Kernel.releaseSnapshot arena allocation = .ok after) : Owned machine after ranges := by
  have valid := owned.valid (Multiset.mem_cons_self ..)
  obtain ⟨blocks, represents, start, stop, capacity, live⟩ := owned
  have mem : allocation ∈ arena.live blocks := by
    rw [← Multiset.mem_coe, live]
    exact Multiset.mem_cons_self ..
  rw [Kernel.releaseSnapshot, if_neg (not_not.mpr valid)] at freed
  have success : (arena.release allocation).1 = .success := by
    generalize arena.release allocation = attempt at freed ⊢
    obtain ⟨status, result⟩ := attempt
    cases status with
    | success => rfl
    | noSpace => cases freed
    | invalidArgument => cases freed
  obtain ⟨result, blocks', done, represents', start', stop', capacity', rest⟩ :=
    SnapshotArena.release_spec represents mem (.inr success)
  rw [done] at freed
  cases freed
  refine ⟨blocks', represents', start'.trans start, stop'.trans stop, capacity'.trans capacity, ?_⟩
  have same : allocation ::ₘ (after.live blocks' : Multiset SnapshotAllocation) =
      allocation ::ₘ ranges := by
    rw [← live, Multiset.cons_coe]
    exact (Multiset.coe_eq_coe.mpr rest).symm
  exact (Multiset.cons_inj_right allocation).mp same

theorem exists_release (owned : Owned machine arena (allocation ::ₘ ranges))
    (few : ranges.card < 64) : ∃ after, Kernel.releaseSnapshot arena allocation = .ok after := by
  have valid := owned.valid (Multiset.mem_cons_self ..)
  obtain ⟨blocks, represents, -, -, capacity, live⟩ := owned
  have mem : allocation ∈ arena.live blocks := by
    rw [← Multiset.mem_coe, live]
    exact Multiset.mem_cons_self ..
  have number := congrArg Multiset.card live
  simp only [Multiset.coe_card, Multiset.card_cons] at number
  obtain ⟨after, -, done, -⟩ := SnapshotArena.release_spec represents mem (.inl (by omega))
  refine ⟨after, ?_⟩
  rw [Kernel.releaseSnapshot, if_neg (not_not.mpr valid), done]

end Owned


/-! ## Records in use -/

variable {saved record : SavedContext}

/-- A record without its pending signals, which others may add to. -/
def SavedContext.quiet (saved : SavedContext) : SavedContext :=
  { saved with signals.pending := 0 }

/-- A record with the descriptors of its process. -/
abbrev Holding := SavedContext × DescriptorTable

/-- What a record holds: a process, if there is a snapshot. -/
def held (saved : SavedContext) (table : DescriptorTable) : Multiset Holding :=
  if SnapshotAllocation.Valid saved.snapshot then {(saved.quiet, table)} else 0

@[simp] theorem held_of_valid (valid : SnapshotAllocation.Valid saved.snapshot) :
    held saved table = {(saved.quiet, table)} :=
  if_pos valid

@[simp] theorem held_of_invalid (invalid : ¬ SnapshotAllocation.Valid saved.snapshot) :
    held saved table = 0 :=
  if_neg invalid

/-- The record holds a process that waits in the background, and not only the name of one. -/
def ParkedBackground.Parked (background : ParkedBackground) : Prop :=
  background.used ∧ background.wait = .socketRead ∧ SnapshotAllocation.Valid background.snapshot
deriving Decidable

/-- A record of a parent is active, and saved, when it has a snapshot. -/
structure SuspendedParent.Regular (parent : SuspendedParent) : Prop where
  saved : parent.memorySaved = parent.active
  valid : parent.active = true ↔ SnapshotAllocation.Valid parent.snapshot

namespace Suspended
variable (suspended : Suspended)

/-- The process parked in the background. -/
def parked : Multiset Holding :=
  if suspended.background.Parked then
    {(suspended.background.toSavedContext.quiet, suspended.backgroundDescriptors)}
  else 0

/-- The older ancestors. -/
def stacked (nested : List (SuspendedParent × DescriptorTable)) : Multiset Holding :=
  (nested.map fun ancestor => held ancestor.1.toSavedContext ancestor.2).sum

/-- All suspended processes. -/
def occupied : Multiset Holding :=
  held suspended.parent.toSavedContext suspended.parentDescriptors + suspended.parked +
    held suspended.interactiveChild.toSavedContext suspended.interactiveChildDescriptors +
    held suspended.interactiveParent.toSavedContext suspended.interactiveParentDescriptors +
    stacked suspended.nested

/-- The records say of themselves what they hold. -/
structure Orderly : Prop where
  parent : suspended.parent.Regular
  interactiveParent : suspended.interactiveParent.Regular
  nested : ∀ ancestor ∈ suspended.nested, ancestor.1.Regular ∧ ancestor.1.active = true
  interactiveChild : suspended.interactiveChild.used = true ↔
    SnapshotAllocation.Valid suspended.interactiveChild.snapshot
  depth : suspended.nested.length ≤ nestedAncestorCapacity
  background : suspended.background.used = true → suspended.background.wait = .socketRead →
    SnapshotAllocation.Valid suspended.background.snapshot

end Suspended

theorem SuspendedParent.regular_default : SuspendedParent.Regular {} := ⟨rfl, by decide⟩

theorem SuspendedParent.Regular.invalid {parent : SuspendedParent} (regular : parent.Regular)
    (idle : parent.active = false) : ¬ SnapshotAllocation.Valid parent.snapshot := by
  rw [← regular.valid, idle]
  decide

namespace Suspended
variable {suspended suspended' : Suspended}

/-! ### Moves between records -/

theorem occupied_stackAncestor (stacking : suspended.stackAncestor = some suspended') :
    suspended'.occupied = suspended.occupied := by
  rw [stackAncestor] at stacking
  split at stacking
  · cases stacking
  rename_i fits
  cases stacking
  simp only [not_or, not_not, Bool.not_eq_false] at fits
  have away : ¬ suspended.background.Parked := fun parked => fits.2.2.2.1 parked.2.2
  have nobody : ¬ ParkedBackground.Parked {} := by decide
  simp only [occupied, parked, stacked, if_neg away, if_neg nobody, map_cons, sum_cons,
    held_of_invalid (show ¬ SnapshotAllocation.Valid ({} : SuspendedParent).snapshot by decide)]
  abel

section
variable (orderly : suspended.Orderly)
include orderly

theorem Orderly.stackAncestor (stacking : suspended.stackAncestor = some suspended') :
    suspended'.Orderly := by
  rw [Suspended.stackAncestor] at stacking
  split at stacking
  · cases stacking
  rename_i fits
  cases stacking
  simp only [not_or, not_not, Bool.not_eq_false] at fits
  have depth := orderly.depth
  refine ⟨SuspendedParent.regular_default, orderly.interactiveParent, ?_,
    orderly.interactiveChild, ?_, fun used => (Bool.false_ne_true used).elim⟩
  · intro ancestor mem
    rcases mem_cons.mp mem with rfl | mem
    · exact ⟨orderly.parent, fits.1⟩
    · exact orderly.nested ancestor mem
  · simp only [length_cons]
    omega

theorem occupied_popAncestor (idle : suspended.parent.active = false) :
    suspended.popAncestor.occupied = suspended.occupied := by
  rw [popAncestor]
  split
  · rfl
  rename_i parent table nested stack
  simp only [occupied, parked, stacked, stack, map_cons, sum_cons,
    held_of_invalid (orderly.parent.invalid idle)]
  abel

theorem Orderly.popAncestor : suspended.popAncestor.Orderly := by
  rw [Suspended.popAncestor]
  split
  · exact orderly
  rename_i parent table nested stack
  have nested' := orderly.nested
  have depth := orderly.depth
  rw [stack] at nested' depth
  refine { orderly with parent := (nested' _ mem_cons_self).1, nested := ?_, depth := ?_ }
  · intro ancestor mem
    exact nested' ancestor (mem_cons_of_mem _ mem)
  · simp only [length_cons] at depth ⊢
    omega

end

/-- Remembering the running process as the background one loses the process that was parked
there. -/
theorem occupied_captureBackground (context : Context) (socket : SocketHandle) :
    (suspended.captureBackground context socket .none).occupied + suspended.parked =
      suspended.occupied := by
  have nobody : ¬ (suspended.captureBackground context socket .none).background.Parked := by
    rintro ⟨-, waits, -⟩
    cases waits
  rw [occupied, parked, if_neg nobody, occupied]
  simp only [captureBackground]
  abel

theorem Orderly.captureBackground (orderly : suspended.Orderly) (context : Context)
    (socket : SocketHandle) : (suspended.captureBackground context socket .none).Orderly :=
  { orderly with background := fun _ waits => nomatch waits }

/-- The process that is lost when an ancestor is put back as the parent. -/
def overwritten (suspended : Suspended) : Multiset Holding :=
  if suspended.nested = [] then 0 else suspended.parked

section
variable (orderly : suspended.Orderly)
include orderly

theorem occupied_reinstateAncestor (idle : suspended.parent.active = false) (context : Context) :
    (suspended.reinstateAncestor context).occupied + suspended.overwritten =
      suspended.occupied := by
  rw [reinstateAncestor, overwritten]
  split
  · exact Multiset.add_zero _
  · rw [occupied_popAncestor (orderly.captureBackground ..) idle]
    exact occupied_captureBackground ..

theorem Orderly.reinstateAncestor (context : Context) :
    (suspended.reinstateAncestor context).Orderly := by
  rw [Suspended.reinstateAncestor]
  split
  · exact orderly
  · exact (orderly.captureBackground ..).popAncestor

theorem occupied_relay (alone : suspended.interactiveParent.active = false)
    (stack : suspended.nested ≠ []) : suspended.relay.occupied = suspended.occupied := by
  rw [relay, popAncestor]
  split
  next empty => exact absurd empty stack
  rename_i parent table nested stack
  simp only at stack
  simp only [occupied, parked, stacked, stack, map_cons, sum_cons,
    held_of_invalid (orderly.interactiveParent.invalid alone)]
  abel

theorem Orderly.relay : suspended.relay.Orderly := by
  have aside : { suspended with
      interactiveParent := suspended.parent
      interactiveParentDescriptors := suspended.parentDescriptors }.Orderly :=
    ⟨orderly.parent, orderly.parent, orderly.nested, orderly.interactiveChild, orderly.depth,
      orderly.background⟩
  have popped := aside.popAncestor
  exact { popped with }

theorem occupied_unrelay (idle : suspended.parent.active = false) :
    suspended.unrelay.occupied = suspended.occupied := by
  have same : suspended.unrelay.parked = suspended.parked := rfl
  rw [occupied, same, occupied]
  simp only [unrelay, held_of_invalid (orderly.parent.invalid idle),
    held_of_invalid (show ¬ SnapshotAllocation.Valid ({} : SuspendedParent).snapshot by decide)]
  abel

theorem Orderly.unrelay : suspended.unrelay.Orderly :=
  ⟨orderly.interactiveParent, SuspendedParent.regular_default, orderly.nested,
    orderly.interactiveChild, orderly.depth, orderly.background⟩

end
end Suspended


/-! ## What snapshots hold -/

/-- The snapshot of a record holds the regions as they were in some memory. -/
def Stored (saved : SavedContext) (memory before : Bytes) : Prop :=
  ∀ address, saved.snapshot.address ≤ address →
    address < saved.snapshot.address + totalSize saved.regions →
    memory address = pack saved.regions saved.snapshot.address before address

def SavedContext.Covers (saved : SavedContext) (address : Nat) : Prop :=
  ∃ span ∈ saved.regions, span.Contains address
deriving Decidable

namespace Placed
variable {saved : SavedContext} {memory before : Bytes} {address : Nat}

theorem covers_iff (placed : Placed saved) : saved.Covers address ↔
    (saved.mutableBegin ≤ address ∧ address < saved.brk) ∨
      (saved.mmapBegin ≤ address ∧ address < saved.mmapCursor) ∨
      (saved.stackBegin ≤ address ∧ address < userStackTop) := by
  have mutable := placed.mutable
  have mmap := placed.bounded.mmapCursor
  have stack := placed.stack
  simp only [SavedContext.Covers, SavedContext.regions, Span.Contains, mem_cons,
    not_mem_nil, or_false, exists_eq_or_imp, exists_eq_left, placed.mutableSize,
    placed.mmapSize, placed.stackSize]
  omega

theorem user_of_covers (placed : Placed saved) (covered : saved.Covers address) :
    UserAddress address := by
  have bounded := placed.bounded
  have mutable := bounded.mutableBegin
  have brk := bounded.brk
  have mmap := bounded.mmapBegin
  have cursor := bounded.mmapCursor
  have stack := placed.stack
  have top : userStackTop = 0x81fff000 := rfl
  have high : userEnd = 0x82000000 := rfl
  rw [placed.covers_iff] at covered
  rw [UserAddress]
  omega

theorem restoreMemory_outside (uncovered : ¬ saved.Covers address) :
    saved.restoreMemory memory address = memory address :=
  unpack_outside fun span mem inside => uncovered ⟨span, mem, inside⟩

theorem restoreMemory_stored (placed : Placed saved)
    (below : saved.snapshot.address + saved.snapshot.size ≤ userBegin)
    (stored : Stored saved memory before) (address : Nat) :
    saved.restoreMemory memory address =
      if saved.Covers address then before address else memory address := by
  have room := placed.room
  have clear : Clear saved.regions saved.snapshot.address (totalSize saved.regions) := by
    intro span mem place inside
    have user := placed.user_of_covers ⟨span, mem, inside⟩
    rw [UserAddress] at user
    omega
  exact unpack_pack clear stored address

end Placed

/-- A snapshot still holds what it held where no byte of it changed. -/
theorem Stored.congr (stored : Stored saved memory before)
    (room : totalSize saved.regions ≤ saved.snapshot.size)
    (same : ∀ address, saved.snapshot.Contains address → memory' address = memory address) :
    Stored saved memory' before := by
  intro address low high
  rw [same address ⟨low, by omega⟩]
  exact stored address low high

structure SavedAs (machine : Machine) (context : Context) (stack : Nat) (memory : Bytes)
    (ranges : Multiset SnapshotAllocation) (record : SavedContext) (arena : SnapshotArena)
    (memory' : Bytes) : Prop where
  same : record.toContext = context
  stackBegin : record.stackBegin = alignDown stack 16
  valid : SnapshotAllocation.Valid record.snapshot
  placed : Bounded context → Placed record
  owned : Owned machine arena (record.snapshot ::ₘ ranges)
  stored : Stored record memory' memory
  outside : ∀ address, ¬ record.snapshot.Contains address → memory' address = memory address

theorem savedAs_of_saveMemory {ranges} (owned : Owned machine arena ranges)
    (start : saved.stackBegin = alignDown stack 16)
    (saves : saved.saveMemory arena memory = (true, record, arena', memory')) :
    SavedAs machine saved.toContext stack memory ranges record arena' memory' := by
  obtain ⟨blocks, represents, -⟩ := id owned
  have outcome := saved.saveMemory_spec represents memory
  rw [saves] at outcome
  cases outcome with
  | saved context stackSame mutable mmap stackTop mutableSize mmapSize stackSize valid allocated =>
    obtain ⟨owned', enough⟩ := owned.allocate valid allocated
    have bounds := owned'.bounds (Multiset.mem_cons_self ..)
    refine ⟨context, stackSame.trans start, valid, fun bounded => ?_, owned', ?_, ?_⟩
    · have total : totalSize record.regions = record.mutableSize + record.mmapSize +
          record.stackSize := by
        simp [SavedContext.regions, Nat.add_assoc]
      have low := machine.arenaPlaced.1
      have top : userStackTop = 0x81fff000 := rfl
      have begin_ : userBegin = 0x81000000 := rfl
      have mutable' : record.mutableBegin ≤ record.brk := by rwa [context]
      have mutableSize' : record.mutableSize = record.brk - record.mutableBegin := by rwa [context]
      have mmapSize' : record.mmapSize = record.mmapCursor - record.mmapBegin := by rwa [context]
      exact ⟨context ▸ bounded, mutable', ⟨by omega, by omega⟩, mutableSize', mmapSize', by omega,
        enough⟩
    · intro address low high
      rfl
    · intro address outside
      rw [Span.Contains] at outside
      exact pack_outside (by omega)


/-! ## Stocks of suspended processes -/

/-- The ranges of the arena that some processes own. -/
def ranges (holdings : Multiset Holding) : Multiset SnapshotAllocation :=
  holdings.map fun holding => holding.1.snapshot

@[simp] theorem ranges_add (left right : Multiset Holding) :
    ranges (left + right) = ranges left + ranges right := Multiset.map_add ..

@[simp] theorem ranges_singleton (holding : Holding) :
    ranges {holding} = {holding.1.snapshot} := Multiset.map_singleton ..

@[simp] theorem ranges_zero : ranges 0 = 0 := rfl

/-- The records, and the arena in which they own their snapshots; beside them there may be
ranges that nobody owns any more. -/
structure Stocked (machine : Machine) (suspended : Suspended) (arena : SnapshotArena)
    (leaked : Multiset SnapshotAllocation) : Prop where
  orderly : suspended.Orderly
  owned : Owned machine arena (ranges suspended.occupied + leaked)
  placed : ∀ holding ∈ suspended.occupied, Placed holding.1

theorem SavedAs.elsewhere {ranges : Multiset SnapshotAllocation}
    (savedAs : SavedAs machine context stack memory ranges record arena memory')
    {allocation : SnapshotAllocation} (older : allocation ∈ ranges) {address : Nat}
    (within : allocation.Contains address) : ¬ record.snapshot.Contains address := by
  have apart := savedAs.owned.apart older
  rw [Span.Contains] at within ⊢
  omega

theorem Placed.quiet (placed : Placed saved) : Placed saved.quiet :=
  { placed with
    bounded := ⟨placed.bounded.mutableBegin, placed.bounded.brk, placed.bounded.mmapBegin,
    placed.bounded.mmapCursor⟩ }

namespace Stocked
variable {machine : Machine} {suspended suspended' : Suspended} {arena arena' : SnapshotArena}
  {leaked : Multiset SnapshotAllocation} {lost : Multiset Holding}

section
variable (stocked : Stocked machine suspended arena leaked)
include stocked

section
variable (orderly : suspended'.Orderly)
include orderly

theorem move (same : suspended'.occupied + lost = suspended.occupied) :
    Stocked machine suspended' arena (ranges lost + leaked) := by
  refine ⟨orderly, ?_, fun holding mem => ?_⟩
  · have owned := stocked.owned
    rwa [← same, ranges_add, add_assoc] at owned
  · exact stocked.placed holding (by rw [← same]; exact Multiset.mem_add.mpr (.inl mem))

theorem insert
    (savedAs : SavedAs machine context stack memory (ranges suspended.occupied + leaked) record
      arena' memory') (bounded : Bounded context)
    (same : suspended'.occupied + lost = {(record.quiet, table)} + suspended.occupied) :
    Stocked machine suspended' arena' (ranges lost + leaked) := by
  refine ⟨orderly, ?_, fun holding mem => ?_⟩
  · have owned := savedAs.owned
    have total := congrArg ranges same
    rw [ranges_add, ranges_add, ranges_singleton] at total
    rw [← add_assoc, total, add_assoc]
    exact owned
  have inside : holding ∈ {(record.quiet, table)} + suspended.occupied := by
    rw [← same]
    exact Multiset.mem_add.mpr (.inl mem)
  rcases Multiset.mem_add.mp inside with new | old
  · rw [Multiset.mem_singleton.mp new]
    exact (savedAs.placed bounded).quiet
  · exact stocked.placed holding old

theorem remove (freed : Kernel.releaseSnapshot arena record.snapshot = .ok arena')
    (same : suspended.occupied = {(record.quiet, table)} + suspended'.occupied) :
    Stocked machine suspended' arena' leaked := by
  refine ⟨orderly, ?_, fun holding mem => ?_⟩
  · have owned := stocked.owned
    rw [same, ranges_add, ranges_singleton, add_assoc, Multiset.singleton_add] at owned
    exact owned.release freed
  · exact stocked.placed holding (by rw [same]; exact Multiset.mem_add.mpr (.inr mem))

end
end

theorem mem_ranges (mem : holding ∈ suspended.occupied) (leaked : Multiset SnapshotAllocation) :
    holding.1.snapshot ∈ ranges suspended.occupied + leaked :=
  Multiset.mem_add.mpr (.inl (Multiset.mem_map_of_mem _ mem))

theorem below (stocked : Stocked machine suspended arena leaked)
    (mem : holding ∈ suspended.occupied) : machine.arenaBegin ≤ holding.1.snapshot.address ∧
      holding.1.snapshot.address + holding.1.snapshot.size ≤ userBegin :=
  stocked.owned.bounds (mem_ranges mem leaked)

theorem not_user (stocked : Stocked machine suspended arena leaked)
    (mem : holding ∈ suspended.occupied) (within : holding.1.snapshot.Contains address) :
    ¬ UserAddress address := by
  have below := stocked.below mem
  rw [Span.Contains] at within
  rw [UserAddress]
  omega

end Stocked
end Mikos.Process
