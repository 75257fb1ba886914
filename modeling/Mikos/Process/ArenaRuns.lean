import Mikos.Process.SnapshotArena

/-!
# Runs of the arena of memory snapshots

Along every run of allocations and releases of live allocations, in any order, these and the
free extents partition the arena; and a release fails only when very many allocations live.
-/

namespace Mikos.Process
open Library List
namespace SnapshotArena
variable {arena : SnapshotArena} {blocks : List Block} {allocation : SnapshotAllocation}
  {capacity beginAddress endAddress requested : Nat} {live freed : List SnapshotAllocation}

/-- An arena that was brought into use, the allocations that live in it and those that were
given back. -/
inductive Run (capacity beginAddress endAddress : Nat) :
    SnapshotArena → List SnapshotAllocation → List SnapshotAllocation → Prop where
  | start {arena : SnapshotArena}
      (accepted : ({ extentCapacity := capacity } : SnapshotArena).start beginAddress endAddress =
        (.success, arena)) :
      Run capacity beginAddress endAddress arena [] []
  | allocate {arena : SnapshotArena} {live released : List SnapshotAllocation}
      (run : Run capacity beginAddress endAddress arena live released) (requested : Nat) :
      Run capacity beginAddress endAddress (arena.allocate requested).2
        (if SnapshotAllocation.Valid (arena.allocate requested).1 then
          (arena.allocate requested).1 :: live else live) released
  | release {arena : SnapshotArena} {live released : List SnapshotAllocation}
      (run : Run capacity beginAddress endAddress arena live released)
      {allocation : SnapshotAllocation} (member : allocation ∈ live) :
      Run capacity beginAddress endAddress (arena.release allocation).2
        (if (arena.release allocation).1 = .success then live.erase allocation else live)
        (if (arena.release allocation).1 = .success then allocation :: released else released)

/-! ## Refusals -/

theorem represents_of_start
    (taken : ({ extentCapacity := capacity } : SnapshotArena).start beginAddress endAddress =
      (.success, arena)) :
    arena.Represents [.free (arena.endAddress - arena.beginAddress)] ∧
      arena.extentCapacity = capacity ∧ arena.beginAddress < arena.endAddress ∧
      arena.endAddress ≤ endAddress := by
  rw [start] at taken
  simp only at taken
  split at taken
  · cases taken
  rename_i room
  cases taken
  have below := alignDown_le endAddress arenaAlignment
  refine ⟨⟨⟨?_, ?_⟩, rfl, ?_, rfl, ?_, alignUp_mod .., ?_⟩, rfl, ?_, below⟩
  · simp only [mem_singleton, forall_eq, Block.size]
    omega
  · simp
  · simp only [extent_cons, extent_nil, Block.size]
    omega
  · simp only
    omega
  · simp only [mem_singleton, forall_eq, Block.size]
    exact Nat.sub_mod_eq_zero_of_mod_eq (by rw [alignUp_mod, alignDown_mod])
  · simp only
    omega

theorem takeFirst_eq_none {free : List Span} :
    takeFirst size free = none ↔ ∀ extent ∈ free, extent.size < size := by
  induction free with
  | nil => simp [takeFirst]
  | cons extent rest ih =>
    rw [takeFirst]
    by_cases narrow : extent.size < size
    · simp [narrow, ih]
    · rw [if_neg narrow]
      simp only [mem_cons, forall_eq_or_imp, narrow, false_and, iff_false]
      split <;> simp

theorem Represents.end_aligned (represents : arena.Represents blocks) :
    arena.endAddress % arenaAlignment = 0 := by
  rw [← represents.range, Nat.add_mod, represents.aligned, extent_mod represents.sizes]
  rfl

/-- An allocation fails exactly if it is empty or no extent is large enough. -/
theorem Represents.allocate_fails_iff (represents : arena.Represents blocks)
    (small : arena.endAddress < 2 ^ 32) :
    ¬ SnapshotAllocation.Valid (arena.allocate requested).1 ↔
      requested = 0 ∨ ∀ extent ∈ arena.free, extent.size < requested := by
  have placed := represents.placed
  have inside : ∀ extent ∈ arena.free, arena.beginAddress ≤ extent.address ∧
      extent.address + extent.size ≤ arena.endAddress ∧ extent.size % arenaAlignment = 0 := by
    intro extent mem
    rw [represents.free] at mem
    have bounds := freeSpans_bounds mem
    rw [represents.range] at bounds
    exact ⟨bounds.1, bounds.2, freeSpans_mod represents.sizes mem⟩
  have alignedBegin := represents.aligned
  have alignedEnd := represents.end_aligned
  rw [arenaAlignment] at inside alignedBegin alignedEnd
  unfold allocate
  split
  next refused =>
    refine iff_of_true SnapshotAllocation.not_valid_invalid ?_
    rcases refused with none | unplaced | huge
    · exact .inl none
    · omega
    right
    intro extent mem
    have bounds := inside extent mem
    rw [arenaAlignment] at huge
    omega
  rename_i accepted
  simp only [not_or, Nat.not_lt, arenaAlignment] at accepted
  have rounded : alignUp requested arenaAlignment = requested + 15 - (requested + 15) % 16 := by
    rw [alignUp, alignDown, arenaAlignment, wrap_of_lt (by omega)]
    rfl
  rw [if_neg (by rw [rounded]; omega)]
  cases taken : takeFirst (alignUp requested arenaAlignment) arena.free with
  | none =>
    refine iff_of_true SnapshotAllocation.not_valid_invalid (.inr ?_)
    rw [takeFirst_eq_none, rounded] at taken
    intro extent mem
    have narrow := taken extent mem
    have bounds := inside extent mem
    omega
  | some found =>
    obtain ⟨address, free⟩ := found
    have wide : ¬ ∀ extent ∈ arena.free, extent.size < alignUp requested arenaAlignment := by
      rw [← takeFirst_eq_none, taken]
      simp
    refine iff_of_false ?_ ?_
    · rw [represents.free] at taken
      obtain ⟨before, width, after, -, -, rfl, -⟩ := takeFirst_spec taken
      rw [not_not]
      refine ⟨?_, ?_⟩
      · simp only
        omega
      · simp only [rounded]
        omega
    rw [not_or]
    refine ⟨accepted.1, fun narrow => wide fun extent mem => ?_⟩
    have bound := narrow extent mem
    rw [rounded]
    omega

theorem release_unchanged (refused : (arena.release allocation).1 ≠ .success) :
    (arena.release allocation).2 = arena := by
  unfold release at refused ⊢
  split
  · rfl
  rename_i own
  rw [if_neg own] at refused
  simp only at refused ⊢
  split
  · rfl
  rename_i apart
  rw [if_neg apart] at refused
  split
  next inserted =>
    rw [inserted] at refused
    exact absurd rfl refused
  · rfl

/-- A range that no live allocation meets cannot be given back: it is free already. -/
theorem Represents.release_rejected (represents : arena.Represents blocks)
    (pos : 0 < allocation.size) (low : arena.beginAddress ≤ allocation.address)
    (high : allocation.address + allocation.size ≤ arena.endAddress)
    (apart : ∀ other ∈ arena.live blocks, other.Apart allocation) :
    arena.release allocation = (.invalidArgument, arena) := by
  have covered := exists_contains low (by rw [represents.range]; omega)
  rw [← represents.free] at covered
  have sorted : (freeSpans arena.beginAddress blocks).Pairwise _ :=
    represents.proper.freeSpans_sorted
  rw [← represents.free] at sorted
  obtain ⟨extent, mem, inside⟩ : ∃ extent ∈ arena.free, extent.Contains allocation.address := by
    rcases covered with free | ⟨other, mem, inside⟩
    · exact free
    · rcases apart other mem with before | behind
      · exact absurd inside.2 (by omega)
      · exact absurd inside.1 (by omega)
  obtain ⟨lower, upper, split⟩ := append_of_mem mem
  rw [split, pairwise_append, pairwise_cons] at sorted
  obtain ⟨-, ⟨behind, -⟩, before⟩ := sorted
  rw [release]
  split
  · rfl
  rename_i own
  rw [if_pos]
  by_cases start : extent.address < allocation.address
  · have parts := @takeWhile_append_dropWhile (lower ++ [extent]) upper allocation.address
      (by
        intro other inLower
        rcases mem_append.mp inLower with earlier | same
        · have order := before other earlier extent mem_cons_self
          omega
        · rw [mem_singleton.mp same]
          exact start)
      (by
        intro other inUpper
        have order := behind other inUpper
        have bound := inside.2
        omega)
    rw [append_assoc, singleton_append, ← split] at parts
    rw [parts.1]
    left
    simpa using inside.2
  have parts := @takeWhile_append_dropWhile lower (extent :: upper) allocation.address
    (by
      intro other inLower
      have order := before other inLower extent mem_cons_self
      have bound := inside.1
      omega)
    (by
      intro other inUpper
      rcases mem_cons.mp inUpper with rfl | later
      · omega
      · have order := behind other later
        have bound := inside.2
        omega)
  rw [← split] at parts
  rw [parts.2]
  right
  have bound := inside.1
  simp only [List.head?_cons, Option.any_some, decide_eq_true_eq]
  omega

/-! ## The list of free extents -/

theorem length_takeFirst {free rest : List Span}
    (taken : takeFirst size free = some (address, rest)) : rest.length ≤ free.length := by
  induction free generalizing rest with
  | nil => cases taken
  | cons extent more ih =>
    rw [takeFirst] at taken
    split at taken
    · obtain ⟨⟨place, others⟩, found, same⟩ := Option.map_eq_some_iff.mp taken
      cases same
      have bound := ih found
      simp only [length_cons]
      omega
    · split at taken <;> cases taken <;> simp

theorem length_allocate : (arena.allocate requested).2.free.length ≤ arena.free.length := by
  unfold allocate
  split
  · exact Nat.le_refl _
  simp only
  split
  · exact Nat.le_refl _
  · cases taken : takeFirst (alignUp requested arenaAlignment) arena.free with
    | none => exact Nat.le_refl _
    | some found => exact length_takeFirst taken

theorem length_insert {lower upper free : List Span} {extent : Span}
    (fits : lower.length + upper.length ≤ capacity)
    (inserted : insert capacity lower extent upper = (.success, free)) :
    free.length ≤ capacity := by
  unfold insert at inserted
  simp only at inserted
  split at inserted
  next previous next left right =>
    cases inserted
    have some : lower ≠ [] := by
      rintro rfl
      cases left
    have pos := length_pos_of_ne_nil some
    simp only [length_append, length_dropLast, length_cons, length_tail]
    omega
  next previous left right =>
    cases inserted
    have some : lower ≠ [] := by
      rintro rfl
      cases left
    have pos := length_pos_of_ne_nil some
    simp only [length_append, length_dropLast, length_cons]
    omega
  next next left right =>
    cases inserted
    have some : upper ≠ [] := by
      rintro rfl
      cases right
    have pos := length_pos_of_ne_nil some
    simp only [length_append, length_cons, length_tail]
    omega
  rename_i left right
  split at inserted
  · cases inserted
  rename_i room
  cases inserted
  simp only [length_append, length_cons]
  omega

theorem length_release (fits : arena.free.length ≤ arena.extentCapacity) :
    (arena.release allocation).2.free.length ≤ arena.extentCapacity := by
  by_cases refused : (arena.release allocation).1 = .success
  · unfold release at refused ⊢
    split
    · exact fits
    rename_i own
    rw [if_neg own] at refused
    simp only at refused ⊢
    split
    · exact fits
    rename_i apart
    rw [if_neg apart] at refused
    split
    next inserted =>
      refine length_insert ?_ inserted
      rw [← length_append, List.takeWhile_append_dropWhile]
      exact fits
    · exact fits
  · rw [release_unchanged refused]
    exact fits

/-! ## Runs -/

/-- The live allocations are the used blocks of a partition of the arena, and whatever was
given back is a range of the arena. -/
structure Accounts (arena : SnapshotArena) (live released : List SnapshotAllocation)
    (blocks : List Block) : Prop where
  represents : arena.Represents blocks
  live : live.Perm (arena.live blocks)
  listed : arena.free.length ≤ arena.extentCapacity
  released : ∀ allocation ∈ released, 0 < allocation.size ∧
    arena.beginAddress ≤ allocation.address ∧
    allocation.address + allocation.size ≤ arena.endAddress

theorem Accounts.allocate (accounts : Accounts arena live freed blocks) (requested : Nat) :
    ∃ blocks', Accounts (arena.allocate requested).2
        (if SnapshotAllocation.Valid (arena.allocate requested).1 then
          (arena.allocate requested).1 :: live else live) freed blocks' ∧
      (arena.allocate requested).2.extentCapacity = arena.extentCapacity ∧
      (arena.allocate requested).2.beginAddress = arena.beginAddress ∧
      (arena.allocate requested).2.endAddress = arena.endAddress := by
  have spec := allocate_spec accounts.represents requested
  have shorter := @length_allocate arena requested
  generalize arena.allocate requested = result at spec shorter
  cases spec with
  | refused =>
    refine ⟨blocks, ?_, rfl, rfl, rfl⟩
    rw [if_neg SnapshotAllocation.not_valid_invalid]
    exact accounts
  | @granted allocation after blocks' represents range capacity granted enough =>
    have valid := represents.live_valid (granted.mem_iff.mpr mem_cons_self)
    refine ⟨blocks', ⟨represents, ?_, ?_, ?_⟩, capacity, range.1, range.2⟩
    · rw [if_pos valid]
      exact (accounts.live.cons allocation).trans granted.symm
    · rw [capacity]
      exact shorter.trans accounts.listed
    · simp only [range.1, range.2]
      exact accounts.released

theorem Accounts.release (accounts : Accounts arena live freed blocks) (mem : allocation ∈ live) :
    ∃ blocks', Accounts (arena.release allocation).2
        (if (arena.release allocation).1 = .success then live.erase allocation else live)
        (if (arena.release allocation).1 = .success then allocation :: freed else freed)
        blocks' ∧
      (arena.release allocation).2.extentCapacity = arena.extentCapacity ∧
      (arena.release allocation).2.beginAddress = arena.beginAddress ∧
      (arena.release allocation).2.endAddress = arena.endAddress := by
  have listed := @length_release arena allocation accounts.listed
  by_cases success : (arena.release allocation).1 = .success
  · have inUse := accounts.live.mem_iff.mp mem
    have bounds := accounts.represents.live_bounds inUse
    have pos := accounts.represents.proper.usedSpans_positive inUse
    obtain ⟨after, blocks', done, represents, begins, ends, capacity, others⟩ :=
      release_spec accounts.represents inUse (.inr success)
    rw [done] at listed ⊢
    refine ⟨blocks', ⟨represents, ?_, ?_, ?_⟩, capacity, begins, ends⟩
    · simp only [if_true]
      have erased := (accounts.live.trans others).erase allocation
      rwa [erase_cons_head] at erased
    · simp only [capacity]
      exact listed
    intro other given
    simp only [if_true, mem_cons] at given
    rw [begins, ends]
    rcases given with rfl | earlier
    · exact ⟨pos, bounds⟩
    · exact accounts.released other earlier
  · rw [if_neg success, if_neg success, release_unchanged success]
    exact ⟨blocks, accounts, rfl, rfl, rfl⟩

theorem Run.accounts (pos : 0 < capacity) (small : endAddress < 2 ^ 32)
    (run : Run capacity beginAddress endAddress arena live freed) :
    ∃ blocks, Accounts arena live freed blocks ∧ arena.extentCapacity = capacity ∧
      arena.beginAddress < arena.endAddress ∧ arena.endAddress < 2 ^ 32 := by
  induction run with
  | start taken =>
    obtain ⟨represents, same, room, below⟩ := represents_of_start taken
    refine ⟨_, ⟨represents, ?_, ?_, by simp⟩, same, room, by omega⟩
    · rw [SnapshotArena.live, usedSpans, usedSpans]
    · rw [represents.free, same]
      exact pos
  | allocate run requested ih =>
    obtain ⟨blocks, accounts, same, room, below⟩ := ih
    obtain ⟨blocks', later, capacity, begins, ends⟩ := accounts.allocate requested
    exact ⟨blocks', later, capacity.trans same, by rwa [begins, ends], by rwa [ends]⟩
  | release run mem ih =>
    obtain ⟨blocks, accounts, same, room, below⟩ := ih
    obtain ⟨blocks', later, capacity, begins, ends⟩ := accounts.release mem
    exact ⟨blocks', later, capacity.trans same, by rwa [begins, ends], by rwa [ends]⟩

/-- The state of an arena with the given live and returned allocations. -/
structure Sound (arena : SnapshotArena) (live released : List SnapshotAllocation) : Prop where
  placed : ∀ allocation ∈ live, allocation.address % arenaAlignment = 0 ∧
    arena.beginAddress ≤ allocation.address ∧
    allocation.address + allocation.size ≤ arena.endAddress
  sorted : arena.free.Pairwise fun left right => left.address + left.size < right.address
  nonempty : ∀ extent ∈ arena.free, 0 < extent.size
  apart : (arena.free ++ live).Pairwise Span.Apart
  covered : ∀ address, (∃ span ∈ arena.free ++ live, span.Contains address) ↔
    arena.beginAddress ≤ address ∧ address < arena.endAddress
  total : arena.allocated = totalSize live
  listed : arena.free.length ≤ live.length + 1 ∧ arena.free.length ≤ arena.extentCapacity
  releases : live.length < arena.extentCapacity → ∀ allocation ∈ live,
    (arena.release allocation).1 = .success
  restored : live = [] → arena.free = [⟨arena.beginAddress, arena.endAddress - arena.beginAddress⟩]
  allocates : ∀ requested, ¬ SnapshotAllocation.Valid (arena.allocate requested).1 ↔
    requested = 0 ∨ ∀ extent ∈ arena.free, extent.size < requested
  stale : ∀ allocation ∈ released, (∀ other ∈ live, other.Apart allocation) →
    arena.release allocation = (.invalidArgument, arena)

/-- Along every run the live allocations and the free extents partition the arena, and the
rest that is expected of it holds: an allocation that is not empty fails only for want of an
extent that is large enough. -/
theorem arena_partitioned (positive : 0 < capacity) (small : endAddress < 2 ^ 32)
    (run : Run capacity beginAddress endAddress arena live released) :
    arena.Sound live released := by
  obtain ⟨blocks, accounts, same, room, below⟩ := run.accounts positive small
  have represents := accounts.represents
  have proper := represents.proper
  have mem : ∀ {allocation}, allocation ∈ live ↔ allocation ∈ arena.live blocks :=
    accounts.live.mem_iff
  have bounded : ∀ span ∈ arena.free ++ live, arena.beginAddress ≤ span.address ∧
      span.address + span.size ≤ arena.endAddress := by
    intro span member
    rcases mem_append.mp member with free | inUse
    · rw [represents.free] at free
      have bounds := freeSpans_bounds free
      rwa [represents.range] at bounds
    · exact represents.live_bounds (mem.mp inUse)
  constructor
  case placed =>
    intro allocation member
    exact ⟨(represents.live_aligned (mem.mp member)).1, represents.live_bounds (mem.mp member)⟩
  case sorted =>
    rw [represents.free]
    exact proper.freeSpans_sorted
  case nonempty =>
    rw [represents.free]
    exact fun extent member => proper.freeSpans_positive member
  case apart =>
    rw [pairwise_append, represents.free]
    refine ⟨?_, ?_, ?_⟩
    · exact proper.freeSpans_sorted.imp fun before => .inl (Nat.le_of_lt before)
    · have distinct : live.Nodup := accounts.live.nodup_iff.mpr proper.usedSpans_nodup
      refine distinct.imp_of_mem fun left right different => ?_
      exact Represents.live_apart (mem.mp left) (mem.mp right) different
    · exact fun extent free other inUse => freeSpans_apart_usedSpans free (mem.mp inUse)
  case covered =>
    intro address
    constructor
    · rintro ⟨span, member, low, high⟩
      have bounds := bounded span member
      omega
    rintro ⟨low, high⟩
    rw [← represents.range] at high
    rcases exists_contains low high with ⟨span, member, inside⟩ | ⟨span, member, inside⟩
    · rw [← represents.free] at member
      exact ⟨span, mem_append_left _ member, inside⟩
    · exact ⟨span, mem_append_right _ (mem.mpr member), inside⟩
  case total =>
    rw [represents.allocated, totalSize, totalSize]
    exact ((accounts.live.map Span.size).sum_nat).symm
  case listed =>
    refine ⟨?_, accounts.listed⟩
    rw [represents.free, accounts.live.length_eq]
    exact proper.length_freeSpans_le
  case releases =>
    intro few allocation member
    rw [accounts.live.length_eq] at few
    obtain ⟨after, blocks', done, -⟩ :=
      release_spec represents (mem.mp member) (.inl (Nat.le_of_lt few))
    rw [done]
  case restored =>
    rintro rfl
    have none : usedSpans arena.beginAddress blocks = [] := perm_nil.mp accounts.live.symm
    have range := represents.range
    rw [represents.free, proper.freeSpans_of_usedSpans_nil (by omega) none]
    congr 2
    omega
  case allocates => exact fun requested => represents.allocate_fails_iff below
  case stale =>
    intro allocation given apart
    obtain ⟨positive, low, high⟩ := accounts.released allocation given
    exact represents.release_rejected positive low high fun other member =>
      apart other (mem.mpr member)

/-- An arena of four hundred bytes. -/
def small : SnapshotArena := (({ extentCapacity := 2 } : SnapshotArena).start 16 416).2

/-- Two allocations in it. -/
theorem arena_partitioned_small :
    let first := small.allocate 100
    let second := first.2.allocate 50
    first.1 = ⟨16, 112⟩ ∧ second.1 = ⟨128, 64⟩ ∧ second.2.free = [⟨192, 224⟩] ∧
      Sound second.2 [second.1, first.1] [] := by
  refine ⟨by decide +kernel, by decide +kernel, by decide +kernel, ?_⟩
  have started : Run 2 16 416 small [] [] := .start (by decide +kernel)
  have run := (started.allocate 100).allocate 50
  rw [if_pos (by decide +kernel), if_pos (by decide +kernel)] at run
  exact arena_partitioned (by decide) (by decide) run

/-- An empty allocation fails although all is free. -/
theorem empty_allocation_fails :
    Run 2 16 416 small [] [] ∧ small.free = [⟨16, 400⟩] ∧
      ¬ SnapshotAllocation.Valid (small.allocate 0).1 :=
  ⟨.start (by decide +kernel), by decide +kernel, by decide +kernel⟩

end SnapshotArena
end Mikos.Process
