import Mikos.Library.Partition
import Mikos.Process.Basic

/-!
# The arena of memory snapshots

Suspended processes keep the bytes of their private memory in one arena, each in an
allocation of its exact size.  The arena keeps a sorted list of its free extents, at most
`extentCapacity` of them; neighbouring extents are merged.

What the arena is for is a partition of its range into free and used blocks, which its free
list represents.
-/

namespace Mikos.Process
open Library List

/-- A range of the arena; the default one is invalid. -/
abbrev SnapshotAllocation := Span

namespace SnapshotAllocation

def invalid : SnapshotAllocation := ⟨0, 0⟩

def Valid (allocation : SnapshotAllocation) : Prop :=
  allocation.address ≠ 0 ∧ allocation.size ≠ 0
deriving Decidable

theorem not_valid_invalid : ¬ Valid invalid := by decide

end SnapshotAllocation

inductive SnapshotArenaStatus where
  | success | noSpace | invalidArgument
  deriving DecidableEq, Repr

/-- Alignment of addresses and sizes. -/
def arenaAlignment : Nat := 16

structure SnapshotArena where
  extentCapacity : Nat := 64
  free : List Span := []
  beginAddress : Nat := 0
  endAddress : Nat := 0
  allocated : Nat := 0
  deriving DecidableEq, Repr

namespace SnapshotArena

/-- Bring the arena into use. -/
def start (arena : SnapshotArena) (beginAddress endAddress : Nat) :
    SnapshotArenaStatus × SnapshotArena :=
  let beginAddress := alignUp beginAddress arenaAlignment
  let endAddress := alignDown endAddress arenaAlignment
  if beginAddress = 0 ∨ endAddress ≤ beginAddress then
    (.invalidArgument, arena)
  else
    (.success,
      { arena with
        free := [⟨beginAddress, endAddress - beginAddress⟩]
        beginAddress
        endAddress
        allocated := 0 })

/-- Take the start of the first extent that is large enough. -/
def takeFirst (size : Nat) : List Span → Option (Nat × List Span)
  | [] => none
  | extent :: rest =>
    if extent.size < size then
      (takeFirst size rest).map fun (address, rest) => (address, extent :: rest)
    else if extent.size - size = 0 then
      some (extent.address, rest)
    else
      some (extent.address, ⟨extent.address + size, extent.size - size⟩ :: rest)

def allocate (arena : SnapshotArena) (requested : Nat) : SnapshotAllocation × SnapshotArena :=
  if requested = 0 ∨ arena.beginAddress = 0 ∨ 2 ^ 32 - 1 - (arenaAlignment - 1) < requested then
    (.invalid, arena)
  else
    let size := alignUp requested arenaAlignment
    if size < requested then
      (.invalid, arena)
    else
      match takeFirst size arena.free with
      | none => (.invalid, arena)
      | some (address, free) =>
        (⟨address, size⟩, { arena with free, allocated := arena.allocated + size })

/-- Allocations the arena cannot have handed out. -/
def Foreign (arena : SnapshotArena) (allocation : SnapshotAllocation) : Prop :=
  ¬ SnapshotAllocation.Valid allocation ∨ arena.beginAddress = 0 ∨
    allocation.address % arenaAlignment ≠ 0 ∨ allocation.size % arenaAlignment ≠ 0 ∨
    allocation.address < arena.beginAddress ∨ arena.endAddress ≤ allocation.address ∨
    arena.endAddress - allocation.address < allocation.size ∨ arena.allocated < allocation.size
deriving Decidable

/-- The free extents after an extent between `lower` and `upper` was given back. -/
def insert (capacity : Nat) (lower : List Span) (extent : Span) (upper : List Span) :
    SnapshotArenaStatus × List Span :=
  let mergePrevious := lower.getLast?.filter fun previous =>
    previous.address + previous.size = extent.address
  let mergeNext := upper.head?.filter fun next => extent.address + extent.size = next.address
  match mergePrevious, mergeNext with
  | some previous, some next =>
    (.success, lower.dropLast ++
      ⟨previous.address, previous.size + extent.size + next.size⟩ :: upper.tail)
  | some previous, none =>
    (.success, lower.dropLast ++ ⟨previous.address, previous.size + extent.size⟩ :: upper)
  | none, some next => (.success, lower ++ ⟨extent.address, next.size + extent.size⟩ :: upper.tail)
  | none, none =>
    if lower.length + upper.length = capacity then (.noSpace, lower ++ upper)
    else (.success, lower ++ extent :: upper)

def release (arena : SnapshotArena) (allocation : SnapshotAllocation) :
    SnapshotArenaStatus × SnapshotArena :=
  if arena.Foreign allocation then
    (.invalidArgument, arena)
  else
    let lower := arena.free.takeWhile fun extent => extent.address < allocation.address
    let upper := arena.free.dropWhile fun extent => extent.address < allocation.address
    if (lower.getLast?.any fun previous => allocation.address < previous.address + previous.size) ∨
        (upper.head?.any fun next => next.address < allocation.address + allocation.size) then
      (.invalidArgument, arena)
    else
      match insert arena.extentCapacity lower allocation upper with
      | (.success, free) =>
        (.success, { arena with free, allocated := arena.allocated - allocation.size })
      | (status, _) => (status, arena)

/-! ## The partition -/

/-- The free list is that of a partition of the arena. -/
structure Represents (arena : SnapshotArena) (blocks : List Block) : Prop where
  proper : Proper blocks
  free : arena.free = freeSpans arena.beginAddress blocks
  range : arena.beginAddress + extent blocks = arena.endAddress
  allocated : arena.allocated = totalSize (usedSpans arena.beginAddress blocks)
  placed : 0 < arena.beginAddress
  aligned : arena.beginAddress % arenaAlignment = 0
  sizes : ∀ block ∈ blocks, block.size % arenaAlignment = 0

def live (arena : SnapshotArena) (blocks : List Block) : List SnapshotAllocation :=
  usedSpans arena.beginAddress blocks

variable {arena : SnapshotArena} {blocks : List Block} {allocation : SnapshotAllocation}

namespace Represents
section
variable (represents : arena.Represents blocks) (mem : allocation ∈ arena.live blocks)
include represents mem

theorem live_bounds :
    arena.beginAddress ≤ allocation.address ∧
      allocation.address + allocation.size ≤ arena.endAddress := by
  have bounds := usedSpans_bounds mem
  rw [represents.range] at bounds
  exact bounds

theorem live_valid : SnapshotAllocation.Valid allocation := by
  have bounds := represents.live_bounds mem
  have pos := represents.proper.usedSpans_positive mem
  have placed := represents.placed
  exact ⟨by omega, by omega⟩

theorem live_aligned :
    allocation.address % arenaAlignment = 0 ∧ allocation.size % arenaAlignment = 0 := by
  obtain ⟨before, after, rfl, place⟩ := mem_usedSpans.mp mem
  have sizes := represents.sizes
  refine ⟨?_, sizes (.used allocation.size) (by simp)⟩
  rw [place, Nat.add_mod, represents.aligned, extent_mod fun block inside =>
    sizes block (by simp [inside])]
  rfl

end

theorem live_apart (mem : allocation ∈ arena.live blocks)
    (otherMember : other ∈ arena.live blocks) (apart : allocation ≠ other) :
    allocation.address + allocation.size ≤ other.address ∨
      other.address + other.size ≤ allocation.address :=
  usedSpans_apart mem otherMember apart

end Represents

theorem represents_start {beginAddress endAddress : Nat} (placed : 0 < beginAddress)
    (small : beginAddress + arenaAlignment - 1 < 2 ^ 32)
    (room : alignUp beginAddress arenaAlignment < alignDown endAddress arenaAlignment) :
    (({} : SnapshotArena).start beginAddress endAddress).2.Represents
        [.free (alignDown endAddress arenaAlignment - alignUp beginAddress arenaAlignment)] := by
  have above : beginAddress ≤ alignUp beginAddress arenaAlignment := le_alignUp (by decide) small
  rw [start, if_neg (by omega)]
  refine ⟨⟨?_, ?_⟩, rfl, ?_, rfl, ?_, alignUp_mod .., ?_⟩
  · simp only [mem_singleton, forall_eq, Block.size]
    omega
  · simp
  · simp only [extent_cons, extent_nil, Block.size]
    omega
  · simp only
    omega
  · simp only [mem_singleton, forall_eq, Block.size]
    exact Nat.sub_mod_eq_zero_of_mod_eq (by rw [alignUp_mod, alignDown_mod])

/-! ## Allocating -/

theorem takeFirst_spec {free : List Span}
    (taken : takeFirst size (freeSpans address blocks) = some (place, free)) :
    ∃ before width after, blocks = before ++ .free width :: after ∧ size ≤ width ∧
      place = address + extent before ∧
      free = freeSpans address (before ++ carve size width ++ after) := by
  induction blocks generalizing address free with
  | nil => cases taken
  | cons block rest ih =>
    cases block with
    | used width =>
      obtain ⟨before, width', after, split, fits, same, left⟩ := ih taken
      refine ⟨.used width :: before, width', after, by rw [split]; rfl, fits, ?_, ?_⟩
      · simp [same, Block.size, Nat.add_assoc]
      · rw [left]
        rfl
    | free width =>
      rw [freeSpans, takeFirst] at taken
      split at taken
      next narrow =>
        obtain ⟨⟨place', free'⟩, found, same⟩ := Option.map_eq_some_iff.mp taken
        cases same
        obtain ⟨before, width', after, split, fits, same, left⟩ := ih found
        refine ⟨.free width :: before, width', after, by rw [split]; rfl, fits, ?_, ?_⟩
        · simp [same, Block.size, Nat.add_assoc]
        · rw [left]
          rfl
      rename_i wide
      refine ⟨[], width, rest, rfl, by simpa using wide, ?_, ?_⟩
      · split at taken <;> cases taken <;> rfl
      rw [freeSpans_carve (by simpa using wide)]
      simp only at wide taken
      split at taken
      next exact =>
        cases taken
        rw [if_pos (by omega)]
        simp [freeSpans]
      rename_i more
      cases taken
      rw [if_neg (by omega)]
      simp [freeSpans]

inductive Allocates (arena : SnapshotArena) (blocks : List Block) (requested : Nat) :
    SnapshotAllocation × SnapshotArena → Prop where
  | refused : Allocates arena blocks requested (.invalid, arena)
  | granted {allocation : SnapshotAllocation} {after : SnapshotArena} {blocks' : List Block}
      (represents : after.Represents blocks')
      (range : after.beginAddress = arena.beginAddress ∧ after.endAddress = arena.endAddress)
      (capacity : after.extentCapacity = arena.extentCapacity)
      (live : (after.live blocks').Perm (allocation :: arena.live blocks))
      (enough : requested ≤ allocation.size) :
      Allocates arena blocks requested (allocation, after)

theorem allocate_spec (represents : arena.Represents blocks) (requested : Nat) :
    Allocates arena blocks requested (arena.allocate requested) := by
  unfold allocate
  split
  · exact .refused
  rename_i accepted
  simp only
  split
  · exact .refused
  rename_i enough
  cases taken : takeFirst (alignUp requested arenaAlignment) arena.free with
  | none => exact .refused
  | some found =>
    obtain ⟨address, free⟩ := found
    rw [represents.free] at taken
    obtain ⟨before, width, after, rfl, fits, rfl, rfl⟩ := takeFirst_spec taken
    have pos : 0 < alignUp requested arenaAlignment := by omega
    have carved : ((⟨arena.beginAddress + extent before,
        alignUp requested arenaAlignment⟩ : SnapshotAllocation) ::
          arena.live (before ++ .free width :: after)).Perm
        (usedSpans arena.beginAddress
          (before ++ carve (alignUp requested arenaAlignment) width ++ after)) := by
      rw [usedSpans_carve fits, live, usedSpans_append, usedSpans]
      exact perm_middle.symm
    refine .granted ⟨represents.proper.carve pos fits, rfl, ?_, ?_,
      represents.placed, represents.aligned, ?_⟩ ⟨rfl, rfl⟩ rfl carved.symm
      (Nat.not_lt.mp enough)
    · have range := represents.range
      simp only [extent_append, extent_cons, Block.size, extent_carve fits] at range ⊢
      omega
    · rw [totalSize, ← (carved.map Span.size).sum_nat, represents.allocated]
      simp [totalSize, live, Nat.add_comm]
    intro block mem
    have sizes := represents.sizes
    rw [mem_append, mem_append] at mem
    rcases mem with (inBefore | inCarved) | inAfter
    · exact sizes block (by simp [inBefore])
    · have aligned := alignUp_mod requested arenaAlignment
      have whole := sizes (.free width) (by simp)
      simp only [Block.size] at whole
      rw [carve] at inCarved
      split at inCarved
      · obtain rfl := mem_singleton.mp inCarved
        exact aligned
      · simp only [mem_cons, not_mem_nil, or_false] at inCarved
        rcases inCarved with rfl | rfl
        · exact aligned
        · exact Nat.sub_mod_eq_zero_of_mod_eq (by rw [aligned, whole])
    · exact sizes block (by simp [inAfter])

/-! ## Giving back -/

variable {before after : List Block} {address size capacity : Nat}

theorem takeWhile_append_dropWhile {lower upper : List Span} {place : Nat}
    (below : ∀ extent ∈ lower, extent.address < place)
    (above : ∀ extent ∈ upper, place ≤ extent.address) :
    (lower ++ upper).takeWhile (fun extent => extent.address < place) = lower ∧
      (lower ++ upper).dropWhile (fun extent => extent.address < place) = upper := by
  induction lower with
  | nil =>
    cases upper with
    | nil => exact ⟨rfl, rfl⟩
    | cons first rest =>
      have high := above first mem_cons_self
      simp [Nat.not_lt.mpr high]
  | cons first rest ih =>
    have low := below first mem_cons_self
    have both := ih fun extent mem => below extent (mem_cons_of_mem _ mem)
    simp [low, both]

theorem filter_getLast (pos : ∀ block ∈ before, 0 < block.size) :
    ((freeSpans address before).getLast?.filter (fun previous =>
        previous.address + previous.size = address + extent before) = none ∧
      (cutLast before).1 = before ∧ (cutLast before).2 = 0) ∨
    ((freeSpans address before).getLast?.filter (fun previous =>
        previous.address + previous.size = address + extent before) =
          some ⟨address + extent (cutLast before).1, (cutLast before).2⟩ ∧
      (freeSpans address before).dropLast = freeSpans address (cutLast before).1) := by
  have ends := extent_cutLast before
  rcases @freeSpans_getLast address before pos with ⟨whole, none, apart⟩ | split
  · refine .inl ⟨?_, whole, none⟩
    rw [Option.filter_eq_none_iff]
    intro span last same
    have below := apart span last
    simp only [decide_eq_true_eq] at same
    omega
  refine .inr ⟨?_, ?_⟩
  · rw [split, getLast?_append]
    simp only [getLast?_singleton, Option.some_or, Option.filter_some]
    rw [if_pos (by simp only [decide_eq_true_eq]; omega)]
  · rw [split, dropLast_concat]

theorem filter_head (pos : ∀ block ∈ after, 0 < block.size) :
    ((freeSpans address after).head?.filter (fun next => address = next.address) = none ∧
      (cutHead after).2 = after ∧ (cutHead after).1 = 0) ∨
    ((freeSpans address after).head?.filter (fun next => address = next.address) =
        some ⟨address, (cutHead after).1⟩ ∧
      (freeSpans address after).tail =
        freeSpans (address + (cutHead after).1) (cutHead after).2) := by
  rcases @freeSpans_head address after pos with ⟨whole, none, apart⟩ | split
  · refine .inl ⟨?_, whole, none⟩
    rw [Option.filter_eq_none_iff]
    intro span first same
    have above := apart span first
    simp only [decide_eq_true_eq] at same
    omega
  · refine .inr ⟨?_, by rw [split]; rfl⟩
    rw [split]
    simp

/-- Giving a used block back to the free list of its arena joins it with its neighbours, if
there is room in the list or no refusal. -/
theorem insert_spec (proper : Proper (before ++ .used size :: after))
    (room : ((cutLast before).1 = before → (cutHead after).2 = after →
        (freeSpans address before).length +
          (freeSpans (address + extent before + size) after).length ≠ capacity) ∨
      (insert capacity (freeSpans address before) ⟨address + extent before, size⟩
        (freeSpans (address + extent before + size) after)).1 = .success) :
    insert capacity (freeSpans address before) ⟨address + extent before, size⟩
        (freeSpans (address + extent before + size) after) =
      (.success, freeSpans address (join before size after)) := by
  rw [freeSpans_join, insert]
  rcases @filter_getLast before address fun block mem => proper.positive block (by simp [mem]) with
    ⟨none, whole, zero⟩ | ⟨some, rest⟩ <;>
  rcases @filter_head after (address + extent before + size)
      fun block mem => proper.positive block (by simp [mem]) with
    ⟨none', whole', zero'⟩ | ⟨some', rest'⟩
  · have spare : (freeSpans address before).length +
        (freeSpans (address + extent before + size) after).length ≠ capacity := by
      rcases room with room | success
      · exact room whole whole'
      · intro full
        simp only [insert, none, none', if_pos full] at success
        cases success
    rw [none, none', if_neg spare, whole, whole', zero, zero']
    simp
  · rw [none, some', rest', whole, zero]
    simp [Nat.add_comm]
  · rw [some, none', rest, whole', zero']
    simp
  · rw [some, some', rest, rest']

/-- There is room in the free list for a block that has no free neighbour. -/
theorem room_of_few (proper : Proper (before ++ .used size :: after))
    (few : (usedSpans address (before ++ .used size :: after)).length ≤ capacity)
    (whole : (cutLast before).1 = before) (whole' : (cutHead after).2 = after) :
    (freeSpans address before).length +
      (freeSpans (address + extent before + size) after).length ≠ capacity := by
  have zero' : (cutHead after).1 = 0 := by
    have extents := extent_cutHead after
    rw [whole'] at extents
    omega
  have bound := @Proper.length_freeSpans_le address _ proper.join
  rw [usedSpans_join, freeSpans_join, whole, whole', zero'] at bound
  rw [usedSpans_append, usedSpans] at few
  simp only [length_append, length_cons, Nat.add_zero] at bound few
  omega

theorem not_foreign (represents : arena.Represents blocks) (mem : allocation ∈ arena.live blocks) :
    ¬ arena.Foreign allocation := by
  have valid := represents.live_valid mem
  have bounds := represents.live_bounds mem
  have pos := represents.proper.usedSpans_positive mem
  have placed := represents.placed
  obtain ⟨start, aligned⟩ := represents.live_aligned mem
  obtain ⟨before, after, rfl, place⟩ := mem_usedSpans.mp mem
  have fits : allocation.size ≤ arena.allocated := by
    rw [represents.allocated, usedSpans_append, usedSpans]
    simp only [totalSize, map_append, map_cons, sum_append, sum_cons]
    omega
  simp only [Foreign, valid, start, aligned, not_true, ne_eq, false_or]
  omega

/-- Giving back an allocation in use succeeds unless there are many of them, and then the
others are left. -/
theorem release_spec (represents : arena.Represents blocks) (mem : allocation ∈ arena.live blocks)
    (possible : (arena.live blocks).length ≤ arena.extentCapacity ∨
      (arena.release allocation).1 = .success) :
    ∃ after blocks', arena.release allocation = (.success, after) ∧ after.Represents blocks' ∧
      after.beginAddress = arena.beginAddress ∧ after.endAddress = arena.endAddress ∧
      after.extentCapacity = arena.extentCapacity ∧
      (arena.live blocks).Perm (allocation :: after.live blocks') := by
  have own := not_foreign represents mem
  obtain ⟨before, after, rfl, place⟩ := mem_usedSpans.mp mem
  obtain ⟨address, size⟩ := allocation
  simp only at place
  subst place
  have sizes := represents.sizes
  have lowPositive : ∀ block ∈ before, 0 < block.size := fun block inside =>
    represents.proper.positive block (by simp [inside])
  have below : ∀ extent ∈ freeSpans arena.beginAddress before,
      extent.address < arena.beginAddress + Library.extent before :=
    fun extent inside => freeSpans_lt lowPositive inside
  have above : ∀ extent ∈ freeSpans (arena.beginAddress + Library.extent before + size) after,
      arena.beginAddress + Library.extent before ≤ extent.address := by
    intro extent inside
    have bounds := freeSpans_bounds inside
    omega
  have parts := takeWhile_append_dropWhile below above
  have split : arena.free = freeSpans arena.beginAddress before ++
      freeSpans (arena.beginAddress + Library.extent before + size) after := by
    rw [represents.free, freeSpans_append, freeSpans]
  have inOrder : ¬ ((freeSpans arena.beginAddress before).getLast?.any (fun previous =>
        arena.beginAddress + Library.extent before < previous.address + previous.size) ∨
      (freeSpans (arena.beginAddress + Library.extent before + size) after).head?.any fun next =>
        next.address < arena.beginAddress + Library.extent before + size) := by
    simp only [not_or, Bool.not_eq_true, Option.any_eq_false, decide_eq_false_iff_not, Nat.not_lt]
    constructor
    · intro previous last
      exact (freeSpans_bounds (mem_of_getLast? last)).2
    · intro next first
      exact (freeSpans_bounds (mem_of_mem_head? first)).1
  have inserted := insert_spec represents.proper
    (possible.imp (room_of_few represents.proper) fun success => by
      rw [release, if_neg own] at success
      simp only at success
      rw [split, parts.1, parts.2, if_neg inOrder] at success
      generalize insert _ _ _ _ = attempt at success ⊢
      obtain ⟨status, free⟩ := attempt
      cases status with
      | success => rfl
      | noSpace => cases success
      | invalidArgument => cases success)
  have joined : (arena.live (before ++ .used size :: after)).Perm
      (⟨arena.beginAddress + Library.extent before, size⟩ ::
        usedSpans arena.beginAddress (join before size after)) := by
    rw [live, usedSpans_append, usedSpans, usedSpans_join]
    exact perm_middle
  refine ⟨{ arena with
      free := freeSpans arena.beginAddress (join before size after)
      allocated := arena.allocated - size }, join before size after, ?_,
    ⟨represents.proper.join, rfl, ?_, ?_, represents.placed, represents.aligned, ?_⟩, rfl, rfl, rfl,
    joined⟩
  · rw [release, if_neg own]
    rw [split, parts.1, parts.2, if_neg inOrder, inserted]
  · have range := represents.range
    simp only [extent_append, extent_cons, Block.size, extent_join] at range ⊢
    omega
  · have total := (joined.map Span.size).sum_nat
    have allocated := represents.allocated
    rw [totalSize] at allocated ⊢
    simp only [live, map_cons, sum_cons] at total allocated ⊢
    omega
  · exact join_mod (fun block inside => sizes block (by simp [inside]))
      (sizes (.used size) (by simp)) fun block inside => sizes block (by simp [inside])

end SnapshotArena
end Mikos.Process
