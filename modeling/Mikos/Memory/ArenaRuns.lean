import Mikos.Library.Packing
import Mikos.Memory.Regions

/-!
# Runs of the memory arena

Along every run of allocations and releases the blocks tile the storage, and every region that
is live lies in a block of its own.
-/

namespace Mikos.Memory
open Library List
variable {target : Target} {storage bytes alignment pointer start : Nat} {arena : Arena}
  {live : List Region} {cell : Cell} {cells left right : List Cell}

def Region.span (region : Region) : Span := ⟨region.pointer, region.bytes⟩

def regions (cells : List Cell) : List Region := cells.filterMap Cell.region

def usedExtent (cells : List Cell) : Nat := extent (cells.filter fun cell => cell.region.isSome)

/-- An arena that was brought into use, and the regions that live in it. -/
inductive Run (target : Target) (storage bytes : Nat) : Arena → List Region → Prop where
  | start {headers : Nat → Option Header} {arena : Arena}
      (accepted : ({ headers } : Arena).start target storage bytes = (true, arena)) :
      Run target storage bytes arena []
  | allocate {arena : Arena} {live : List Region} (run : Run target storage bytes arena live)
      (requested alignment : Nat) :
      Run target storage bytes (arena.tryAllocate target requested alignment).2
        (if (arena.tryAllocate target requested alignment).1 = 0 then live else
          ⟨(arena.tryAllocate target requested alignment).1, requested, alignment⟩ :: live)
  | release {arena : Arena} {live : List Region} (run : Run target storage bytes arena live)
      (pointer : Nat) :
      Run target storage bytes (arena.release target pointer).2
        (if (arena.release target pointer).1 = true then
          live.filter fun region => region.pointer ≠ pointer else live)

/-! ## Lists of cells -/

@[simp]
theorem regions_nil : regions [] = [] := rfl

@[simp]
theorem regions_append : regions (left ++ right) = regions left ++ regions right := filterMap_append

@[simp]
theorem regions_cons_none : regions (⟨size, none⟩ :: cells) = regions cells := rfl

@[simp]
theorem regions_cons_some : regions (⟨size, some region⟩ :: cells) = region :: regions cells := rfl

@[simp]
theorem usedExtent_nil : usedExtent [] = 0 := rfl

@[simp]
theorem usedExtent_append : usedExtent (left ++ right) = usedExtent left + usedExtent right := by
  simp [usedExtent]

@[simp]
theorem usedExtent_cons_none : usedExtent (⟨size, none⟩ :: cells) = usedExtent cells := rfl

@[simp]
theorem usedExtent_cons_some :
    usedExtent (⟨size, some region⟩ :: cells) = size + usedExtent cells := by
  simp [usedExtent]

theorem Spare.regions (spare : Spare cells) : regions cells = [] := by
  rcases spare with rfl | ⟨size, rfl⟩ <;> rfl

theorem Spare.usedExtent (spare : Spare cells) : usedExtent cells = 0 := by
  rcases spare with rfl | ⟨size, rfl⟩ <;> rfl

theorem Leaves.spare (leaves : Leaves target bytes size cells) : Spare cells := by
  rcases leaves with ⟨rfl, -⟩ | ⟨rfl, -⟩
  · exact .inl rfl
  · exact .inr ⟨_, rfl⟩

theorem separated_iff : Separated (left ++ cell :: right) ↔
    Separated left ∧ Separated right ∧
      (cell.isFree → Closed left.getLast? ∧ Closed right.head?) := by
  rw [Separated, isChain_append, isChain_cons]
  constructor
  · rintro ⟨before, ⟨next, behind⟩, last⟩
    refine ⟨before, behind, fun free => ⟨?_, ?_⟩⟩
    · exact fun other mem both => last other mem cell rfl ⟨both, free⟩
    · exact fun other mem both => next other mem ⟨free, both⟩
  rintro ⟨before, behind, closed⟩
  refine ⟨before, ⟨fun other mem both => ?_, behind⟩, ?_⟩
  · exact (closed both.1).2 other mem both.2
  · rintro other mem _ ⟨⟩ both
    exact (closed both.2).1 other mem both.1

theorem placed_pairwise : (placed start cells).Pairwise fun first second =>
    first.1 + first.2.bytes ≤ second.1 := by
  induction cells generalizing start with
  | nil => exact List.Pairwise.nil
  | cons cell rest ih =>
    rw [placed, pairwise_cons]
    exact ⟨fun item mem => (placed_bounds mem).1, ih⟩

theorem placed_order (left : first ∈ placed start cells) (right : second ∈ placed start cells)
    (apart : first ≠ second) :
    first.1 + first.2.bytes ≤ second.1 ∨ second.1 + second.2.bytes ≤ first.1 := by
  let Apart (first second : Nat × Cell) : Prop :=
    first.1 + first.2.bytes ≤ second.1 ∨ second.1 + second.2.bytes ≤ first.1
  have symmetric : Std.Symm Apart := ⟨fun _ _ => Or.symm⟩
  have either : (placed start cells).Pairwise Apart := placed_pairwise.imp Or.inl
  exact either.forall left right apart

theorem regions_eq_placed : regions cells = (placed start cells).filterMap (·.2.region) := by
  induction cells generalizing start with
  | nil => rfl
  | cons cell rest ih =>
    have later := @ih (start + cell.bytes)
    rw [regions] at later ⊢
    rw [placed, filterMap_cons, filterMap_cons, later]

theorem mem_regions {region : Region} :
    region ∈ regions cells ↔ ∃ item ∈ placed start cells, region ∈ item.2.region := by
  rw [@regions_eq_placed start, mem_filterMap]
  rfl

theorem length_le_extent (positive : ∀ cell ∈ cells, 0 < cell.bytes) :
    cells.length ≤ extent cells := by
  induction cells with
  | nil => simp
  | cons cell rest ih =>
    have first := positive cell mem_cons_self
    have later := ih fun other mem => positive other (mem_cons_of_mem _ mem)
    simp only [length_cons, extent_cons]
    omega

/-! ## The invariant -/

/-- The cells stand for the blocks of the arena and for the live regions. -/
structure Divided (target : Target) (storage bytes : Nat) (arena : Arena) (live : List Region)
    (cells : List Cell) : Prop where
  listed : Lists arena.headers arena.head storage cells 0
  exact : extent cells = bytes
  limit : storage + bytes ≤ target.usizeMax
  nonempty : 0 < bytes
  sized : ∀ cell ∈ cells, target.sizeofBlock ≤ cell.bytes
  aligned : ∀ item ∈ placed storage cells, item.1 % target.alignofBlock = 0
  holds : ∀ item ∈ placed storage cells, ∀ region ∈ item.2.region,
    Holds target item.1 item.2.bytes region
  separated : Separated cells
  used : arena.used = usedExtent cells
  allocations : arena.allocations = live.length
  live : live.Perm (regions cells)

theorem divided_of_start
    (taken : ({ headers } : Arena).start target storage bytes = (true, arena)) :
    Divided target storage bytes arena [] [⟨bytes, none⟩] := by
  have some := sizeofBlock_pos target
  rw [Arena.start] at taken
  split at taken
  · cases taken
  rename_i allowed
  simp only [not_or, ne_eq, Classical.not_not, Nat.not_lt] at allowed
  obtain ⟨-, nonzero, least, aligned, room⟩ := allowed
  cases taken
  constructor
  case listed =>
    exact lists_cons.mpr ⟨rfl, nonzero, _, Function.update_self .., rfl, rfl⟩
  case exact => simp
  case limit => omega
  case nonempty => omega
  case sized => simpa using least
  case aligned => simpa [placed] using aligned
  case holds => simp [placed]
  case separated => exact isChain_singleton _
  case live => exact List.Perm.refl _
  case used => rfl
  case allocations => rfl

namespace Divided
section
variable (divided : Divided target storage bytes arena live cells)
include divided

theorem positive :
    ∀ cell ∈ cells, 0 < cell.bytes := fun cell mem =>
  Nat.lt_of_lt_of_le (sizeofBlock_pos target) (divided.sized cell mem)

theorem known : ∀ cell ∈ cells, cell.piece.user = 0 → cell.isFree := by
  intro cell mem null
  by_contra taken
  obtain ⟨region, found⟩ := Option.ne_none_iff_exists'.mp taken
  have inside : region ∈ regions cells := mem_filterMap.mpr ⟨cell, mem, found⟩
  obtain ⟨item, place, within⟩ := (@mem_regions storage cells region).mp inside
  have behind := (divided.holds item place region within).behind
  have some := sizeofBlock_pos target
  rw [Cell.piece, found] at null
  exact absurd null (by simp; omega)

theorem length_le : cells.length ≤ 2 ^ target.usizeBits := by
  have count := length_le_extent divided.positive
  have limit := divided.limit
  have small := usizeMax_lt target
  rw [divided.exact] at count
  omega

theorem pointers : (regions cells).Pairwise fun first second => first.span.Apart second.span := by
  have follows := @placed_pairwise storage cells
  rw [@regions_eq_placed storage, pairwise_filterMap]
  refine follows.imp_of_mem fun {first second} left right order region found region' found' => ?_
  have inside := (divided.holds first left region found).inside
  have behind := (divided.holds second right region' found').behind
  exact .inl (by simp only [Region.span]; omega)

end

/-- One part of the cells is replaced by another one of the same extent. -/
theorem replace {middle middle' : List Cell} {live' : List Region} {after : Arena}
    (divided : Divided target storage bytes arena live (left ++ (middle ++ right)))
    (listed : Lists after.headers after.head storage (left ++ (middle' ++ right)) 0)
    (extent_eq : extent middle' = extent middle)
    (sized : ∀ cell ∈ middle', target.sizeofBlock ≤ cell.bytes)
    (aligned : ∀ item ∈ placed (storage + extent left) middle', item.1 % target.alignofBlock = 0)
    (holds : ∀ item ∈ placed (storage + extent left) middle', ∀ region ∈ item.2.region,
      Holds target item.1 item.2.bytes region) (separated : Separated (left ++ (middle' ++ right)))
    (used : after.used + usedExtent middle = arena.used + usedExtent middle')
    (allocations : after.allocations = live'.length)
    (live : live'.Perm (regions left ++ (regions middle' ++ regions right))) :
    Divided target storage bytes after live' (left ++ (middle' ++ right)) := by
  have placement : ∀ item ∈ placed storage (left ++ (middle' ++ right)),
      item ∈ placed (storage + extent left) middle' ∨
        item ∈ placed storage (left ++ (middle ++ right)) := by
    intro item mem
    simp only [placed_append, mem_append, extent_eq] at mem ⊢
    tauto
  constructor
  case listed => exact listed
  case exact => simpa [extent_eq] using divided.exact
  case limit => exact divided.limit
  case nonempty => exact divided.nonempty
  case sized =>
    intro cell mem
    simp only [mem_append] at mem
    rcases mem with before | inner | behind
    · exact divided.sized cell (mem_append_left _ before)
    · exact sized cell inner
    · exact divided.sized cell (mem_append_right _ (mem_append_right _ behind))
  case aligned =>
    exact fun item mem => (placement item mem).elim (aligned item) (divided.aligned item)
  case holds =>
    exact fun item mem => (placement item mem).elim (holds item) (divided.holds item)
  case separated => exact separated
  case used =>
    have before := divided.used
    simp only [usedExtent_append] at before ⊢
    omega
  case allocations => exact allocations
  case live => simpa using live

/-- What an allocation does: nothing, or it returns a new region. -/
theorem tryAllocate (divided : Divided target storage bytes arena live cells)
    (requested alignment : Nat) :
    ∃ cells', Divided target storage bytes (arena.tryAllocate target requested alignment).2
      (if (arena.tryAllocate target requested alignment).1 = 0 then live else
        ⟨(arena.tryAllocate target requested alignment).1, requested, alignment⟩ :: live)
      cells' := by
  rw [Arena.tryAllocate]
  split
  · exact ⟨cells, divided⟩
  rename_i allowed
  simp only [not_or] at allowed
  rcases @allocateFrom_cases target arena storage arena.head requested alignment _ cells
    divided.listed divided.length_le with
    none | ⟨left, cell, right, header, user, rfl, free, found, same, fits, answer⟩
  · rw [none]
    exact ⟨cells, divided⟩
  have sized : header.bytes = cell.bytes := congrArg Piece.bytes same
  have free : cell.region = none := divided.known cell (by simp) free
  have least := divided.sized cell (by simp)
  have limit := divided.limit
  have exact := divided.exact
  simp only [extent_append, extent_cons] at exact
  have holds := fit_holds fits (by omega) (by omega) allowed.1 allowed.2.1
  rw [sized] at holds
  have behind := holds.behind
  have some := sizeofBlock_pos target
  rw [answer, if_neg (by dsimp only at behind ⊢; omega)]
  obtain ⟨after, size, rest, rfl, leaves, listed, holds, used, allocations, head⟩ :=
    occupy_lists divided.listed divided.positive found same holds
  have length := leaves.extent
  have apart := separated_iff.mp divided.separated
  have closed := apart.2.2 free
  have start := divided.aligned (storage + extent left, cell) (by simp [placed_append, placed])
  dsimp only at start behind
  have inside := holds.inside
  have empty : usedExtent [cell] = 0 := by simp [usedExtent, free]
  have nothing : regions [cell] = [] := by simp [regions, free]
  refine ⟨_, @replace target storage bytes arena live left right [cell] _ _ _ divided
    (head ▸ listed) ?_ ?_ ?_ ?_ ?_ ?_ ?_ ?_⟩
  · simpa using length
  · intro other mem
    rcases mem_cons.mp mem with rfl | mem
    · dsimp only at inside ⊢
      omega
    rcases leaves with ⟨rfl, -⟩ | ⟨rfl, -, room⟩
    · simp at mem
    · rw [mem_singleton.mp mem]
      dsimp only
      omega
  · intro item mem
    rw [placed, mem_cons] at mem
    rcases mem with rfl | mem
    · exact start
    · rcases leaves with ⟨rfl, -⟩ | ⟨rfl, rounded, -⟩
      · simp [placed] at mem
      · rw [placed, placed, mem_singleton] at mem
        rw [mem, Nat.add_mod, start, rounded, Nat.zero_add, Nat.zero_mod]
  · intro item mem region inner
    rw [placed, mem_cons] at mem
    rcases mem with rfl | mem
    · cases inner
      exact holds
    rcases leaves with ⟨rfl, -⟩ | ⟨rfl, -⟩
    · simp [placed] at mem
    · rw [placed, placed, mem_singleton] at mem
      rw [mem] at inner
      simp at inner
  · rw [cons_append, separated_iff]
    refine ⟨apart.1, ?_, fun taken => by simp [Cell.isFree] at taken⟩
    rcases leaves with ⟨rfl, -⟩ | ⟨rfl, -⟩
    · exact apart.2.1
    · exact (@separated_iff _ [] right).mpr ⟨isChain_nil, apart.2.1,
        fun _ => ⟨by simp [Closed], closed.2⟩⟩
  · rw [used, empty, usedExtent_cons_some, leaves.spare.usedExtent, Nat.add_zero, Nat.add_zero]
  · rw [allocations, divided.allocations, length_cons]
  · rw [regions_cons_some, leaves.spare.regions]
    have before := divided.live
    rw [← singleton_append, regions_append, regions_append, nothing] at before
    exact (before.cons _).trans perm_middle.symm

theorem release_null : arena.release target 0 = (true, arena) := rfl

/-- The regions that are left when the one at an address is given back. -/
theorem others (divided : Divided target storage bytes arena live (left ++ cell :: right))
    (found : cell.region = some region) :
    (live.filter fun other => other.pointer ≠ region.pointer).Perm
      (regions left ++ regions right) := by
  have whole : regions (left ++ cell :: right) = regions left ++ region :: regions right := by
    simp [regions, found]
  have perm := divided.live
  have apart := divided.pointers
  have pos : ∀ other ∈ regions (left ++ cell :: right), 0 < other.bytes := by
    intro other mem
    obtain ⟨item, place, inside⟩ := (@mem_regions storage _ other).mp mem
    exact (divided.holds item place other inside).nonempty
  rw [whole] at perm apart pos
  have some := pos region (by simp)
  obtain ⟨-, behind, before⟩ := pairwise_append.mp apart
  have elsewhere : ∀ other ∈ regions left ++ regions right, other.pointer ≠ region.pointer := by
    intro other mem
    have size := pos other (by simp only [mem_append, mem_cons] at mem ⊢; tauto)
    have clear : other.span.Apart region.span ∨ region.span.Apart other.span := by
      rcases mem_append.mp mem with earlier | later
      · exact .inl (before other earlier region mem_cons_self)
      · exact .inr ((pairwise_cons.mp behind).1 other later)
    simp only [Span.Apart, Region.span] at clear
    omega
  refine (perm.filter _).trans ?_
  rw [filter_append, filter_cons_of_neg (by simp), ← filter_append,
    filter_eq_self.mpr fun other mem => decide_eq_true (elsewhere other mem)]

/-- What a release does: the region is given back, or there is none and nothing changes. -/
theorem release_cases (divided : Divided target storage bytes arena live cells)
    (nonzero : pointer ≠ 0) :
    (arena.release target pointer = (false, arena) ∧ ∀ region ∈ live, region.pointer ≠ pointer) ∨
      ((arena.release target pointer).1 = true ∧ (∃ region ∈ live, region.pointer = pointer) ∧
        ∃ cells', Divided target storage bytes (arena.release target pointer).2
          (live.filter fun region => region.pointer ≠ pointer) cells') := by
  rw [Arena.release, if_neg nonzero]
  rcases @releaseFrom_cases arena storage arena.head _ 0 cells pointer divided.listed
    divided.length_le with
    ⟨none, others⟩ | ⟨left, cell, right, header, rfl, user, found, same, answer⟩
  · refine .inl ⟨none, fun region mem equal => ?_⟩
    obtain ⟨cell, inside, within⟩ := mem_filterMap.mp (divided.live.mem_iff.mp mem)
    refine others cell inside ?_
    rw [Cell.piece, within]
    exact equal
  have taken : cell.region ≠ none := fun free =>
    nonzero (user.symm.trans (piece_user_of_isFree free))
  obtain ⟨region, within⟩ := Option.ne_none_iff_exists'.mp taken
  have equal : region.pointer = pointer := by
    rw [Cell.piece, within] at user
    exact user
  obtain ⟨size, rfl⟩ : ∃ size, cell = ⟨size, some region⟩ := ⟨cell.bytes, by rw [← within]⟩
  have perm := divided.others within
  have whole := divided.live
  have counted := perm.length_eq
  rw [equal] at perm counted
  refine .inr ⟨congrArg Prod.fst answer, ⟨region, whole.mem_iff.mpr (by simp), equal⟩, ?_⟩
  rw [answer]
  obtain ⟨before, spare, spare', behind, after, vacated, rfl, rfl, spareLeft, spareRight,
    closedLeft, closedRight, listed, used, allocations, head⟩ :=
    vacate_lists divided.listed divided.positive divided.separated divided.known found same
  rw [vacated]
  have apart := separated_iff.mp divided.separated
  let middle := spare ++ (⟨size, some region⟩ :: spare')
  have joined : before ++ spare ++ ⟨size, some region⟩ :: (spare' ++ behind) =
      before ++ (middle ++ behind) := by simp [middle]
  have inUse := divided.used
  have number := divided.allocations
  rw [joined] at divided
  refine ⟨_, @replace target storage bytes arena live before behind middle
    [⟨extent spare + (size + extent spare'), none⟩] _ _ divided (head ▸ listed) ?_ ?_ ?_ ?_ ?_ ?_
    ?_ ?_⟩
  · simp [middle]
  · have least := divided.sized ⟨size, some region⟩ (by simp [middle])
    dsimp only at least
    intro other mem
    rw [mem_singleton.mp mem]
    dsimp only
    omega
  · -- The merged block starts where the first of the merged ones did.
    intro item mem
    rw [placed, placed, mem_singleton] at mem
    rw [mem]
    rcases spareLeft with rfl | ⟨width, rfl⟩
    · exact divided.aligned (storage + extent before, ⟨size, some region⟩)
        (by simp [middle, placed_append, placed])
    · exact divided.aligned (storage + extent before, ⟨width, none⟩)
        (by simp [middle, placed_append, placed])
  · intro item mem other inner
    rw [placed, placed, mem_singleton] at mem
    rw [mem] at inner
    simp at inner
  · refine separated_iff.mpr ⟨?_, ?_, fun _ => ⟨closedLeft, closedRight⟩⟩
    · exact (isChain_append.mp apart.1).1
    · exact (isChain_append.mp apart.2.1).2.1
  · simp only [usedExtent_append, usedExtent_cons_some] at inUse
    simp only [middle, usedExtent_append, usedExtent_cons_some, usedExtent_cons_none,
      usedExtent_nil, spareLeft.usedExtent, spareRight.usedExtent]
    rw [used]
    dsimp only
    omega
  · rw [allocations, number, whole.length_eq, counted]
    simp only [regions_append, regions_cons_some, length_append, length_cons]
    omega
  · simpa [spareLeft.regions, spareRight.regions] using perm

end Divided

/-! ## Runs -/

/-- After every run the blocks divide the storage. -/
theorem Run.divided (run : Run target storage bytes arena live) :
    ∃ cells, Divided target storage bytes arena live cells := by
  induction run with
  | start taken => exact ⟨_, divided_of_start taken⟩
  | allocate run requested alignment ih =>
    obtain ⟨cells, divided⟩ := ih
    exact divided.tryAllocate requested alignment
  | @release arena live run pointer ih =>
    obtain ⟨cells, divided⟩ := ih
    by_cases null : pointer = 0
    · subst null
      rw [Divided.release_null, if_pos rfl, filter_eq_self.mpr]
      · exact ⟨cells, divided⟩
      intro region mem
      obtain ⟨item, place, inside⟩ :=
        (@mem_regions storage cells region).mp (divided.live.mem_iff.mp mem)
      have behind := (divided.holds item place region inside).behind
      have some := sizeofBlock_pos target
      exact decide_eq_true (by omega)
    rcases divided.release_cases null with ⟨refused, -⟩ | ⟨done, -, later⟩
    · rw [refused]
      exact ⟨cells, divided⟩
    · rw [if_pos done]
      exact later

/-- The state of an arena with the given blocks and live regions. -/
structure Sound (target : Target) (storage bytes : Nat) (arena : Arena) (live : List Region)
    (cells : List Cell) : Prop where
  blocks : Lists arena.headers arena.head storage cells 0
  tiled : extent cells = bytes
  aligned : ∀ item ∈ placed storage cells, item.1 % target.alignofBlock = 0
  placed : ∀ region ∈ live, ∃ item ∈ placed storage cells, item.2.region = some region ∧
    Holds target item.1 item.2.bytes region
  apart : live.Pairwise fun first second => first.span.Apart second.span
  headers : ∀ region ∈ live, ∀ item ∈ Memory.placed storage cells,
    region.span.Apart ⟨item.1, target.sizeofBlock⟩
  separated : Separated cells
  used : arena.used = usedExtent cells
  allocations : arena.allocations = live.length ∧ live.length = (regions cells).length
  released : ∀ region ∈ live, (arena.release target region.pointer).1 = true
  stale : ∀ pointer ≠ 0, (∀ region ∈ live, region.pointer ≠ pointer) →
    arena.release target pointer = (false, arena)
  null : arena.release target 0 = (true, arena)
  restored : live = [] → cells = [⟨bytes, none⟩]

theorem Separated.eq_singleton (separated : Separated cells) (empty : regions cells = [])
    (some : 0 < extent cells) : cells = [⟨extent cells, none⟩] := by
  have free : ∀ cell ∈ cells, cell.isFree := fun cell mem => filterMap_eq_nil_iff.mp empty cell mem
  match cells with
  | [] => simp at some
  | [cell] =>
    have free : cell.region = none := free cell mem_cons_self
    simp [← free]
  | first :: second :: rest =>
    refine absurd ⟨free first ?_, free second ?_⟩ (isChain_cons_cons.mp separated).1
    · exact mem_cons_self
    · exact mem_cons_of_mem _ mem_cons_self

/-- Along every run the blocks tile the storage in the order of their addresses, every live
region lies in a block of its own behind the header and away from the others, the counts are
right, and a pointer that is not live cannot be given back unless it is null. -/
theorem blocks_tile_storage (run : Run target storage bytes arena live) :
    ∃ cells, Sound target storage bytes arena live cells := by
  obtain ⟨cells, divided⟩ := run.divided
  have located : ∀ region ∈ live, ∃ item ∈ placed storage cells, item.2.region = some region ∧
      Holds target item.1 item.2.bytes region := by
    intro region member
    obtain ⟨item, place, inside⟩ :=
      (@mem_regions storage cells region).mp (divided.live.mem_iff.mp member)
    exact ⟨item, place, inside, divided.holds item place region inside⟩
  have nonzero : ∀ region ∈ live, region.pointer ≠ 0 := by
    intro region member
    obtain ⟨item, -, -, holds⟩ := located region member
    have behind := holds.behind
    have some := sizeofBlock_pos target
    omega
  refine ⟨cells, ?_⟩
  constructor
  case blocks => exact divided.listed
  case tiled => exact divided.exact
  case aligned => exact divided.aligned
  case placed => exact located
  case apart =>
    refine divided.pointers.perm divided.live.symm fun {first second} apart => ?_
    exact apart.symm
  case headers =>
    intro region member item place
    obtain ⟨own, place', -, holds⟩ := located region member
    have behind := holds.behind
    have inside := holds.inside
    simp only [Span.Apart, Region.span]
    by_cases same : own = item
    · subst same
      omega
    · rcases placed_order place' place same with before | behind <;> omega
  case separated => exact divided.separated
  case used => exact divided.used
  case allocations => exact ⟨divided.allocations, divided.live.length_eq⟩
  case released =>
    intro region member
    rcases divided.release_cases (nonzero region member) with ⟨-, others⟩ | ⟨done, -⟩
    · exact absurd rfl (others region member)
    · exact done
  case stale =>
    intro pointer given others
    rcases divided.release_cases given with ⟨refused, -⟩ | ⟨-, ⟨region, member, same⟩, -⟩
    · exact refused
    · exact absurd same (others region member)
  case null => exact Divided.release_null
  case restored =>
    rintro rfl
    have single := divided.separated.eq_singleton (nil_perm.mp divided.live)
      (by rw [divided.exact]; exact divided.nonempty)
    rwa [divided.exact] at single

/-- An arena of two hundred bytes. -/
def small : Arena := (({} : Arena).start .bits32 4096 200).2

theorem run_small : Run .bits32 4096 200 small [] :=
  @Run.start .bits32 4096 200 (fun _ => none) small (Prod.ext (by decide +kernel) rfl)

/-- Two regions in it, of which the first is given back. -/
theorem blocks_tile_storage_small :
    let first := small.tryAllocate .bits32 10 8
    let second := first.2.tryAllocate .bits32 20 16
    let last := second.2.release .bits32 first.1
    first.1 = 4112 ∧ second.1 = 4144 ∧ last.1 = true ∧
      ∃ cells, Sound .bits32 4096 200 last.2 [⟨second.1, 20, 16⟩] cells := by
  refine ⟨by decide +kernel, by decide +kernel, by decide +kernel, ?_⟩
  have run := ((run_small.allocate 10 8).allocate 20 16).release
    (small.tryAllocate .bits32 10 8).1
  rw [if_pos (by decide +kernel), if_neg (by decide +kernel), if_neg (by decide +kernel),
    filter_cons_of_pos (by decide +kernel), filter_cons_of_neg (by decide +kernel)] at run
  exact blocks_tile_storage run

/-- The null pointer is not live, and giving it back succeeds. -/
theorem null_released : Run .bits32 4096 200 small [] ∧ (small.release .bits32 0).1 = true :=
  ⟨run_small, rfl⟩

end Mikos.Memory
