import Mathlib.Data.List.Chain
import Mikos.Memory.Blocks

/-!
# Splitting and merging

What `occupy` and `vacate` do to the list of the cells: the first puts a region into a free
cell and may leave a free cell behind it, the second frees a cell and merges it with the free
cells around it.
-/

namespace Mikos.Memory
open Library Function List
variable {target : Target} {arena : Arena} {start pointer : Nat} {header : Header}
  {cell : Cell} {left right : List Cell}

/-! ## Splitting -/

section Splitting
variable {block user bytes : Nat}

theorem occupy_cases (enough : user - block + bytes ≤ header.bytes) (nonempty : 0 < bytes) :
    ∃ size next headers, user - block + bytes ≤ size ∧
      (arena.occupy target block header user bytes).headers =
        update headers block (some ⟨size, next, user⟩) ∧
      (arena.occupy target block header user bytes).used = arena.used + size ∧
      (arena.occupy target block header user bytes).allocations = arena.allocations + 1 ∧
      (arena.occupy target block header user bytes).head = arena.head ∧
      ((size = header.bytes ∧ next = header.next ∧ headers = arena.headers) ∨
        (size % target.alignofBlock = 0 ∧ size + target.sizeofBlock ≤ header.bytes ∧
          next = block + size ∧
          headers = update arena.headers (block + size)
            (some ⟨header.bytes - size, header.next, 0⟩))) := by
  rw [Arena.occupy]
  dsimp only
  split
  next split =>
    have least := le_alignUp (alignofBlock_pos target) split.1 (by omega)
    refine ⟨_, _, _, least, rfl, rfl, rfl, rfl, .inr ⟨alignUp_mod _, by omega, rfl, rfl⟩⟩
  next whole =>
    exact ⟨_, _, _, enough, rfl, rfl, rfl, rfl, .inl ⟨rfl, rfl, rfl⟩⟩

/-- What is left of a cell behind a region: nothing, or a free cell. -/
def Leaves (target : Target) (bytes size : Nat) (rest : List Cell) : Prop :=
  (rest = [] ∧ size = bytes) ∨
    (rest = [⟨bytes - size, none⟩] ∧ size % target.alignofBlock = 0 ∧
      size + target.sizeofBlock ≤ bytes)

theorem Leaves.extent (leaves : Leaves target bytes size rest) : size + extent rest = bytes := by
  rcases leaves with ⟨rfl, rfl⟩ | ⟨rfl, _, room⟩
  · rfl
  · simp only [extent_cons, extent_nil]
    omega

/-- Using a free cell puts the region into it and leaves the rest free. -/
theorem occupy_lists (listed : Lists arena.headers pointer start (left ++ cell :: right) 0)
    (pos : ∀ other ∈ left ++ cell :: right, 0 < other.bytes)
    (found : arena.headers (start + extent left) = some header) (same : header.piece = cell.piece)
    (holds : Holds target (start + extent left) cell.bytes region) :
    ∃ after size rest, after = arena.occupy target (start + extent left) header region.pointer
        region.bytes ∧ Leaves target cell.bytes size rest ∧
      Lists after.headers pointer start (left ++ (⟨size, some region⟩ :: rest ++ right)) 0 ∧
      Holds target (start + extent left) size region ∧
      after.used = arena.used + size ∧ after.allocations = arena.allocations + 1 ∧
      after.head = arena.head := by
  have sized : header.bytes = cell.bytes := congrArg Piece.bytes same
  have room := holds.behind
  have within := holds.inside
  have some := sizeofBlock_pos target
  obtain ⟨size, next, headers, enough, stored, used, allocations, head, split⟩ :=
    @occupy_cases target arena header (start + extent left) region.pointer region.bytes
      (by omega) holds.nonempty
  rw [sized] at split
  refine ⟨_, size, if size = cell.bytes then [] else [⟨cell.bytes - size, none⟩], rfl, ?_, ?_,
    { holds with inside := by omega }, used, allocations, head⟩
  · rcases split with ⟨rfl, -⟩ | ⟨aligned, least, -⟩
    · exact .inl ⟨if_pos rfl, rfl⟩
    · exact .inr ⟨if_neg (by omega), aligned, least⟩
  rw [stored]
  have listed' : Lists arena.headers pointer start (left ++ ([cell] ++ right)) 0 := listed
  refine listed'.replace pos (fun address outside => ?_) ?_ fun first next' inner => ?_
  · rw [extent_cons, extent_nil] at outside
    rw [update_of_ne (by omega)]
    rcases split with ⟨-, -, rfl⟩ | ⟨-, least, -, rfl⟩
    · rfl
    · rw [update_of_ne (by omega)]
  · rcases split with ⟨rfl, -⟩ | ⟨-, least, -⟩
    · simp
    · rw [if_neg (by omega)]
      simp only [extent_cons, extent_nil]
      omega
  obtain ⟨rfl, nonzero, record, stored, seen, onward⟩ := lists_cons.mp inner
  cases found.symm.trans stored
  refine lists_cons.mpr ⟨rfl, nonzero, _, update_self .., rfl, ?_⟩
  rcases split with ⟨rfl, rfl, rfl⟩ | ⟨-, least, rfl, rfl⟩
  · rw [if_pos rfl]
    exact lists_nil.mpr (lists_nil.mp onward)
  rw [if_neg (by omega)]
  refine lists_cons.mpr ⟨rfl, ?_, ⟨cell.bytes - size, header.next, 0⟩, ?_, rfl, onward⟩
  · omega
  · rw [update_of_ne (by dsimp only; omega)]
    exact update_self ..

end Splitting

/-! ## Merging -/

section Merging

def Cell.isFree (cell : Cell) : Prop := cell.region = none

/-- No two neighbours are both free. -/
def Separated (cells : List Cell) : Prop :=
  cells.IsChain fun first second => ¬ (first.isFree ∧ second.isFree)

/-- At most one cell, and that free. -/
def Spare (cells : List Cell) : Prop := cells = [] ∨ ∃ bytes, cells = [⟨bytes, none⟩]

/-- The end of a list at which nothing free is left. -/
def Closed (cell : Option Cell) : Prop := ∀ first ∈ cell, ¬ first.isFree

theorem piece_user_of_isFree (free : cell.isFree) : cell.piece.user = 0 := by
  rw [Cell.piece, free]
  rfl

theorem Separated.closed (separated : Separated (cell :: right)) (free : cell.isFree) :
    Closed right.head? := by
  cases right with
  | nil => simp [Closed]
  | cons second rest =>
    rintro _ ⟨⟩
    exact fun both => (isChain_cons_cons.mp separated).1 ⟨free, both⟩

theorem Separated.append_closed (separated : Separated (left ++ [cell])) (free : cell.isFree) :
    Closed left.getLast? := fun last mem both =>
  (isChain_append.mp separated).2.2 last mem cell rfl ⟨both, free⟩

/-- The block after a freed one is merged into it if it is free. -/
theorem absorbNext_lists {next : Nat} {block : Header}
    (listed : Lists arena.headers block.next next right 0) (separated : Separated right)
    (pos : ∀ other ∈ right, 0 < other.bytes)
    (known : ∀ other ∈ right, other.piece.user = 0 → other.isFree) :
    ∃ spare rest after header, arena.absorbNext block = (after, header) ∧ right = spare ++ rest ∧
      Spare spare ∧ Closed rest.head? ∧ header.bytes = block.bytes + extent spare ∧
      header.user = block.user ∧
      Lists arena.headers header.next (next + extent spare) rest 0 ∧
      after.used = arena.used ∧ after.allocations = arena.allocations ∧ after.head = arena.head ∧
      ∀ address, address < next ∨ next + extent spare ≤ address →
        after.headers address = arena.headers address := by
  rw [Arena.absorbNext]
  cases right with
  | nil =>
    rw [deref_nil listed]
    exact ⟨[], [], arena, block, rfl, rfl, .inl rfl, by simp [Closed], rfl, rfl, listed, rfl, rfl,
      rfl, fun _ _ => rfl⟩
  | cons second rest =>
    obtain ⟨record, found, same, stored, sized, seen, onward⟩ := deref_cons listed
    rw [found]
    dsimp only
    split
    next free =>
      have free := known second mem_cons_self (seen ▸ free)
      have some := pos second mem_cons_self
      refine ⟨[second], rest, _, _, rfl, rfl, .inr ⟨second.bytes, ?_⟩, separated.closed free, ?_,
        rfl, ?_, rfl, rfl, rfl, fun address outside => ?_⟩
      · rw [← free]
      · simp [sized]
      · simpa using onward
      · rw [extent_cons] at outside
        rw [same]
        exact update_of_ne (by omega) ..
    rename_i taken
    refine ⟨[], second :: rest, arena, block, rfl, rfl, .inl rfl, ?_, rfl, rfl, listed, rfl,
      rfl, rfl, fun _ _ => rfl⟩
    rintro _ ⟨⟩ free
    exact taken (seen.trans (piece_user_of_isFree free))

/-- A freed block is merged into the one before it if that is free. -/
theorem joinPrevious_lists (listed : Lists arena.headers pointer start left (start + extent left))
    (nonzero : start + extent left ≠ 0) (separated : Separated left)
    (pos : ∀ other ∈ left, 0 < other.bytes) (free : block.user = 0) (some : 0 < block.bytes)
    (known : ∀ other ∈ left, other.piece.user = 0 → other.isFree) : ∃ rest spare after,
      arena.joinPrevious (lastOf 0 start left) (start + extent left) block = after ∧
      left = rest ++ spare ∧ Spare spare ∧ Closed rest.getLast? ∧
      Lists after.headers pointer start (rest ++ [⟨extent spare + block.bytes, none⟩]) block.next ∧
      after.used = arena.used ∧ after.allocations = arena.allocations ∧ after.head = arena.head ∧
      ∀ address, address < start ∨ start + extent left + block.bytes ≤ address →
        after.headers address = arena.headers address := by
  rw [Arena.joinPrevious]
  rcases eq_nil_or_concat' left with rfl | ⟨before, last, rfl⟩
  · have null : arena.deref (lastOf 0 start []) = none := if_pos rfl
    rw [null]
    refine ⟨[], [], _, rfl, rfl, .inl rfl, by simp [Closed], ?_, rfl, rfl, rfl,
      fun address outside => ?_⟩
    · refine lists_cons.mpr ⟨lists_nil.mp listed, nonzero, block, update_self .., ?_,
        rfl⟩
      rw [Header.piece, free]
      simp [Cell.piece]
    · rw [extent_nil] at outside
      exact update_of_ne (by rw [extent_nil]; omega) ..
  obtain ⟨middle, listed', inner⟩ := lists_append.mp listed
  obtain ⟨rfl, present, record, stored, seen, onward⟩ := lists_cons.mp inner
  have found : arena.deref (lastOf 0 start (before ++ [last])) = .some record := by
    rw [lastOf_append_singleton, Arena.deref, if_neg present, stored]
  have sized : record.bytes = last.bytes := congrArg Piece.bytes seen
  have user : record.user = last.piece.user := congrArg Piece.user seen
  have small : ∀ other ∈ before, 0 < other.bytes := fun other mem =>
    pos other (mem_append_left _ mem)
  rw [found, lastOf_append_singleton]
  simp only [extent_append, extent_cons, extent_nil, Nat.add_zero, ← Nat.add_assoc] at nonzero ⊢
  split
  next empty =>
    have spare : last.isFree := known last (by simp) (user ▸ empty)
    refine ⟨before, [last], _, rfl, rfl, .inr ⟨last.bytes, ?_⟩, separated.append_closed spare,
      ?_, rfl, rfl, rfl, fun address outside => ?_⟩
    · rw [← spare]
    · refine lists_append.mpr ⟨_, listed'.congr small fun address _ below => ?_,
        lists_cons.mpr ⟨rfl, present, _, update_self .., ?_, rfl⟩⟩
      · refine (update_of_ne (by omega) ..).trans ?_
        exact update_of_ne (by omega) ..
      · rw [Header.piece, empty, sized]
        simp [Cell.piece]
    · refine (update_of_ne (by omega) ..).trans ?_
      exact update_of_ne (by omega) ..
  rename_i taken
  refine ⟨before ++ [last], [], _, rfl, by simp, .inl rfl, ?_, ?_, rfl, rfl, rfl,
    fun address outside => update_of_ne (by omega) ..⟩
  · rw [List.getLast?_concat]
    rintro _ ⟨⟩ spare
    exact taken (user.trans (piece_user_of_isFree spare))
  refine lists_append.mpr ⟨_, listed.congr pos fun address _ below => ?_, ?_⟩
  · simp only [extent_append, extent_cons, extent_nil] at below
    exact update_of_ne (by omega) ..
  · simp only [extent_append, extent_cons, extent_nil, Nat.add_zero, ← Nat.add_assoc]
    refine lists_cons.mpr ⟨rfl, nonzero, block, update_self .., ?_, rfl⟩
    rw [Header.piece, free]
    simp [Cell.piece]

/-- Freeing a cell merges it with the free cells around it. -/
theorem vacate_lists (listed : Lists arena.headers pointer start (left ++ cell :: right) 0)
    (pos : ∀ other ∈ left ++ cell :: right, 0 < other.bytes)
    (separated : Separated (left ++ cell :: right))
    (known : ∀ other ∈ left ++ cell :: right, other.piece.user = 0 → other.isFree)
    (found : arena.headers (start + extent left) = some header) (same : header.piece = cell.piece) :
    ∃ before spare spare' behind after,
      arena.vacate (lastOf 0 start left) (start + extent left) header = after ∧
      left = before ++ spare ∧ right = spare' ++ behind ∧ Spare spare ∧ Spare spare' ∧
      Closed before.getLast? ∧ Closed behind.head? ∧
      Lists after.headers pointer start
        (before ++ ⟨extent spare + (cell.bytes + extent spare'), none⟩ :: behind) 0 ∧
      after.used = arena.used - cell.bytes ∧ after.allocations = arena.allocations - 1 ∧
      after.head = arena.head := by
  have sized : header.bytes = cell.bytes := congrArg Piece.bytes same
  have some : 0 < cell.bytes := pos cell (by simp)
  have earlier : ∀ other ∈ left, 0 < other.bytes := fun other mem =>
    pos other (mem_append_left _ mem)
  have later : ∀ other ∈ right, 0 < other.bytes := fun other mem =>
    pos other (mem_append_right _ (mem_cons_of_mem _ mem))
  obtain ⟨separatedLeft, separatedRight, -⟩ := isChain_append.mp separated
  obtain ⟨middle, listedLeft, inner⟩ := lists_append.mp listed
  obtain ⟨rfl, nonzero, record, stored, seen, onward⟩ := lists_cons.mp inner
  cases found.symm.trans stored
  -- First the block behind is taken in, on the arena whose counts are already lowered.
  let lowered : Arena :=
    { arena with used := arena.used - header.bytes, allocations := arena.allocations - 1 }
  obtain ⟨spare', behind, absorbed, block, absorbs, rfl, spareRight, closedRight, length, user,
    onward, used, allocations, head, outside⟩ :=
    @absorbNext_lists lowered right _ { header with user := 0 } onward separatedRight.tail later
      fun other mem => known other (mem_append_right _ (mem_cons_of_mem _ mem))
  dsimp only at length user
  -- Then the block is taken into the one before it.
  have listedLeft : Lists absorbed.headers pointer start left (start + extent left) :=
    listedLeft.congr earlier fun address _ below => outside address (.inl (by omega))
  obtain ⟨before, spare, after, joins, rfl, spareLeft, closedLeft, listedLeft, used', allocations',
    head', outside'⟩ :=
    joinPrevious_lists listedLeft nonzero separatedLeft earlier user (by omega)
      fun other mem => known other (mem_append_left _ mem)
  refine ⟨before, spare, spare', behind, after, ?_, rfl, rfl, spareLeft, spareRight, closedLeft,
    closedRight, ?_, ?_, allocations'.trans allocations, head'.trans head⟩
  · dsimp only [lowered] at absorbs
    rw [← joins, Arena.vacate, absorbs]
  · rw [length, sized] at listedLeft outside'
    have joined : Lists after.headers pointer start
        ((before ++ [⟨extent spare + (cell.bytes + extent spare'), none⟩]) ++ behind) 0 := by
      refine lists_append.mpr ⟨_, listedLeft, ?_⟩
      simp only [extent_append, extent_cons, extent_nil] at onward outside outside' ⊢
      have place : start + (extent before + (extent spare + (cell.bytes + extent spare') + 0)) =
          start + (extent before + extent spare) + cell.bytes + extent spare' := by omega
      rw [place]
      refine onward.congr (fun other mem => later other (mem_append_right _ mem))
        fun address above _ => ?_
      exact (outside' address (.inr (by omega))).trans (outside address (.inr above))
    simpa using joined
  · rw [used', used, ← sized]

end Merging
end Mikos.Memory
