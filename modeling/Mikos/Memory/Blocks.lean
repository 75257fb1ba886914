import Mikos.Library.Linked
import Mikos.Memory.Arena

/-!
# The blocks of the arena

What the linked headers stand for: a list of cells that lie one behind the other, each free or
with the region that was handed out of it.  The loops of the arena walk this list.
-/

namespace Mikos.Memory
open Library List
open Process (alignDown_le alignDown_mod lt_alignDown_add)

/-- What a header says, apart from the link. -/
structure Piece where
  bytes : Nat
  user : Nat
  deriving DecidableEq, Repr

def Header.piece (header : Header) : Piece := ⟨header.bytes, header.user⟩

/-- A part of the storage that was handed out, with the alignment that was asked for. -/
structure Region where
  pointer : Nat
  bytes : Nat
  alignment : Nat
  deriving DecidableEq, Repr

/-- A block, with the region that lies in it unless it is free. -/
structure Cell where
  bytes : Nat
  region : Option Region
  deriving DecidableEq, Repr

def Cell.piece (cell : Cell) : Piece := ⟨cell.bytes, (cell.region.map Region.pointer).getD 0⟩

def extent (cells : List Cell) : Nat := (cells.map Cell.bytes).sum

/-- The cells with their addresses, one behind the other. -/
def placed : Nat → List Cell → List (Nat × Cell)
  | _, [] => []
  | start, cell :: rest => (start, cell) :: placed (start + cell.bytes) rest

/-- What the headers of the cells say. -/
def pieces (start : Nat) (cells : List Cell) : List (Nat × Piece) :=
  (placed start cells).map fun item => (item.1, item.2.piece)

/-- The headers from a pointer on are those of the cells. -/
def Lists (headers : Nat → Option Header) (pointer start : Nat) (cells : List Cell)
    (last : Nat) : Prop :=
  Path Header.next Header.piece headers pointer (pieces start cells) last

section Lists
variable {start pointer last : Nat} {cell : Cell} {cells left right rest : List Cell}
  {headers headers' : Nat → Option Header} {item : Nat × Cell}

@[simp]
theorem extent_nil : extent [] = 0 := rfl

@[simp]
theorem extent_cons : extent (cell :: cells) = cell.bytes + extent cells := by simp [extent]

@[simp]
theorem extent_append : extent (left ++ right) = extent left + extent right := by simp [extent]

theorem placed_append :
    placed start (left ++ right) = placed start left ++ placed (start + extent left) right := by
  induction left generalizing start with
  | nil => simp [placed]
  | cons cell rest ih => simp [placed, ih, Nat.add_assoc]

theorem placed_bounds (mem : item ∈ placed start cells) :
    start ≤ item.1 ∧ item.1 + item.2.bytes ≤ start + extent cells := by
  induction cells generalizing start with
  | nil => simp [placed] at mem
  | cons cell rest ih =>
    rw [placed, mem_cons] at mem
    rw [extent_cons]
    rcases mem with rfl | mem
    · exact ⟨Nat.le_refl _, by dsimp only; omega⟩
    · have bounds := ih mem
      omega

theorem mem_of_mem_placed (mem : item ∈ placed start cells) : item.2 ∈ cells := by
  induction cells generalizing start with
  | nil => simp [placed] at mem
  | cons cell rest ih =>
    rw [placed, mem_cons] at mem
    rcases mem with rfl | mem
    · exact mem_cons_self
    · exact mem_cons_of_mem _ (ih mem)

theorem lists_nil : Lists headers pointer start [] last ↔ pointer = last := Iff.rfl

theorem lists_cons : Lists headers pointer start (cell :: rest) last ↔
    pointer = start ∧ start ≠ 0 ∧ ∃ header, headers start = some header ∧
      header.piece = cell.piece ∧ Lists headers header.next (start + cell.bytes) rest last :=
  Iff.rfl

theorem lists_append : Lists headers pointer start (left ++ right) last ↔
    ∃ middle, Lists headers pointer start left middle ∧
      Lists headers middle (start + extent left) right last := by
  simp only [Lists, pieces, placed_append, map_append, path_append]

theorem Lists.congr (listed : Lists headers pointer start cells last)
    (pos : ∀ cell ∈ cells, 0 < cell.bytes)
    (same : ∀ address, start ≤ address → address < start + extent cells →
      headers' address = headers address) : Lists headers' pointer start cells last := by
  refine Path.congr listed fun item mem => ?_
  obtain ⟨item, placed, rfl⟩ := mem_map.mp mem
  have bounds := placed_bounds placed
  have pos := pos _ (mem_of_mem_placed placed)
  exact same _ bounds.1 (by omega)

theorem Lists.replace {middle middle' : List Cell}
    (listed : Lists headers pointer start (left ++ (middle ++ right)) last)
    (pos : ∀ cell ∈ left ++ (middle ++ right), 0 < cell.bytes)
    (same : ∀ address, address < start + extent left ∨
      start + extent left + extent middle ≤ address → headers' address = headers address)
    (extent_eq : extent middle' = extent middle)
    (inner : ∀ first next, Lists headers first (start + extent left) middle next →
      Lists headers' first (start + extent left) middle' next) :
    Lists headers' pointer start (left ++ (middle' ++ right)) last := by
  obtain ⟨first, before, listed⟩ := lists_append.mp listed
  obtain ⟨next, within, after⟩ := lists_append.mp listed
  refine lists_append.mpr ⟨first, before.congr (fun cell mem => ?_) fun address _ below => ?_,
    lists_append.mpr ⟨next, inner first next within, ?_⟩⟩
  · exact pos cell (mem_append_left _ mem)
  · exact same address (.inl below)
  · rw [extent_eq]
    refine after.congr (fun cell mem => ?_) fun address above _ => same address (.inr above)
    exact pos cell (mem_append_right _ (mem_append_right _ mem))

end Lists

/-! ## Where an allocation lies -/

/-- A region lies in the block at an address, behind its header. -/
structure Holds (target : Target) (address bytes : Nat) (region : Region) : Prop where
  behind : address + target.sizeofBlock ≤ region.pointer
  inside : region.pointer + region.bytes ≤ address + bytes
  nonempty : 0 < region.bytes
  aligned : region.pointer % region.alignment = 0

section Fits
variable {target : Target} {address bytes alignment user consumed : Nat} {header : Header}

theorem usizeMax_lt (target : Target) : target.usizeMax < 2 ^ target.usizeBits :=
  Nat.sub_lt (Nat.two_pow_pos _) Nat.one_pos

theorem alignofBlock_pos (target : Target) : 0 < target.alignofBlock := by
  cases target <;> decide

theorem sizeofBlock_pos (target : Target) : 0 < target.sizeofBlock := by
  cases target <;> decide

theorem alignUp_mod (value : Nat) : alignUp target value alignment % alignment = 0 :=
  alignDown_mod ..

theorem le_alignUp (pos : 0 < alignment) (small : value ≤ target.usizeMax - (alignment - 1))
    (some : 0 < value) : value ≤ alignUp target value alignment := by
  have bound := lt_alignDown_add (value + alignment - 1) pos
  have limit := usizeMax_lt target
  rw [alignUp, wrap_of_lt (by omega)]
  omega

theorem fit_holds (fits : Arena.fit target address header bytes alignment = some user)
    (room : address + header.bytes ≤ target.usizeMax) (sized : target.sizeofBlock ≤ header.bytes)
    (nonempty : bytes ≠ 0) (pos : alignment ≠ 0) :
    Holds target address header.bytes ⟨user, bytes, alignment⟩ := by
  have limit := usizeMax_lt target
  have some := sizeofBlock_pos target
  rw [Arena.fit, wrap_of_lt (by omega)] at fits
  dsimp only at fits
  split at fits
  · simp at fits
  rename_i within
  split at fits
  · simp at fits
  rename_i roomy
  cases fits
  have least := le_alignUp (Nat.pos_of_ne_zero pos) (Nat.not_lt.mp within) (by omega)
  exact
    { behind := least
      inside := by dsimp only; omega
      nonempty := Nat.pos_of_ne_zero nonempty
      aligned := alignUp_mod _ }

end Fits

/-! ## The loops -/

section Loops
variable {target : Target} {arena : Arena} {start pointer bytes alignment fuel previous : Nat}
  {cells : List Cell}

/-- The address of the last cell, or else of the block before them. -/
def lastOf (previous start : Nat) : List Cell → Nat
  | [] => previous
  | cell :: rest => lastOf start (start + cell.bytes) rest

@[simp]
theorem lastOf_append_singleton (left : List Cell) (cell : Cell) :
    lastOf previous start (left ++ [cell]) = start + extent left := by
  induction left generalizing previous start with
  | nil => simp [lastOf]
  | cons first rest ih => simp [lastOf, ih, Nat.add_assoc]

theorem deref_cons (listed : Lists arena.headers pointer start (cell :: rest) 0) :
    ∃ header, arena.deref pointer = some header ∧ pointer = start ∧
      arena.headers start = some header ∧ header.bytes = cell.bytes ∧
      header.user = cell.piece.user ∧
      Lists arena.headers header.next (start + cell.bytes) rest 0 := by
  obtain ⟨rfl, nonzero, header, found, seen, rest⟩ := lists_cons.mp listed
  refine ⟨header, ?_, rfl, found, congrArg Piece.bytes seen, congrArg Piece.user seen, rest⟩
  rw [Arena.deref, if_neg nonzero, found]

theorem deref_nil (listed : Lists arena.headers pointer start [] 0) :
    arena.deref pointer = none := by
  rw [lists_nil.mp listed, Arena.deref, if_pos rfl]

/-- The search of `try_allocate` takes the first free block with room. -/
theorem allocateFrom_cases (listed : Lists arena.headers pointer start cells 0)
    (fueled : cells.length ≤ fuel) :
    arena.allocateFrom target bytes alignment fuel pointer = (0, arena) ∨
      ∃ left cell right header user, cells = left ++ cell :: right ∧ cell.piece.user = 0 ∧
        arena.headers (start + extent left) = some header ∧ header.piece = cell.piece ∧
        Arena.fit target (start + extent left) header bytes alignment = some user ∧
        arena.allocateFrom target bytes alignment fuel pointer =
          (user, arena.occupy target (start + extent left) header user bytes) := by
  induction cells generalizing pointer start fuel with
  | nil =>
    refine .inl ?_
    cases fuel with
    | zero => rfl
    | succ fuel => rw [Arena.allocateFrom, deref_nil listed]
  | cons cell rest ih =>
    obtain _ | fuel := fuel
    · simp at fueled
    obtain ⟨header, found, rfl, stored, sized, seen, listed⟩ := deref_cons listed
    have later := ih listed (Nat.le_of_succ_le_succ fueled)
    -- An allocation in a later block is one in this list too.
    have shifted : ∀ {answer}, answer = arena.allocateFrom target bytes alignment fuel header.next →
        (answer = (0, arena) ∨
          ∃ left next right header user, cell :: rest = left ++ next :: right ∧
            next.piece.user = 0 ∧
            arena.headers (pointer + extent left) = some header ∧ header.piece = next.piece ∧
            Arena.fit target (pointer + extent left) header bytes alignment = some user ∧
            answer = (user, arena.occupy target (pointer + extent left) header user bytes)) := by
      rintro _ rfl
      rcases later with none | ⟨left, next, right, header, user, rfl, free, stored, same, fits,
        answer⟩
      · exact .inl none
      · refine .inr ⟨cell :: left, next, right, header, user, rfl, free, ?_⟩
        rw [extent_cons, ← Nat.add_assoc]
        exact ⟨stored, same, fits, answer⟩
    rw [Arena.allocateFrom, found]
    dsimp only
    split
    · exact shifted rfl
    rename_i free
    split
    · exact shifted rfl
    rename_i user fits
    refine .inr ⟨[], cell, rest, header, user, rfl, ?_, stored, ?_, fits, rfl⟩
    · rw [← seen]
      exact Classical.not_not.mp free
    · rw [Header.piece, sized, seen]
      rfl

/-- The search of `release` takes the first block whose region starts at the address. -/
theorem releaseFrom_cases {user : Nat} (listed : Lists arena.headers pointer start cells 0)
    (fueled : cells.length ≤ fuel) :
    (arena.releaseFrom user fuel previous pointer = (false, arena) ∧
        ∀ cell ∈ cells, cell.piece.user ≠ user) ∨
      ∃ left cell right header, cells = left ++ cell :: right ∧ cell.piece.user = user ∧
        arena.headers (start + extent left) = some header ∧ header.piece = cell.piece ∧
        arena.releaseFrom user fuel previous pointer =
          (true, arena.vacate (lastOf previous start left) (start + extent left) header) := by
  induction cells generalizing pointer start fuel previous with
  | nil =>
    refine .inl ⟨?_, by simp⟩
    cases fuel with
    | zero => rfl
    | succ fuel => rw [Arena.releaseFrom, deref_nil listed]
  | cons cell rest ih =>
    obtain _ | fuel := fuel
    · simp at fueled
    obtain ⟨header, found, rfl, stored, sized, seen, listed⟩ := deref_cons listed
    rw [Arena.releaseFrom, found]
    dsimp only
    split
    next other =>
      rw [seen] at other
      rcases @ih _ header.next fuel pointer listed (Nat.le_of_succ_le_succ fueled) with
        ⟨none, others⟩ | ⟨left, next, right, header, rfl, same, stored, piece, answer⟩
      · refine .inl ⟨none, fun next mem => ?_⟩
        rcases mem_cons.mp mem with rfl | mem
        · exact other
        · exact others next mem
      · refine .inr ⟨cell :: left, next, right, header, rfl, same, ?_⟩
        rw [extent_cons, ← Nat.add_assoc]
        exact ⟨stored, piece, answer⟩
    rename_i same
    refine .inr ⟨[], cell, rest, header, rfl, ?_, stored, ?_, rfl⟩
    · rw [← seen]
      exact Classical.not_not.mp same
    · rw [Header.piece, sized, seen]
      rfl

end Loops
end Mikos.Memory
