import Mathlib.Data.List.Basic
import Mathlib.Data.List.Chain
import Mikos.Library.Packing

/-!
# Partitions of a range into free and used blocks

A range of addresses is divided into blocks, some of them free.  Free blocks that are
neighbours are one block, so there is at most one more free block than there are used ones.
-/

namespace Mikos.Library
open List

inductive Block where
  | free (size : Nat)
  | used (size : Nat)
  deriving DecidableEq, Repr

namespace Block

def size : Block → Nat
  | .free size => size
  | .used size => size

def isFree : Block → Bool
  | .free _ => true
  | .used _ => false

end Block

def extent (blocks : List Block) : Nat := (blocks.map Block.size).sum

/-- The ranges of the free blocks, if the first block is at `address`. -/
def freeSpans : Nat → List Block → List Span
  | _, [] => []
  | address, .free size :: rest => ⟨address, size⟩ :: freeSpans (address + size) rest
  | address, .used size :: rest => freeSpans (address + size) rest

/-- The ranges of the used blocks, if the first block is at `address`. -/
def usedSpans : Nat → List Block → List Span
  | _, [] => []
  | address, .free size :: rest => usedSpans (address + size) rest
  | address, .used size :: rest => ⟨address, size⟩ :: usedSpans (address + size) rest

/-- No block is empty and no two free blocks are neighbours. -/
structure Proper (blocks : List Block) : Prop where
  positive : ∀ block ∈ blocks, 0 < block.size
  separated : blocks.IsChain fun left right => ¬ (left.isFree ∧ right.isFree)

section Spans
variable {address : Nat} {blocks left right : List Block} {span : Span}

@[simp] theorem extent_nil : extent [] = 0 := rfl

@[simp] theorem extent_cons (block : Block) :
    extent (block :: blocks) = block.size + extent blocks := by
  simp [extent]

@[simp] theorem extent_append : extent (left ++ right) = extent left + extent right := by
  simp [extent]

theorem extent_mod (aligned : ∀ block ∈ blocks, block.size % alignment = 0) :
    extent blocks % alignment = 0 := by
  induction blocks with
  | nil => exact Nat.zero_mod _
  | cons block rest ih =>
    rw [extent_cons, Nat.add_mod, aligned block mem_cons_self,
      ih fun other mem => aligned other (mem_cons_of_mem _ mem), Nat.zero_mod]

theorem freeSpans_append : freeSpans address (left ++ right) =
    freeSpans address left ++ freeSpans (address + extent left) right := by
  induction left generalizing address with
  | nil => rfl
  | cons block rest ih => cases block <;> simp [freeSpans, ih, Block.size, Nat.add_assoc]

theorem usedSpans_append : usedSpans address (left ++ right) =
    usedSpans address left ++ usedSpans (address + extent left) right := by
  induction left generalizing address with
  | nil => rfl
  | cons block rest ih => cases block <;> simp [usedSpans, ih, Block.size, Nat.add_assoc]

theorem mem_freeSpans (mem : span ∈ freeSpans address blocks) :
    ∃ before after, blocks = before ++ .free span.size :: after ∧
      span.address = address + extent before := by
  induction blocks generalizing address with
  | nil => cases mem
  | cons block rest ih =>
    have later (inside : span ∈ freeSpans (address + block.size) rest) :
        ∃ before after, block :: rest = before ++ .free span.size :: after ∧
          span.address = address + extent before := by
      obtain ⟨before, after, split, place⟩ := ih inside
      refine ⟨block :: before, after, by rw [split]; rfl, ?_⟩
      simp [place, Nat.add_assoc]
    cases block with
    | used size => exact later mem
    | free size =>
      rcases mem_cons.mp mem with rfl | mem
      · exact ⟨[], rest, rfl, rfl⟩
      · exact later mem

theorem freeSpans_bounds (mem : span ∈ freeSpans address blocks) :
    address ≤ span.address ∧ span.address + span.size ≤ address + extent blocks := by
  obtain ⟨before, after, rfl, place⟩ := mem_freeSpans mem
  simp only [extent_append, extent_cons, Block.size]
  omega

theorem freeSpans_lt (pos : ∀ block ∈ blocks, 0 < block.size)
    (mem : span ∈ freeSpans address blocks) : span.address < address + extent blocks := by
  obtain ⟨before, after, rfl, place⟩ := mem_freeSpans mem
  have width := pos (.free span.size) (by simp)
  simp only [extent_append, extent_cons, Block.size] at width ⊢
  omega

theorem mem_usedSpans : span ∈ usedSpans address blocks ↔
    ∃ before after, blocks = before ++ .used span.size :: after ∧
      span.address = address + extent before := by
  constructor
  · intro mem
    induction blocks generalizing address with
    | nil => cases mem
    | cons block rest ih =>
      cases block with
      | free size =>
        obtain ⟨before, after, split, place⟩ := ih mem
        refine ⟨.free size :: before, after, by rw [split]; rfl, ?_⟩
        simp [place, Block.size, Nat.add_assoc]
      | used size =>
        rcases mem_cons.mp mem with rfl | mem
        · exact ⟨[], rest, rfl, rfl⟩
        · obtain ⟨before, after, split, place⟩ := ih mem
          refine ⟨.used size :: before, after, by rw [split]; rfl, ?_⟩
          simp [place, Block.size, Nat.add_assoc]
  · rintro ⟨before, after, rfl, place⟩
    rw [usedSpans_append, ← place]
    exact mem_append_right _ mem_cons_self

theorem usedSpans_bounds (mem : span ∈ usedSpans address blocks) :
    address ≤ span.address ∧ span.address + span.size ≤ address + extent blocks := by
  obtain ⟨before, after, rfl, place⟩ := mem_usedSpans.mp mem
  simp only [extent_append, extent_cons, Block.size]
  omega

theorem usedSpans_apart (mem : span ∈ usedSpans address blocks)
    (otherMember : other ∈ usedSpans address blocks) (apart : span ≠ other) :
    span.address + span.size ≤ other.address ∨ other.address + other.size ≤ span.address := by
  induction blocks generalizing address with
  | nil => cases mem
  | cons block rest ih =>
    cases block with
    | free size => exact ih mem otherMember
    | used size =>
      rcases mem_cons.mp mem with rfl | mem <;>
        rcases mem_cons.mp otherMember with rfl | otherMember
      · exact absurd rfl apart
      · exact .inl (usedSpans_bounds otherMember).1
      · exact .inr (usedSpans_bounds mem).1
      · exact ih mem otherMember

theorem Proper.usedSpans_positive (proper : Proper blocks) (mem : span ∈ usedSpans address blocks) :
    0 < span.size := by
  obtain ⟨before, after, rfl, -⟩ := mem_usedSpans.mp mem
  exact proper.positive (.used span.size) (by simp)

theorem Proper.tail (proper : Proper (block :: blocks)) : Proper blocks where
  positive other mem := proper.positive other (mem_cons_of_mem _ mem)
  separated := proper.separated.tail

theorem Proper.usedSpans_nodup (proper : Proper blocks) : (usedSpans address blocks).Nodup := by
  induction blocks generalizing address with
  | nil => exact .nil
  | cons block rest ih =>
    cases block with
    | free size => exact ih proper.tail
    | used size =>
      refine nodup_cons.mpr ⟨fun mem => ?_, ih proper.tail⟩
      have pos : 0 < size := proper.positive _ mem_cons_self
      have bounds := usedSpans_bounds mem
      simp only at bounds
      omega

theorem Proper.length_freeSpans_le (proper : Proper blocks) :
    (freeSpans address blocks).length ≤ (usedSpans address blocks).length + 1 := by
  suffices both : (freeSpans address blocks).length +
      (if blocks.head?.any Block.isFree then 0 else 1) ≤ (usedSpans address blocks).length + 1 by
    omega
  induction blocks generalizing address with
  | nil => simp [freeSpans, usedSpans]
  | cons block rest ih =>
    have bound := @ih (address + block.size) proper.tail
    cases block with
    | used size =>
      simp only [freeSpans, usedSpans, length_cons, Block.size] at bound ⊢
      simp only [head?_cons, Option.any_some, Block.isFree, Bool.false_eq_true, if_false]
      split at bound <;> omega
    | free size =>
      have next : (rest.head?.any Block.isFree) = false := by
        cases rest with
        | nil => rfl
        | cons other tail =>
          have apart := (isChain_cons_cons.mp proper.separated).1
          simpa [Block.isFree] using apart
      rw [next] at bound
      simp only [freeSpans, usedSpans, length_cons, Block.size] at bound ⊢
      simpa [Block.isFree] using bound

theorem Proper.lt_freeSpans (proper : Proper (.free size :: blocks))
    (mem : span ∈ freeSpans address blocks) : address < span.address := by
  cases blocks with
  | nil => cases mem
  | cons block rest =>
    cases block with
    | free width =>
      have apart := (isChain_cons_cons.mp proper.separated).1
      simp [Block.isFree] at apart
    | used width =>
      have pos : 0 < width := proper.positive (.used width) (mem_cons_of_mem _ mem_cons_self)
      have bounds := freeSpans_bounds (show span ∈ freeSpans (address + width) rest from mem)
      omega

theorem Proper.freeSpans_sorted (proper : Proper blocks) :
    (freeSpans address blocks).Pairwise fun left right =>
      left.address + left.size < right.address := by
  induction blocks generalizing address with
  | nil => exact .nil
  | cons block rest ih =>
    cases block with
    | free size =>
      refine .cons ?_ (ih proper.tail)
      intro span mem
      exact proper.lt_freeSpans mem
    | used size => exact ih proper.tail

theorem Proper.freeSpans_positive (proper : Proper blocks) (mem : span ∈ freeSpans address blocks) :
    0 < span.size := by
  obtain ⟨before, after, rfl, -⟩ := mem_freeSpans mem
  exact proper.positive (.free span.size) (by simp)

theorem freeSpans_mod (aligned : ∀ block ∈ blocks, block.size % alignment = 0)
    (mem : span ∈ freeSpans address blocks) : span.size % alignment = 0 := by
  obtain ⟨before, after, rfl, -⟩ := mem_freeSpans mem
  exact aligned (.free span.size) (by simp)

theorem freeSpans_apart_usedSpans (mem : span ∈ freeSpans address blocks)
    (otherMember : other ∈ usedSpans address blocks) : span.Apart other := by
  induction blocks generalizing address with
  | nil => cases mem
  | cons block rest ih =>
    cases block with
    | free size =>
      rcases mem_cons.mp mem with rfl | mem
      · exact .inl (usedSpans_bounds
          (show other ∈ usedSpans (address + size) rest from otherMember)).1
      · exact ih mem otherMember
    | used size =>
      rcases mem_cons.mp otherMember with rfl | otherMember
      · exact .inr (freeSpans_bounds (show span ∈ freeSpans (address + size) rest from mem)).1
      · exact ih mem otherMember

theorem exists_contains (low : address ≤ place) (high : place < address + extent blocks) :
    (∃ span ∈ freeSpans address blocks, span.Contains place) ∨
      ∃ span ∈ usedSpans address blocks, span.Contains place := by
  induction blocks generalizing address with
  | nil =>
    rw [extent_nil] at high
    omega
  | cons block rest ih =>
    rw [extent_cons] at high
    cases block with
    | free size =>
      simp only [Block.size] at high
      by_cases here : place < address + size
      · exact .inl ⟨⟨address, size⟩, mem_cons_self, low, here⟩
      · rcases ih (Nat.not_lt.mp here) (by omega) with ⟨span, mem, inside⟩ | later
        · exact .inl ⟨span, mem_cons_of_mem _ mem, inside⟩
        · exact .inr later
    | used size =>
      simp only [Block.size] at high
      by_cases here : place < address + size
      · exact .inr ⟨⟨address, size⟩, mem_cons_self, low, here⟩
      · rcases ih (Nat.not_lt.mp here) (by omega) with later | ⟨span, mem, inside⟩
        · exact .inl later
        · exact .inr ⟨span, mem_cons_of_mem _ mem, inside⟩

theorem Proper.freeSpans_of_usedSpans_nil (proper : Proper blocks) (pos : 0 < extent blocks)
    (none : usedSpans address blocks = []) :
    freeSpans address blocks = [⟨address, extent blocks⟩] := by
  cases blocks with
  | nil => simp at pos
  | cons block rest =>
    cases block with
    | used size => cases none
    | free size =>
      cases rest with
      | nil => simp [freeSpans, Block.size]
      | cons next rest =>
        cases next with
        | used width => cases none
        | free width =>
          have apart := (isChain_cons_cons.mp proper.separated).1
          simp [Block.isFree] at apart

end Spans

/-! ## Using a part of a free block -/

/-- A free block of which the first part is used. -/
def carve (part size : Nat) : List Block :=
  if part = size then [.used part] else [.used part, .free (size - part)]

section Carve
variable {address part size : Nat} {before after : List Block}

theorem extent_carve (fits : part ≤ size) : extent (carve part size) = size := by
  unfold carve
  split <;> simp [Block.size] <;> omega

theorem usedSpans_carve (fits : part ≤ size) :
    usedSpans address (before ++ carve part size ++ after) =
      usedSpans address before ++ ⟨address + extent before, part⟩ ::
        usedSpans (address + extent before + size) after := by
  rw [usedSpans_append, usedSpans_append, extent_append, extent_carve fits, append_assoc,
    Nat.add_assoc]
  unfold carve
  split <;> simp [usedSpans]

theorem freeSpans_carve (fits : part ≤ size) :
    freeSpans address (before ++ carve part size ++ after) = freeSpans address before ++
        (if part = size then [] else [⟨address + extent before + part, size - part⟩]) ++
          freeSpans (address + extent before + size) after := by
  rw [freeSpans_append, freeSpans_append, extent_append, extent_carve fits, ← Nat.add_assoc]
  unfold carve
  split <;> simp [freeSpans]

theorem Proper.carve (proper : Proper (before ++ .free size :: after)) (pos : 0 < part)
    (fits : part ≤ size) : Proper (before ++ carve part size ++ after) := by
  obtain ⟨sizes, chain⟩ := proper
  rw [isChain_append] at chain
  obtain ⟨first, last, -⟩ := chain
  have next := (isChain_cons.mp last).1
  have rest := (isChain_cons.mp last).2
  constructor
  · intro block mem
    simp only [mem_append, Library.carve] at mem
    rcases mem with (inBefore | inCarved) | inAfter
    · exact sizes block (mem_append_left _ inBefore)
    · split at inCarved
      · obtain rfl := mem_singleton.mp inCarved
        exact pos
      simp only [mem_cons, not_mem_nil, or_false] at inCarved
      rcases inCarved with rfl | rfl
      · exact pos
      · simp only [Block.size]
        omega
    · exact sizes block (mem_append_right _ (mem_cons_of_mem _ inAfter))
  rw [append_assoc, isChain_append]
  unfold Library.carve
  split
  · refine ⟨first, isChain_cons.mpr ⟨?_, rest⟩, ?_⟩ <;> simp [Block.isFree]
  refine ⟨first, ?_, ?_⟩
  · simp only [cons_append, nil_append, isChain_cons_cons]
    refine ⟨by simp [Block.isFree], isChain_cons.mpr ⟨?_, rest⟩⟩
    intro block head
    exact next block head
  · simp [Block.isFree]

end Carve

/-! ## Giving a block back -/

/-- Blocks without a free one at their end, and its size. -/
def cutLast (blocks : List Block) : List Block × Nat :=
  match blocks.getLast? with
  | some (.free size) => (blocks.dropLast, size)
  | _ => (blocks, 0)

/-- Blocks without a free one at their start, and its size. -/
def cutHead : List Block → Nat × List Block
  | .free size :: rest => (size, rest)
  | blocks => (0, blocks)

/-- The blocks after the one of the given size between them was freed. -/
def join (before : List Block) (size : Nat) (after : List Block) : List Block :=
  (cutLast before).1 ++ .free ((cutLast before).2 + size + (cutHead after).1) :: (cutHead after).2

section Join
variable {address size : Nat} {before after : List Block}

theorem cutLast_spec (before : List Block) :
    ((cutLast before).2 = 0 ∧ (cutLast before).1 = before ∧
        ∀ block ∈ before.getLast?, block.isFree = false) ∨
      before = (cutLast before).1 ++ [.free (cutLast before).2] := by
  unfold cutLast
  split
  next size last =>
    right
    have nonempty : before ≠ [] := by
      rintro rfl
      cases last
    have split := dropLast_append_getLast nonempty
    rw [getLast?_eq_getLast_of_ne_nil nonempty, Option.some_inj] at last
    rw [last] at split
    exact split.symm
  rename_i other
  left
  refine ⟨rfl, rfl, ?_⟩
  intro block mem
  cases block with
  | used size => rfl
  | free size => exact absurd mem (other size)

theorem cutHead_spec (after : List Block) :
    ((cutHead after).1 = 0 ∧ (cutHead after).2 = after ∧
        ∀ block ∈ after.head?, block.isFree = false) ∨
      after = .free (cutHead after).1 :: (cutHead after).2 := by
  match after with
  | [] => exact .inl ⟨rfl, rfl, by simp⟩
  | .used size :: rest => exact .inl ⟨rfl, rfl, by simp [Block.isFree]⟩
  | .free size :: rest => exact .inr rfl

theorem extent_cutLast (before : List Block) :
    extent (cutLast before).1 + (cutLast before).2 = extent before := by
  rcases cutLast_spec before with ⟨zero, same, -⟩ | split
  · rw [zero, same, Nat.add_zero]
  · conv_rhs => rw [split]
    simp [Block.size]

theorem extent_cutHead (after : List Block) :
    (cutHead after).1 + extent (cutHead after).2 = extent after := by
  rcases cutHead_spec after with ⟨zero, same, -⟩ | split
  · rw [zero, same, Nat.zero_add]
  · conv_rhs => rw [split]
    simp [Block.size]

theorem extent_join : extent (join before size after) = extent before + size + extent after := by
  have left := extent_cutLast before
  have right := extent_cutHead after
  simp only [join, extent_append, extent_cons, Block.size]
  omega

theorem usedSpans_cutLast : usedSpans address (cutLast before).1 = usedSpans address before := by
  rcases cutLast_spec before with ⟨-, same, -⟩ | split
  · rw [same]
  · conv_rhs => rw [split]
    rw [usedSpans_append]
    simp [usedSpans]

theorem usedSpans_cutHead (address : Nat) (after : List Block) :
    usedSpans (address + (cutHead after).1) (cutHead after).2 = usedSpans address after := by
  rcases cutHead_spec after with ⟨zero, same, -⟩ | split
  · rw [zero, same, Nat.add_zero]
  · conv_rhs => rw [split]
    rw [usedSpans]

theorem usedSpans_join :
    usedSpans address (join before size after) =
      usedSpans address before ++ usedSpans (address + extent before + size) after := by
  rw [join, usedSpans_append, usedSpans, usedSpans_cutLast, ← usedSpans_cutHead _ after,
    ← extent_cutLast before]
  congr 2
  omega

theorem freeSpans_join :
    freeSpans address (join before size after) = freeSpans address (cutLast before).1 ++
        ⟨address + extent (cutLast before).1, (cutLast before).2 + size + (cutHead after).1⟩ ::
          freeSpans (address + extent before + size + (cutHead after).1) (cutHead after).2 := by
  rw [join, freeSpans_append, freeSpans, ← extent_cutLast before]
  congr 3
  omega

/-- The free ranges before a block end before it, unless a free block ends there. -/
theorem freeSpans_getLast (pos : ∀ block ∈ before, 0 < block.size) :
    ((cutLast before).1 = before ∧ (cutLast before).2 = 0 ∧
        ∀ span ∈ (freeSpans address before).getLast?,
          span.address + span.size < address + extent before) ∨
      freeSpans address before = freeSpans address (cutLast before).1 ++
        [⟨address + extent (cutLast before).1, (cutLast before).2⟩] := by
  rcases cutLast_spec before with ⟨zero, same, used⟩ | split
  · refine .inl ⟨same, zero, ?_⟩
    intro span last
    rcases eq_nil_or_concat before with rfl | ⟨rest, block, rfl⟩
    · cases last
    cases block with
    | free size => simp [Block.isFree] at used
    | used size =>
      have width : 0 < size := pos (.used size) (by simp)
      rw [concat_eq_append, freeSpans_append] at last
      simp only [freeSpans, append_nil] at last
      have bounds := freeSpans_bounds (mem_of_getLast? last)
      simp only [concat_eq_append, extent_append, extent_cons, extent_nil, Block.size]
      omega
  · refine .inr ?_
    conv_lhs => rw [split]
    rw [freeSpans_append]
    rfl

/-- The free ranges behind a block start behind it, unless a free block starts there. -/
theorem freeSpans_head (pos : ∀ block ∈ after, 0 < block.size) :
    ((cutHead after).2 = after ∧ (cutHead after).1 = 0 ∧
        ∀ span ∈ (freeSpans address after).head?, address < span.address) ∨
      freeSpans address after = ⟨address, (cutHead after).1⟩ ::
        freeSpans (address + (cutHead after).1) (cutHead after).2 := by
  rcases cutHead_spec after with ⟨zero, same, used⟩ | split
  · refine .inl ⟨same, zero, ?_⟩
    intro span first
    cases after with
    | nil => cases first
    | cons block rest =>
      cases block with
      | free size => simp [Block.isFree] at used
      | used size =>
        have width : 0 < size := pos (.used size) (by simp)
        change span ∈ (freeSpans (address + size) rest).head? at first
        have bounds := freeSpans_bounds (mem_of_mem_head? first)
        omega
  · refine .inr ?_
    conv_lhs => rw [split]
    rfl

theorem join_mod (left : ∀ block ∈ before, block.size % alignment = 0)
    (middle : size % alignment = 0) (right : ∀ block ∈ after, block.size % alignment = 0) :
    ∀ block ∈ join before size after, block.size % alignment = 0 := by
  have leftRest : (∀ block ∈ (cutLast before).1, block.size % alignment = 0) ∧
      (cutLast before).2 % alignment = 0 := by
    rcases cutLast_spec before with ⟨zero, same, -⟩ | split
    · rw [same, zero]
      exact ⟨left, Nat.zero_mod _⟩
    · rw [split] at left
      exact ⟨fun block mem => left block (mem_append_left _ mem),
        left (.free _) (mem_append_right _ (mem_singleton.mpr rfl))⟩
  have rightRest : (∀ block ∈ (cutHead after).2, block.size % alignment = 0) ∧
      (cutHead after).1 % alignment = 0 := by
    rcases cutHead_spec after with ⟨zero, same, -⟩ | split
    · rw [same, zero]
      exact ⟨right, Nat.zero_mod _⟩
    · rw [split] at right
      exact ⟨fun block mem => right block (mem_cons_of_mem _ mem),
        right (.free _) mem_cons_self⟩
  intro block mem
  simp only [join, mem_append, mem_cons] at mem
  rcases mem with inLeft | rfl | inRight
  · exact leftRest.1 block inLeft
  · rw [Block.size, Nat.add_mod, Nat.add_mod (cutLast before).2, leftRest.2, middle, rightRest.2]
    simp
  · exact rightRest.1 block inRight

theorem Proper.join (proper : Proper (before ++ .used size :: after)) :
    Proper (join before size after) := by
  obtain ⟨sizes, chain⟩ := proper
  rw [isChain_append] at chain
  obtain ⟨first, last, -⟩ := chain
  have rest := (isChain_cons.mp last).2
  have pos : 0 < size := sizes (.used size) (by simp)
  -- the blocks that stay, and that the new free block has no free neighbour
  have left : (∀ block ∈ (cutLast before).1, block ∈ before) ∧
      (cutLast before).1.IsChain (fun left right => ¬ (left.isFree ∧ right.isFree)) ∧
      ∀ block ∈ (cutLast before).1.getLast?, block.isFree = false := by
    rcases cutLast_spec before with ⟨-, same, used⟩ | split
    · rw [same]
      exact ⟨fun _ mem => mem, first, used⟩
    rw [split, isChain_append] at first
    refine ⟨fun block mem => by rw [split]; exact mem_append_left _ mem, first.1, ?_⟩
    intro block mem
    have apart := first.2.2 block mem (.free _) rfl
    simpa [Block.isFree] using apart
  have right : (∀ block ∈ (cutHead after).2, block ∈ after) ∧
      (cutHead after).2.IsChain (fun left right => ¬ (left.isFree ∧ right.isFree)) ∧
      ∀ block ∈ (cutHead after).2.head?, block.isFree = false := by
    rcases cutHead_spec after with ⟨-, same, used⟩ | split
    · rw [same]
      exact ⟨fun _ mem => mem, rest, used⟩
    rw [split, isChain_cons] at rest
    refine ⟨fun block mem => by rw [split]; exact mem_cons_of_mem _ mem, rest.2, ?_⟩
    intro block mem
    have apart := rest.1 block mem
    simpa [Block.isFree] using apart
  constructor
  · intro block mem
    simp only [Library.join, mem_append, mem_cons] at mem
    rcases mem with inLeft | rfl | inRight
    · exact sizes block (mem_append_left _ (left.1 block inLeft))
    · simp only [Block.size]
      omega
    · exact sizes block (mem_append_right _ (mem_cons_of_mem _ (right.1 block inRight)))
  rw [Library.join, isChain_append, isChain_cons]
  refine ⟨left.2.1, ⟨?_, right.2.1⟩, ?_⟩
  · intro block mem both
    rw [right.2.2 block mem] at both
    exact Bool.false_ne_true both.2
  · intro block mem next head both
    rw [left.2.2 block mem] at both
    exact Bool.false_ne_true both.1

end Join
end Mikos.Library
