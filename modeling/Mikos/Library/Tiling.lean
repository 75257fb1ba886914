import Mathlib.Data.Fintype.Card
import Mathlib.Data.List.Infix
import Mathlib.Logic.Function.Basic
import Mikos.Library.Serial

/-!
# Pieces that tile a string

A store keeps a string in pieces, each filed under the serial number of its
first element, in no particular order.  The pieces tile the string when they can
be put in an order in which each starts where the one before it ended.  The
module shows what the two operations of such a store do to a tiling: filing a
new piece at the end, and trimming everything before a serial number.
-/

namespace Mikos.Library
open List
variable {ι α : Type*}

/-- The pieces at the positions of a list, read in its order, spell out a string
from a serial number on.  Pieces are not empty and at most `limit` long. -/
inductive Tiling (limit : Nat) (pieces : ι → Option (UInt32 × List α)) :
    UInt32 → List α → List ι → Prop where
  | nil (start : UInt32) : Tiling limit pieces start [] []
  | cons (filed : pieces position = some (start, piece)) (nonempty : piece ≠ [])
      (short : piece.length ≤ limit)
      (tail : Tiling limit pieces (start + UInt32.ofNat piece.length) rest order) :
      Tiling limit pieces start (piece ++ rest) (position :: order)

/-- The pieces of a store tile a string: in some order they spell it out, all of
them and each once. -/
def Tiles (limit : Nat) (pieces : ι → Option (UInt32 × List α)) (start : UInt32)
    (bytes : List α) : Prop :=
  ∃ order : List ι, order.Nodup ∧ (∀ position, position ∈ order ↔ pieces position ≠ none) ∧
    Tiling limit pieces start bytes order

/-- What is left of a piece when everything before a serial number is dropped. -/
def trimPiece (mark : UInt32) (piece : UInt32 × List α) : Option (UInt32 × List α) :=
  if serialDistance mark piece.1 ≤ 0 then
    some piece
  else if piece.2.length ≤ (mark - piece.1).toNat then
    none
  else
    some (mark, piece.2.drop (mark - piece.1).toNat)

namespace Tiling
variable {limit : Nat} {pieces other : ι → Option (UInt32 × List α)} {start : UInt32}
  {bytes : List α} {order : List ι}

/-- Only the pieces at the listed positions matter. -/
theorem congr (tiling : Tiling limit pieces start bytes order)
    (same : ∀ i ∈ order, other i = pieces i) : Tiling limit other start bytes order := by
  induction tiling with
  | nil start => exact .nil start
  | cons filed nonempty short _ ih =>
    refine .cons ?_ nonempty short (ih fun i mem => same i (by simp [mem]))
    rw [same _ (by simp), filed]

theorem append (tiling : Tiling limit pieces start bytes order)
    (filed : pieces i = some (start + UInt32.ofNat bytes.length, piece))
    (nonempty : piece ≠ []) (short : piece.length ≤ limit) :
    Tiling limit pieces start (bytes ++ piece) (order ++ [i]) := by
  induction tiling with
  | nil start =>
    have last : Tiling limit pieces start (piece ++ []) [i] :=
      .cons (by simpa using filed) nonempty short (.nil _)
    simpa using last
  | cons first firstNonempty firstShort _ ih =>
    rw [append_assoc]
    refine .cons first firstNonempty firstShort (ih ?_)
    rw [filed, length_append, offset_add]

section
variable (tiling : Tiling limit pieces start bytes order)
include tiling

theorem length_le : bytes.length ≤ limit * order.length := by
  induction tiling with
  | nil => simp
  | cons _ _ short _ ih =>
    rw [length_append, length_cons, Nat.mul_succ]
    omega

/-- A piece is the slice of the string at its offset. -/
theorem slice (mem : i ∈ order) :
    ∃ offset piece, pieces i = some (start + UInt32.ofNat offset, piece) ∧
      piece ≠ [] ∧ piece.length ≤ limit ∧ offset + piece.length ≤ bytes.length ∧
      piece = (bytes.drop offset).take piece.length := by
  induction tiling with
  | nil => cases mem
  | @cons head start piece rest order filed nonempty short _ ih =>
    rcases mem_cons.mp mem with rfl | later
    · exact ⟨0, piece, by simpa using filed, nonempty, short, by simp, by simp⟩
    obtain ⟨offset, found, located, foundNonempty, foundShort, inside, sliced⟩ := ih later
    refine ⟨piece.length + offset, found, ?_, foundNonempty, foundShort, ?_, ?_⟩
    · rw [located, offset_add]
    · rw [length_append]
      omega
    · rw [drop_append, drop_eq_nil_of_le (by omega)]
      simpa using sliced

/-- Pieces that all lie at or after the mark are left alone. -/
theorem trim_before (gap : Nat) (located : start = mark + UInt32.ofNat gap)
    (bounded : gap + bytes.length < 2 ^ 31) :
    Tiling limit (fun i => (pieces i).bind (trimPiece mark)) start bytes order := by
  induction tiling generalizing gap with
  | nil start => exact .nil start
  | @cons i start piece rest order filed nonempty short _ ih =>
    rw [length_append] at bounded
    have distance := serialDistance_offset mark 0 gap (by omega) (by omega)
    rw [show mark + UInt32.ofNat 0 = mark from UInt32.add_zero mark, ← located] at distance
    refine .cons ?_ nonempty short (ih (gap + piece.length) ?_ (by omega))
    · rw [filed, Option.bind_some, trimPiece, if_pos (by simp only; omega)]
    · rw [located, offset_add]

/-- Trimming at an offset inside the string leaves its rest tiled by the pieces
that are left. -/
theorem trim (distinct : order.Nodup) (count : Nat) (inside : count ≤ bytes.length)
    (bounded : bytes.length < 2 ^ 31) :
    ∃ kept, kept.Sublist order ∧
      (∀ i ∈ order, i ∉ kept → (pieces i).bind (trimPiece (start + UInt32.ofNat count)) = none) ∧
      Tiling limit (fun i => (pieces i).bind (trimPiece (start + UInt32.ofNat count)))
        (start + UInt32.ofNat count) (bytes.drop count) kept := by
  induction tiling generalizing count with
  | nil start => exact ⟨[], List.Sublist.refl _, by simp, by simpa using .nil _⟩
  | @cons i start piece rest order filed nonempty short tail ih =>
    have pos : 0 < piece.length := length_pos_iff.mpr nonempty
    rw [length_append] at inside bounded
    have distance := serialDistance_offset start count 0 (by omega) (by omega)
    have difference := toNat_offset_sub start (Nat.zero_le count) (by omega)
    rw [show start + UInt32.ofNat 0 = start from UInt32.add_zero start] at distance difference
    obtain ⟨fresh, distinct⟩ := nodup_cons.mp distinct
    rcases Nat.lt_or_ge count piece.length with partly | fully
    · -- The mark lies in the first piece; all later ones start after it.
      refine ⟨i :: order, List.Sublist.refl _, fun _ mem absent => absurd mem absent, ?_⟩
      rw [drop_append, show count - piece.length = 0 by omega, drop_zero]
      refine .cons ?_ ?_ ?_ ?_
      · rw [filed, Option.bind_some, trimPiece]
        split
        next behind =>
          have none : count = 0 := by simp only at behind; omega
          simp [none]
        · simp only [difference, Nat.sub_zero]
          rw [if_neg (by omega)]
      · exact ne_nil_of_length_pos (by simp; omega)
      · simp only [length_drop]
        omega
      have reached : start + UInt32.ofNat count + UInt32.ofNat (piece.drop count).length =
          start + UInt32.ofNat piece.length := by
        rw [offset_add, length_drop, Nat.add_sub_cancel' (by omega)]
      rw [reached]
      exact tail.trim_before (piece.length - count)
        (by rw [offset_add, Nat.add_sub_cancel' (by omega)]) (by omega)
    -- The first piece goes; the mark lies in the rest.
    obtain ⟨kept, sublist, dropped, tiling⟩ :=
      ih distinct (count - piece.length) (by omega) (by omega)
    rw [offset_add, Nat.add_sub_cancel' fully] at dropped tiling
    refine ⟨kept, sublist.cons i, ?_, ?_⟩
    · intro other mem absent
      rcases mem_cons.mp mem with rfl | later
      · rw [filed, Option.bind_some, trimPiece, if_neg (by simp only; omega),
          if_pos (by simp only; omega)]
      · exact dropped other later absent
    · rw [drop_append, drop_eq_nil_of_le fully, nil_append]
      exact tiling

end
end Tiling

namespace Tiles
variable {limit : Nat} {pieces other : ι → Option (UInt32 × List α)} {start : UInt32}
  {bytes : List α}

theorem empty (start : UInt32) (none : ∀ i, pieces i = none) : Tiles limit pieces start [] :=
  ⟨[], nodup_nil, fun i => by simp [none i], .nil start⟩

/-- Nothing is filed when the pieces tile the empty string. -/
theorem eq_none (tiles : Tiles limit pieces start ([] : List α)) (i : ι) : pieces i = none := by
  obtain ⟨order, -, listed, tiling⟩ := tiles
  generalize same : ([] : List α) = bytes at tiling
  cases tiling with
  | nil => simpa using listed i
  | cons filed nonempty short tail => exact absurd (append_eq_nil_iff.mp same.symm).1 nonempty

variable (tiles : Tiles limit pieces start bytes)
include tiles

/-- A piece is the slice of the string at its offset. -/
theorem slice {sequence} (filed : pieces i = some (sequence, piece)) :
    ∃ offset, sequence = start + UInt32.ofNat offset ∧ piece ≠ [] ∧
      offset + piece.length ≤ bytes.length ∧
      piece = (bytes.drop offset).take piece.length := by
  obtain ⟨order, -, listed, tiling⟩ := tiles
  obtain ⟨offset, found, located, nonempty, -, inside, sliced⟩ :=
    tiling.slice ((listed i).mpr (by simp [filed]))
  rw [filed] at located
  cases located
  exact ⟨offset, rfl, nonempty, inside, sliced⟩

/-- The string is no longer than the store can hold. -/
theorem length_le [Fintype ι] : bytes.length ≤ limit * Fintype.card ι := by
  obtain ⟨order, distinct, -, tiling⟩ := tiles
  exact tiling.length_le.trans (Nat.mul_le_mul_left limit distinct.length_le_card)

theorem append [DecidableEq ι] (vacant : pieces i = none) (nonempty : piece ≠ [])
    (short : piece.length ≤ limit) :
    Tiles limit (Function.update pieces i (some (start + UInt32.ofNat bytes.length, piece)))
      start (bytes ++ piece) := by
  obtain ⟨order, distinct, listed, tiling⟩ := tiles
  have unlisted : i ∉ order := fun mem => (listed i).mp mem vacant
  refine ⟨order ++ [i], ?_, fun other => ?_, ?_⟩
  · refine nodup_append.mpr ⟨distinct, nodup_singleton i, ?_⟩
    rintro left mem right last rfl
    exact unlisted (mem_singleton.mp last ▸ mem)
  · by_cases same : other = i
    · simp [same]
    · simp [same, listed other]
  refine (tiling.congr fun other mem => ?_).append (by simp) nonempty short
  have apart : other ≠ i := by
    rintro rfl
    exact unlisted mem
  exact Function.update_of_ne apart _ _

/-- Drop everything before an offset of the string. -/
theorem trim (count : Nat) (inside : count ≤ bytes.length) (bounded : bytes.length < 2 ^ 31) :
    Tiles limit (fun i => (pieces i).bind (trimPiece (start + UInt32.ofNat count)))
      (start + UInt32.ofNat count) (bytes.drop count) := by
  obtain ⟨order, distinct, listed, tiling⟩ := tiles
  obtain ⟨kept, sublist, dropped, trimmed⟩ := tiling.trim distinct count inside bounded
  refine ⟨kept, distinct.sublist sublist, fun i => ⟨fun mem => ?_, fun left => ?_⟩, trimmed⟩
  · obtain ⟨offset, piece, filed, -⟩ := trimmed.slice mem
    simp [filed]
  by_contra absent
  by_cases mem : i ∈ order
  · exact left (dropped i mem absent)
  · have vacant : pieces i = none := by simpa using (listed i).not.mp mem
    simp [vacant] at left

end Tiles
end Mikos.Library
