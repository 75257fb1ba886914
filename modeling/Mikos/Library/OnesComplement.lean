import Mathlib.Data.Nat.ModEq
import Mathlib.Data.UInt

/-!
# Ones' complement sums

Sums with end-around carry in a given radix.  Folding the carries back keeps the
sum up to multiples of `radix - 1` and keeps apart the two spellings of zero, so
the folded sum is determined by the sum alone.  A sum completed by the complement
of its folded value folds to all ones, which is what a receiver checks.
-/

namespace Mikos.Library
variable {radix sum other residue : Nat}

/-- One end-around carry: what is above the lowest digit is added back to it. -/
def endAround (radix sum : Nat) : Nat := sum % radix + sum / radix

/-- A number below the radix that stands for a sum: congruent to it, and zero only
for the empty sum. -/
structure OnesResidue (radix sum residue : Nat) : Prop where
  bounded : residue < radix
  congruent : residue ≡ sum [MOD radix - 1]
  zero : residue = 0 ↔ sum = 0

theorem endAround_of_lt (small : sum < radix) : endAround radix sum = sum := by
  rw [endAround, Nat.mod_eq_of_lt small, Nat.div_eq_of_lt small, Nat.add_zero]

theorem endAround_congruent (pos : 0 < radix) : endAround radix sum ≡ sum [MOD radix - 1] := by
  have one : radix ≡ 1 [MOD radix - 1] := by
    obtain ⟨digit, rfl⟩ : ∃ digit, radix = digit + 1 := ⟨radix - 1, by omega⟩
    rw [Nat.add_sub_cancel]
    exact Nat.add_modEq_left
  calc endAround radix sum = sum % radix + 1 * (sum / radix) := by rw [endAround, Nat.one_mul]
    _ ≡ sum % radix + radix * (sum / radix) [MOD radix - 1] :=
        Nat.ModEq.add_left _ (one.symm.mul_right _)
    _ = sum := Nat.mod_add_div sum radix

theorem endAround_eq_zero : endAround radix sum = 0 ↔ sum = 0 := by
  constructor
  · intro empty
    have parts := Nat.mod_add_div sum radix
    obtain ⟨low, high⟩ := Nat.add_eq_zero_iff.mp empty
    rw [low, high, Nat.mul_zero] at parts
    exact parts.symm
  · rintro rfl
    rw [endAround, Nat.zero_mod, Nat.zero_div]

/-- A carry of a sum of two digits leaves at most a carry of one. -/
theorem endAround_le (small : sum < radix * radix) : endAround radix sum ≤ 2 * (radix - 1) := by
  have pos : 0 < radix := Nat.pos_of_ne_zero fun empty => by simp [empty] at small
  have low := Nat.mod_lt sum pos
  have high := Nat.div_lt_of_lt_mul small
  rw [endAround]
  omega

theorem endAround_lt (several : 1 < radix) (small : sum ≤ 2 * (radix - 1)) :
    endAround radix sum < radix := by
  by_cases digit : sum < radix
  · rw [endAround_of_lt digit]
    exact digit
  have whole : sum / radix = 1 := by
    apply Nat.div_eq_of_lt_le <;> omega
  have rest : sum % radix = sum - radix := by
    rw [Nat.mod_eq_sub_mod (by omega), Nat.mod_eq_of_lt (by omega)]
  rw [endAround, whole, rest]
  omega

namespace OnesResidue

theorem of_lt (small : sum < radix) : OnesResidue radix sum sum :=
  ⟨small, Nat.ModEq.refl _, Iff.rfl⟩

/-- A residue of the carried sum is one of the sum. -/
theorem of_endAround (carried : OnesResidue radix (endAround radix sum) residue) :
    OnesResidue radix sum residue where
  bounded := carried.bounded
  congruent := carried.congruent.trans (endAround_congruent (Nat.zero_lt_of_lt carried.bounded))
  zero := carried.zero.trans endAround_eq_zero

theorem unique (first : OnesResidue radix sum residue) (second : OnesResidue radix sum other) :
    residue = other := by
  by_cases empty : sum = 0
  · rw [first.zero.mpr empty, second.zero.mpr empty]
  have left := mt first.zero.mp empty
  have right := mt second.zero.mp empty
  have small := first.bounded
  have small' := second.bounded
  -- Both lie between one and the modulus, so they are equal once shifted down by one.
  have same : residue - 1 ≡ other - 1 [MOD radix - 1] := by
    apply Nat.ModEq.add_right_cancel' 1
    rw [Nat.sub_add_cancel (by omega), Nat.sub_add_cancel (by omega)]
    exact first.congruent.trans second.congruent.symm
  have equal := same.eq_of_lt_of_lt (by omega) (by omega)
  omega

/-- A sum completed by the complement of its residue stands for all ones. -/
theorem completed (several : 1 < radix) (folded : OnesResidue radix sum residue) :
    OnesResidue radix (sum + (radix - 1 - residue)) (radix - 1) where
  bounded := by omega
  congruent := by
    have small := folded.bounded
    have whole : residue + (radix - 1 - residue) = radix - 1 := by omega
    have step := folded.congruent.add_right (radix - 1 - residue)
    rwa [whole] at step
  zero := by
    have small := folded.bounded
    have zero := folded.zero
    omega

end OnesResidue

/-! ## Sums of byte strings -/

/-- The sum of the big-endian 16-bit words of a byte string; an odd last byte is
the upper half of a word. -/
def wordSum : List UInt8 → Nat
  | [] => 0
  | [last] => 0x100 * last.toNat
  | high :: low :: rest => 0x100 * high.toNat + low.toNat + wordSum rest

/-- Byte strings of even length are summed one after the other. -/
theorem wordSum_append (right : List UInt8) (even : left.length % 2 = 0) :
    wordSum (left ++ right) = wordSum left + wordSum right := by
  fun_induction wordSum left with
  | case1 => simp
  | case2 last => simp at even
  | case3 high low rest ih =>
    have shorter : rest.length % 2 = 0 := by simp at even; omega
    rw [List.cons_append, List.cons_append, wordSum, ih shorter]
    omega

theorem wordSum_le (bytes : List UInt8) : wordSum bytes ≤ 0x8000 * (bytes.length + 1) := by
  fun_induction wordSum bytes with
  | case1 => simp
  | case2 last =>
    have small := last.toNat_lt
    simp only [List.length_singleton]
    omega
  | case3 high low rest ih =>
    have upper := high.toNat_lt
    have lower := low.toNat_lt
    simp only [List.length_cons]
    omega

end Mikos.Library
