import Mathlib.Data.List.Basic
import Mathlib.Data.UInt
import Mathlib.Tactic.Ring

/-!
# Serial-number arithmetic

Sequence numbers live in the integers modulo `2 ^ 32` and are ordered only
through the sign of a 32-bit difference.  The order is meaningful as long as
all numbers in play are offsets of one common origin that span less than half
of the number space.  This module states that fact once: relative to an origin,
the signed distance of two sequence numbers is the difference of their offsets.
-/

namespace Mikos.Library

/-- The signed 32-bit difference `static_cast<i32>(left - right)`. -/
def serialDistance (left right : UInt32) : Int :=
  (left - right).toInt32.toInt

/-- A signed difference is read off the unsigned one by its upper half. -/
theorem serialDistance_eq (left right : UInt32) :
    serialDistance left right = if (left - right).toNat < 2 ^ 31 then ((left - right).toNat : Int)
      else (left - right).toNat - 2 ^ 32 := by
  have bound := (left - right).toNat_lt
  change (left - right).toBitVec.toInt = _
  rw [BitVec.toInt_eq_toNat_cond, UInt32.toNat_toBitVec]
  split <;> split <;> omega

@[simp] theorem serialDistance_self (origin : UInt32) : serialDistance origin origin = 0 := by
  simp [serialDistance_eq]

theorem serialDistance_eq_zero : serialDistance left right = 0 ↔ left = right := by
  constructor
  · intro zero
    rw [serialDistance_eq] at zero
    have bound := (left - right).toNat_lt
    have difference : (left - right).toNat = 0 := by
      split at zero <;> omega
    have zero : left - right = 0 := UInt32.toNat_inj.mp difference
    grind
  · rintro rfl
    exact serialDistance_self left

/-- The unsigned difference of two offsets of one origin, in order. -/
theorem toNat_offset_sub (origin : UInt32) (ordered : low ≤ high) (bounded : high - low < 2 ^ 32) :
    ((origin + UInt32.ofNat high) - (origin + UInt32.ofNat low)).toNat = high - low := by
  have split : UInt32.ofNat high = UInt32.ofNat low + UInt32.ofNat (high - low) := by
    rw [← UInt32.ofNat_add]
    congr 1
    omega
  rw [split]
  have cancel : origin + (UInt32.ofNat low + UInt32.ofNat (high - low)) -
      (origin + UInt32.ofNat low) = UInt32.ofNat (high - low) := by
    grind
  rw [cancel, UInt32.toNat_ofNat']
  omega

/-- The signed distance of two offsets of one origin is the distance of the
offsets, whatever the origin and however often the numbers wrapped. -/
theorem serialDistance_offset (origin : UInt32) (left right : Nat)
    (leftBounded : left < right + 2 ^ 31) (rightBounded : right < left + 2 ^ 31) :
    serialDistance (origin + UInt32.ofNat left) (origin + UInt32.ofNat right) =
      (left : Int) - right := by
  rw [serialDistance_eq]
  rcases Nat.le_total right left with ordered | ordered
  · rw [toNat_offset_sub origin ordered (by omega)]
    split <;> omega
  have forward := toNat_offset_sub origin ordered (by omega)
  have backward : (origin + UInt32.ofNat left) - (origin + UInt32.ofNat right) =
      -((origin + UInt32.ofNat right) - (origin + UInt32.ofNat left)) := by
    grind
  rw [backward, UInt32.toNat_neg, forward, UInt32.size]
  split <;> omega

/-- Moving an offset forward moves its sequence number forward. -/
theorem offset_add (origin : UInt32) (offset count : Nat) :
    origin + UInt32.ofNat offset + UInt32.ofNat count = origin + UInt32.ofNat (offset + count) := by
  rw [UInt32.ofNat_add]
  grind

/-- A sequence number moved forward by the unsigned difference reaches the
other end of that difference. -/
@[simp] theorem add_ofNat_difference (left right : UInt32) :
    right + UInt32.ofNat (left - right).toNat = left := by
  rw [UInt32.ofNat_toNat]
  grind

end Mikos.Library
