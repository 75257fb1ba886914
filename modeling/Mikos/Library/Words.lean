import Mathlib.Data.UInt
import Mathlib.Tactic.Common

/-!
# Unsigned arithmetic

Results of unsigned arithmetic of a given width, on natural numbers.
-/

namespace Mikos.Library

/-- A value in an unsigned type. -/
@[irreducible] def wrap (width value : Nat) : Nat := value % 2 ^ width

/-- A difference in an unsigned type. -/
@[irreducible] def wrapSub (width left right : Nat) : Nat := (left + 2 ^ width - right) % 2 ^ width

variable {width value left right : Nat}

theorem wrap_of_lt (small : value < 2 ^ width) : wrap width value = value := by
  unfold wrap
  exact Nat.mod_eq_of_lt small

theorem wrapSub_of_le (ordered : right ≤ left) (small : left < 2 ^ width) :
    wrapSub width left right = left - right := by
  unfold wrapSub
  rw [Nat.sub_add_comm ordered, Nat.add_mod_right, Nat.mod_eq_of_lt (by omega)]

end Mikos.Library
