import Mathlib.Data.Nat.ModEq
import Mathlib.Data.UInt
import Mathlib.Tactic.Common

/-!
# Circular buffers

The elements of a queue lie in the cells of a buffer from some position on, around its end if
need be.  Elements are put behind them as long as there is room, and taken from the front.
-/

namespace Mikos.Library
open Function List
variable {α : Type} {capacity : Nat} [NeZero capacity] {cells : Fin capacity → α}
  {head size position : Nat} {elements : List α}

/-- The elements from a position on. -/
def window (cells : Fin capacity → α) (head size : Nat) : List α :=
  (List.range size).map fun offset => cells (Fin.ofNat capacity (head + offset))

/-- Put elements in the cells from a position on. -/
def fill (cells : Fin capacity → α) (position : Nat) : List α → Fin capacity → α
  | [] => cells
  | element :: rest =>
    fill (update cells (Fin.ofNat capacity position) element) (position + 1) rest

@[simp] theorem length_window : (window cells head size).length = size := by
  simp [window]

theorem ofNat_eq_iff :
    Fin.ofNat capacity left = Fin.ofNat capacity right ↔ left ≡ right [MOD capacity] := by
  simp [Fin.ext_iff, Nat.ModEq]

/-- Positions less than one round apart are different cells. -/
theorem ofNat_ne (before : left < right) (near : right < left + capacity) :
    Fin.ofNat capacity left ≠ Fin.ofNat capacity right := by
  intro same
  have equal := Nat.ModEq.eq_of_abs_lt (ofNat_eq_iff.mp same) (by
    rw [abs_lt]
    omega)
  omega

theorem window_mod : window cells (head % capacity) size = window cells head size := by
  unfold window
  refine map_congr_left fun offset _ => congrArg cells (ofNat_eq_iff.mpr ?_)
  exact (Nat.mod_modEq head capacity).add_right offset

theorem window_add (first second : Nat) :
    window cells head (first + second) =
      window cells head first ++ window cells (head + first) second := by
  simp [window, range_add, Nat.add_assoc]

theorem window_take (enough : amount ≤ size) :
    (window cells head size).take amount = window cells head amount := by
  obtain ⟨rest, rfl⟩ := Nat.exists_eq_add_of_le enough
  rw [window_add, take_left' length_window]

theorem window_drop (enough : amount ≤ size) :
    (window cells head size).drop amount = window cells (head + amount) (size - amount) := by
  obtain ⟨rest, rfl⟩ := Nat.exists_eq_add_of_le enough
  rw [window_add, drop_left' length_window, Nat.add_sub_cancel_left]

/-- Cells behind and, if there is room, before the elements put in are kept. -/
theorem fill_before (before : place < position)
    (near : position + elements.length ≤ place + capacity) :
    fill cells position elements (Fin.ofNat capacity place) = cells (Fin.ofNat capacity place) := by
  induction elements generalizing cells position with
  | nil => rfl
  | cons element rest ih =>
    rw [length_cons] at near
    rw [fill, ih (by omega) (by omega), update_of_ne (ofNat_ne before (by omega))]

theorem window_fill_self (room : elements.length ≤ capacity) :
    window (fill cells position elements) position elements.length = elements := by
  induction elements generalizing cells position with
  | nil => rfl
  | cons element rest ih =>
    rw [length_cons] at room
    rw [length_cons, Nat.add_comm, window_add, fill, ih (by omega)]
    simp only [window, range_one, map_cons, map_nil, Nat.add_zero]
    rw [fill_before (by omega) (by omega), update_self]
    rfl

theorem window_fill (room : size + elements.length ≤ capacity) :
    window (fill cells (head + size) elements) head (size + elements.length) =
      window cells head size ++ elements := by
  rw [window_add, window_fill_self (by omega)]
  congr 1
  unfold window
  refine map_congr_left fun offset mem => ?_
  rw [mem_range] at mem
  exact fill_before (by omega) (by omega)

end Mikos.Library
