import Mathlib.Data.Nat.ModEq
import Mathlib.Data.UInt
import Mathlib.Tactic.Common

/-!
# Shared rings with free-running counters

One party puts entries into the cells of a ring and another one takes them out.  Each counts
its entries with a counter that wraps; the cell is the counter modulo the size.  As long as the
entries under way fit into the ring, every entry is taken once and in order, however often the
counters wrap.
-/

namespace Mikos.Library
open Function List

/-- The cells and counters stand for the entries that were put in, of which some were taken. -/
structure Carries {α : Type} (size : Nat) (cells : Nat → α) (index seen : UInt16)
    (entries : List α) (taken : Nat) : Prop where
  round : size ∣ 2 ^ 16
  small : size < 2 ^ 16
  put : index = UInt16.ofNat entries.length
  got : seen = UInt16.ofNat taken
  order : taken ≤ entries.length
  room : entries.length ≤ taken + size
  stored : ∀ place entry, taken ≤ place → entries[place]? = some entry →
    cells (place % size) = entry

namespace Carries
variable {α : Type} {size : Nat} {cells : Nat → α} {i seen : UInt16} {entries : List α}
  {taken : Nat} {entry : α}

theorem toNat_mod (round : size ∣ 2 ^ 16) (count : Nat) :
    (UInt16.ofNat count).toNat % size = count % size := by
  rw [UInt16.toNat_ofNat']
  exact Nat.mod_mod_of_dvd count round

theorem toNat_index_mod (carries : Carries size cells i seen entries taken) :
    i.toNat % size = entries.length % size := by
  rw [carries.put, toNat_mod carries.round]

theorem ofNat_succ (count : Nat) : UInt16.ofNat count + 1 = UInt16.ofNat (count + 1) :=
  (UInt16.ofNat_add count 1).symm

section
variable (carries : Carries size cells i seen entries taken)
include carries

/-- Nothing is under way exactly if the counters agree. -/
theorem seen_eq_index_iff : seen = i ↔ taken = entries.length := by
  rw [carries.put, carries.got]
  constructor
  · intro same
    have modulo := congrArg UInt16.toNat same
    simp only [UInt16.toNat_ofNat'] at modulo
    have below := carries.order
    have room := carries.room
    have small := carries.small
    exact Nat.ModEq.eq_of_abs_lt modulo (by rw [abs_lt]; omega)
  · intro same
    rw [same]

section
variable (room : entries.length < taken + size)
include room

/-- An entry is written to its cell before it is counted. -/
theorem store (entry : α) :
    Carries size (update cells (i.toNat % size) entry) i seen entries taken := by
  refine { carries with stored := fun place other later found => ?_ }
  have within : place < entries.length := (List.getElem?_eq_some_iff.mp found).1
  rw [update_of_ne, carries.stored place other later found]
  rw [carries.toNat_index_mod]
  intro same
  have equal := Nat.ModEq.eq_of_abs_lt same (by rw [abs_lt]; omega)
  omega

theorem count (written : cells (i.toNat % size) = entry) :
    Carries size cells (i + 1) seen (entries ++ [entry]) taken := by
  refine { carries with put := ?_, order := ?_, room := ?_, stored := ?_ }
  · rw [carries.put, ofNat_succ, length_append, length_singleton]
  · rw [length_append]
    exact Nat.le_add_right_of_le carries.order
  · rw [length_append, length_singleton]
    exact room
  intro place other later found
  rw [List.getElem?_append] at found
  split at found
  · exact carries.stored place other later found
  rename_i behind
  obtain ⟨inside, same⟩ := List.getElem?_eq_some_iff.mp found
  rw [length_singleton] at inside
  have last : place = entries.length := by omega
  subst last
  simp only [Nat.sub_self, getElem_cons_zero] at same
  rw [← carries.toNat_index_mod, written, same]

theorem append (entry : α) :
    Carries size (update cells (i.toNat % size) entry) (i + 1) seen (entries ++ [entry]) taken :=
  (carries.store room entry).count room (update_self ..)

end

/-- The next entry is in the cell of the counter, and is taken by counting it. -/
theorem take (waiting : taken < entries.length) :
    entries[taken]? = some (cells (seen.toNat % size)) ∧
      Carries size cells i (seen + 1) entries (taken + 1) := by
  have cell : seen.toNat % size = taken % size := by rw [carries.got, toNat_mod carries.round]
  have room := carries.room
  have found := List.getElem?_eq_getElem waiting
  refine ⟨?_, ?_⟩
  · rw [found, cell, carries.stored taken _ (Nat.le_refl _) found]
  · refine { carries with got := ?_, order := waiting, room := by omega, stored := ?_ }
    · rw [carries.got, ofNat_succ]
    · exact fun place entry later => carries.stored place entry (by omega)

end

theorem start (round : size ∣ 2 ^ 16) (small : size < 2 ^ 16) : Carries size cells 0 0 [] 0 :=
  ⟨round, small, rfl, rfl, Nat.le_refl _, Nat.zero_le _, by simp⟩

end Carries
end Mikos.Library
