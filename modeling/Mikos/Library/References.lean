import Mathlib.Data.Fintype.Basic
import Mathlib.Data.List.FinRange
import Mathlib.Data.UInt
import Mathlib.Logic.Function.Iterate

/-!
# Tables of reference-counted objects

A table has a fixed number of slots.  An object in a slot is named by the number of the
slot and its generation there; it counts the references to each of its ends and is gone
when none is left.
-/

namespace Mikos.Library
open Function

/-- The name of an object; the default name is that of no object. -/
@[ext] structure Handle where
  generation : UInt16 := 0
  slot : Nat := 0xff
  deriving DecidableEq, Repr

/-- A slot of a table: its object with the references to the ends. -/
structure Entry (ι π : Type) where
  payload : π
  generation : UInt16 := 0
  references : ι → Nat := fun _ => 0
  used : Bool := false

abbrev ReferenceTable (capacity : Nat) (ι π : Type) := Fin capacity → Entry ι π

namespace ReferenceTable
variable {capacity : Nat} {ι π : Type}

/-- The slot of an object that is there. -/
def find (table : ReferenceTable capacity ι π) (handle : Handle) : Option (Fin capacity) :=
  if inside : handle.slot < capacity then
    let entry := table ⟨handle.slot, inside⟩
    if entry.used ∧ entry.generation = handle.generation then some ⟨handle.slot, inside⟩ else none
  else none

/-- The first slot without an object. -/
def vacant (table : ReferenceTable capacity ι π) : Option (Fin capacity) :=
  (List.finRange capacity).find? fun index => !(table index).used

/-- The generation after a given one; zero is left out. -/
def nextGeneration (generation : UInt16) : UInt16 :=
  if generation + 1 = 0 then 1 else generation + 1

theorem toNat_iterate_nextGeneration (known : generation ≠ 0) (steps : Nat) :
    (nextGeneration^[steps] generation).toNat = (generation.toNat - 1 + steps) % 65535 + 1 := by
  have pos : generation.toNat ≠ 0 := fun zero => known (UInt16.toNat_inj.mp zero)
  have bound := generation.toNat_lt
  induction steps with
  | zero =>
    rw [iterate_zero_apply, Nat.mod_eq_of_lt (by omega)]
    omega
  | succ steps ih =>
    rw [iterate_succ_apply']
    generalize nextGeneration^[steps] generation = current at ih
    have next : (nextGeneration current).toNat = current.toNat % 65535 + 1 := by
      have small := current.toNat_lt
      have sum : (current + 1).toNat = (current.toNat + 1) % 2 ^ 16 := by
        rw [UInt16.toNat_add, UInt16.toNat_one]
      unfold nextGeneration
      split
      next top =>
        rw [top, UInt16.toNat_zero] at sum
        rw [UInt16.toNat_one]
        omega
      rename_i inside
      have nonzero : (current + 1).toNat ≠ 0 := fun zero => inside (UInt16.toNat_inj.mp zero)
      omega
    rw [next, ih]
    omega

/-- A generation comes again only after all others. -/
theorem iterate_nextGeneration_ne (known : generation ≠ 0) (some : 0 < steps) (few : steps < 65535)
    : nextGeneration^[steps] generation ≠ generation := by
  intro same
  have count := toNat_iterate_nextGeneration known steps
  have bound := generation.toNat_lt
  rw [same] at count
  omega

theorem nextGeneration_ne_zero (generation : UInt16) : nextGeneration generation ≠ 0 := by
  unfold nextGeneration
  split
  · decide
  next inside => exact inside

/-- Put a new object into a slot. -/
def install (table : ReferenceTable capacity ι π) (index : Fin capacity) (payload : π)
    (references : ι → Nat) : Handle × ReferenceTable capacity ι π :=
  let generation := nextGeneration (table index).generation
  (⟨generation, index⟩, update table index { payload, generation, references, used := true })

section Counts
variable [DecidableEq ι]

def setReferences (table : ReferenceTable capacity ι π) (index : Fin capacity) (which : ι)
    (count : Nat) : ReferenceTable capacity ι π :=
  update table index
    { table index with references := update (table index).references which count }

variable [Fintype ι]

/-- Drop a reference; the last one takes the object with it. -/
def drop (table : ReferenceTable capacity ι π) (index : Fin capacity) (which : ι) (empty : π) :
    ReferenceTable capacity ι π :=
  let lowered := table.setReferences index which ((table index).references which - 1)
  if ∀ end', (lowered index).references end' = 0 then
    update lowered index { payload := empty, generation := (table index).generation }
  else lowered

end Counts

variable {table : ReferenceTable capacity ι π} {handle : Handle} {i : Fin capacity}

theorem find_eq_some : table.find handle = some i ↔
    handle.slot = i ∧ (table i).used = true ∧ (table i).generation = handle.generation := by
  unfold find
  split
  next inside =>
    constructor
    · intro found
      simp only at found
      split at found
      next current =>
        cases found
        exact ⟨rfl, current⟩
      · cases found
    · rintro ⟨slot, used, generation⟩
      have same : (⟨handle.slot, inside⟩ : Fin capacity) = i := Fin.ext slot
      rw [same]
      exact if_pos ⟨used, generation⟩
  rename_i outside
  constructor
  · intro found
    cases found
  · rintro ⟨slot, -⟩
    exact absurd (slot ▸ i.isLt) outside

end ReferenceTable
end Mikos.Library
