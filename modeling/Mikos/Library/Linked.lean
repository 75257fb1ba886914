import Mathlib.Data.UInt
import Mathlib.Tactic.Common

/-!
# Linked lists in a memory

Records lie at addresses of a memory and each holds the address of the next one.  A path is
the list of the records that are met on the way from one address to another; it is followed
piece by piece, and keeps its shape when the memory changes elsewhere.
-/

namespace Mikos.Library
variable {α β : Type} {link : β → Nat} {view : β → α} {memory memory' : Nat → Option β}
  {pointer middle last address : Nat} {items left right : List (Nat × α)} {value : α}

/-- The records met when following links from one address to another, with what is seen of
them; no record is at address zero. -/
def Path (link : β → Nat) (view : β → α) (memory : Nat → Option β) :
    Nat → List (Nat × α) → Nat → Prop
  | pointer, [], last => pointer = last
  | pointer, (address, value) :: rest, last =>
    pointer = address ∧ address ≠ 0 ∧
      ∃ record, memory address = some record ∧ view record = value ∧
        Path link view memory (link record) rest last

theorem path_append : Path link view memory pointer (left ++ right) last ↔
    ∃ middle, Path link view memory pointer left middle ∧
      Path link view memory middle right last := by
  induction left generalizing pointer with
  | nil =>
    simp only [List.nil_append, Path]
    exact ⟨fun path => ⟨pointer, rfl, path⟩, fun ⟨_, same, path⟩ => same ▸ path⟩
  | cons item rest ih =>
    obtain ⟨address, value⟩ := item
    simp only [List.cons_append, Path, ih]
    constructor
    · rintro ⟨same, nonzero, record, found, seen, middle, first, second⟩
      exact ⟨middle, ⟨same, nonzero, record, found, seen, first⟩, second⟩
    · rintro ⟨middle, ⟨same, nonzero, record, found, seen, first⟩, second⟩
      exact ⟨same, nonzero, record, found, seen, middle, first, second⟩

/-- A path depends on the memory at its records only. -/
theorem Path.congr (path : Path link view memory pointer items last)
    (same : ∀ item ∈ items, memory' item.1 = memory item.1) :
    Path link view memory' pointer items last := by
  induction items generalizing pointer with
  | nil => exact path
  | cons item rest ih =>
    obtain ⟨address, value⟩ := item
    obtain ⟨equal, nonzero, record, found, seen, path⟩ := path
    refine ⟨equal, nonzero, record, ?_, seen, ih path fun item mem => ?_⟩
    · rw [same (address, value) List.mem_cons_self, found]
    · exact same item (List.mem_cons_of_mem _ mem)

end Mikos.Library
