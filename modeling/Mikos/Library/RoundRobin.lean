import Mathlib.Data.List.FinRange
import Mathlib.Data.List.Rotate
import Mathlib.Data.UInt

/-!
# Taking turns

Every element has a list of those that come after it, and the next one is the first of them that
is wanted.  If the lists are rotations of each other, the turns go round all wanted elements.
-/

namespace Mikos.Library
open List
section Turns
variable {α : Type} (turn : α → List α) (wanted : α → Bool)

/-- The next wanted element. -/
def nextWanted (current : α) : α := ((turn current).find? wanted).getD current

variable {turn wanted}

/-- The turns from an element on are the wanted ones of its list, in order. -/
theorem iterate_nextWanted {before list after : List α}
    (rotates : ∀ {current before next after}, turn current = before ++ next :: after →
      turn next = after ++ (before ++ [next]))
    (skipped : ∀ element ∈ before, wanted element = false)
    (listed : turn current = before ++ (list ++ after)) :
    (range (list.filter wanted).length).map
      (fun step => (nextWanted turn wanted)^[step + 1] current) = list.filter wanted := by
  induction list generalizing current before after with
  | nil => rfl
  | cons next rest ih =>
    cases wants : wanted next with
    | false =>
      rw [filter_cons_of_neg (by simp [wants])]
      refine @ih _ (before ++ [next]) after ?_ (by simpa using listed)
      rintro element mem
      rcases mem_append.mp mem with earlier | last
      · exact skipped element earlier
      · rwa [mem_singleton.mp last]
    | true =>
      have first : nextWanted turn wanted current = next := by
        rw [nextWanted, listed, find?_append, find?_eq_none.mpr (by simpa using skipped)]
        simp [wants]
      have later := @ih next [] (after ++ (before ++ [next])) (by simp)
        (by simpa using rotates listed)
      rw [filter_cons_of_pos wants, length_cons, range_succ_eq_map, map_cons, map_map]
      simp only [Function.comp_def, Function.iterate_succ_apply, first] at later ⊢
      rw [later]
      rfl

end Turns
end Mikos.Library
