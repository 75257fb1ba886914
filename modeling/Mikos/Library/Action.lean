import Mathlib.Data.UInt
import Mathlib.Order.Defs.Unbundled

/-!
# Running programs with state and exceptions

Equations that execute a program of the monad `EStateM` on a given state, the
inversions of a sequence that came to an end, and rules for what a program leaves
as it was.
-/

namespace Mikos.Library
variable {ε σ α β : Type} {first : EStateM ε σ α} {next : α → EStateM ε σ β} {state last : σ}
  {value : α} {error : ε}

@[simp] theorem pure_apply : (pure value : EStateM ε σ α) state = .ok value state := rfl

@[simp] theorem throw_apply : (throw error : EStateM ε σ α) state = .error error state := rfl

@[simp] theorem get_apply : (get : EStateM ε σ σ) state = .ok state state := rfl

@[simp] theorem modify_apply (change : σ → σ) :
    (modify change : EStateM ε σ PUnit) state = .ok ⟨⟩ (change state) := rfl

theorem bind_apply : (first >>= next) state = match first state with
    | .ok value state => next value state
    | .error error state => .error error state := rfl

@[simp] theorem get_bind (next : σ → EStateM ε σ β) : (get >>= next) state = next state state := rfl

@[simp] theorem modify_bind (change : σ → σ) (next : PUnit → EStateM ε σ β) :
    (modify change >>= next) state = next ⟨⟩ (change state) := rfl

@[simp] theorem pure_bind_apply (next : α → EStateM ε σ β) :
    (pure value >>= next) state = next value state := rfl

@[simp] theorem throw_bind (next : α → EStateM ε σ β) :
    ((throw error : EStateM ε σ α) >>= next) state = .error error state := rfl

@[simp] theorem ite_apply_state [Decidable condition] {left right : EStateM ε σ α} :
    (if condition then left else right) state = if condition then left state else right state := by
  split <;> rfl

theorem bind_of_ok (ran : first state = .ok value last) :
    (first >>= next) state = next value last := by
  rw [bind_apply, ran]

theorem bind_of_error (ran : first state = .error error last) :
    (first >>= next) state = .error error last := by
  rw [bind_apply, ran]

theorem tryCatch_apply (handler : ε → EStateM ε σ α) :
    (tryCatch first handler) state = match first state with
      | .ok value state => .ok value state
      | .error error state => handler error state := by
  change EStateM.tryCatch first handler state = _
  unfold EStateM.tryCatch
  cases first state <;> rfl

/-! ## What a program leaves as it was -/

def endState : EStateM.Result ε σ α → σ
  | .ok _ state | .error _ state => state

@[simp] theorem endState_ok : endState (.ok value state : EStateM.Result ε σ α) = state := rfl

@[simp] theorem endState_error : endState (.error error state : EStateM.Result ε σ α) = state := rfl

/-- The run ended with an error. -/
def failed : EStateM.Result ε σ α → Bool
  | .ok _ _ => false
  | .error _ _ => true

theorem ok_of_not_failed (ran : ¬ failed result = true) :
    ∃ value state, result = .ok value state := by
  cases result with
  | ok value state => exact ⟨value, state, rfl⟩
  | error error state => exact absurd rfl ran

theorem bind_of_failed (ran : failed (first state) = true) :
    failed ((first >>= next) state) = true ∧
      endState ((first >>= next) state) = endState (first state) := by
  rw [bind_apply]
  cases result : first state with
  | ok value middle =>
    rw [result] at ran
    cases ran
  | error error middle => exact ⟨rfl, rfl⟩

/-- However a program ends, its last state is related to its first one. -/
def Retains (relation : σ → σ → Prop) (program : EStateM ε σ α) : Prop :=
  ∀ state, relation state (endState (program state))

namespace Retains
variable {relation : σ → σ → Prop} [IsPreorder σ relation]

theorem pure (value : α) : Retains relation (Pure.pure value : EStateM ε σ α) :=
  fun state => refl_of relation state

theorem throw (error : ε) : Retains relation (throw error : EStateM ε σ α) :=
  fun state => refl_of relation state

theorem get : Retains relation (get : EStateM ε σ σ) := fun state => refl_of relation state

omit [IsPreorder σ relation] in
theorem modify (related : ∀ state, relation state (change state)) :
    Retains relation (modify change : EStateM ε σ PUnit) :=
  related

theorem bind (head : Retains relation first) (tail : ∀ value, Retains relation (next value)) :
    Retains relation (first >>= next) := by
  intro state
  have begun := head state
  rw [bind_apply]
  cases ran : first state with
  | ok value middle =>
    rw [ran] at begun
    exact trans_of relation begun (tail value middle)
  | error error middle =>
    rw [ran] at begun
    exact begun

omit [IsPreorder σ relation] in
theorem ite [Decidable condition] (pos : condition → Retains relation left)
    (negative : ¬ condition → Retains relation right) :
    Retains relation (if condition then left else right) := by
  split
  next holds => exact pos holds
  next fails => exact negative fails

theorem tryCatch (tried : Retains relation first)
    (handled : ∀ error, Retains relation (handler error)) :
    Retains relation (tryCatch first handler) := by
  intro state
  have begun := tried state
  rw [tryCatch_apply]
  cases ran : first state with
  | ok value middle =>
    rw [ran] at begun
    exact begun
  | error error middle =>
    rw [ran] at begun
    exact trans_of relation begun (handled error middle)

theorem ofExcept (result : Except ε α) :
    Retains relation (MonadExcept.ofExcept result : EStateM ε σ α) := by
  cases result with
  | ok value => exact pure value
  | error error => exact throw error

end Retains

/-! ## What a program answers -/

theorem ok_bind (next : α → Except ε β) : (Except.ok value >>= next) = next value := rfl

theorem ok_of_bind {first : Except ε α} {next : α → Except ε β}
    (ran : (first >>= next) = .ok result) :
    ∃ value, first = .ok value ∧ next value = .ok result := by
  cases first with
  | error error => cases ran
  | ok value => exact ⟨value, rfl, ran⟩

/-- The end of a run with a result. -/
def resultOf (state : σ) : Except ε α → EStateM.Result ε σ α
  | .ok value => .ok value state
  | .error error => .error error state

/-- What a run returns. -/
def answer : EStateM.Result ε σ α → Except ε α
  | .ok value _ => .ok value
  | .error error _ => .error error

@[simp] theorem answer_resultOf (state : σ) (result : Except ε α) :
    answer (resultOf state result) = result := by
  cases result <;> rfl

/-- From all states of a kind a program comes to the same result, in a state of that
kind. -/
def Settles (near : σ → Prop) (program : EStateM ε σ α) (result : Except ε α) : Prop :=
  ∀ state, near state → ∃ last, near last ∧ program state = resultOf last result

namespace Settles
variable {near : σ → Prop} {result : Except ε α} {later : α → Except ε β}

theorem answer_eq (settles : Settles near first result) (isNear : near state) :
    answer (first state) = result := by
  obtain ⟨last, -, ran⟩ := settles state isNear
  rw [ran, answer_resultOf]

theorem pure (value : α) : Settles near (Pure.pure value : EStateM ε σ α) (.ok value) :=
  fun state isNear => ⟨state, isNear, rfl⟩

theorem throw (error : ε) : Settles near (throw error : EStateM ε σ α) (.error error) :=
  fun state isNear => ⟨state, isNear, rfl⟩

theorem ofExcept (result : Except ε α) :
    Settles near (MonadExcept.ofExcept result : EStateM ε σ α) result := by
  cases result with
  | ok value => exact pure value
  | error error => exact throw error

theorem get_bind {next : σ → EStateM ε σ α}
    (settles : ∀ state, near state → Settles near (next state) result) :
    Settles near (get >>= next) result :=
  fun state isNear => settles state isNear state isNear

theorem bind (head : Settles near first result)
    (tail : ∀ value, result = .ok value → Settles near (next value) (later value)) :
    Settles near (first >>= next) (result >>= later) := by
  intro state isNear
  obtain ⟨middle, stillNear, ran⟩ := head state isNear
  cases result with
  | ok value =>
    obtain ⟨last, lastNear, ranLater⟩ := tail value rfl middle stillNear
    exact ⟨last, lastNear, (bind_of_ok ran).trans ranLater⟩
  | error error => exact ⟨middle, stillNear, bind_of_error ran⟩

theorem bind_ok {result : Except ε β} (head : Settles near first (.ok value))
    (tail : Settles near (next value) result) : Settles near (first >>= next) result := by
  intro state isNear
  obtain ⟨middle, stillNear, ran⟩ := head state isNear
  obtain ⟨last, lastNear, ranLater⟩ := tail middle stillNear
  exact ⟨last, lastNear, (bind_of_ok ran).trans ranLater⟩

theorem bind_error (head : Settles near first (.error error)) :
    Settles near (first >>= next) (.error error) := by
  intro state isNear
  obtain ⟨middle, stillNear, ran⟩ := head state isNear
  exact ⟨middle, stillNear, bind_of_error ran⟩

theorem tryCatch (tried : Settles near first result)
    (rescue : ∀ error, result = .error error → Settles near (handler error) (handled error)) :
    Settles near (tryCatch first handler) (tryCatch result handled) := by
  intro state isNear
  obtain ⟨middle, stillNear, ran⟩ := tried state isNear
  rw [tryCatch_apply, ran]
  cases result with
  | ok value => exact ⟨middle, stillNear, rfl⟩
  | error error => exact rescue error rfl middle stillNear

theorem ite [Decidable condition] (pos : condition → Settles near left leftResult)
    (negative : ¬ condition → Settles near right rightResult) :
    Settles near (if condition then left else right)
      (if condition then leftResult else rightResult) := by
  by_cases holds : condition
  · rw [if_pos holds, if_pos holds]
    exact pos holds
  · rw [if_neg holds, if_neg holds]
    exact negative holds

end Settles
end Mikos.Library
