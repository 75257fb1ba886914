import Mikos.Process.Path

/-!
# Numbered names

The number behind a stem is read in 32-bit words, and a digit is taken only if the number stays
below the limit.
-/

namespace Mikos.Process.Path
open Library

/-- `invalid_number`. -/
def invalidNumber : UInt32 := 0xffffffff

/-- `numberFrom` as the kernel computes it. -/
def numberWord (limit : UInt32) : Text → UInt32 → UInt32
  | [], value => if value < limit then value else invalidNumber
  | character :: rest, value =>
    let digit := character.toUInt32 - 0x30
    if ¬ isDigit character then invalidNumber
    else if limit ≤ digit ∨ (limit - 1 - digit) / 10 < value then invalidNumber
    else numberWord limit rest (value * 10 + digit)

/-- `numberedSuffix` as the kernel computes it. -/
def numberedWord (name stem : Text) (limit : UInt32) : UInt32 :=
  if limit ≠ 0 ∧ stem.isPrefixOf name ∧ (name.drop stem.length).head?.any isDigit then
    numberWord limit (name.drop stem.length) 0
  else invalidNumber

/-- The number that digits denote behind those of `value`. -/
def decimal : Text → Nat → Nat
  | [], value => value
  | character :: rest, value => decimal rest (value * 10 + (character.toNat - 0x30))

theorem le_decimal (digits : Text) (value : Nat) : value ≤ decimal digits value := by
  induction digits generalizing value with
  | nil => exact Nat.le_refl _
  | cons character rest ih =>
    have more := ih (value * 10 + (character.toNat - 0x30))
    rw [decimal]
    omega

theorem numberFrom_eq_some : numberFrom limit digits value = some number ↔
    (∀ character ∈ digits, isDigit character) ∧ decimal digits value = number ∧ number < limit := by
  induction digits generalizing value with
  | nil =>
    rw [numberFrom, decimal]
    split <;> simp <;> omega
  | cons character rest ih =>
    rw [numberFrom, decimal, List.forall_mem_cons]
    split
    next other => simp [other]
    rename_i digit
    split
    · have more := le_decimal rest (value * 10 + (character.toNat - 0x30))
      simp
      omega
    · rw [ih]
      simp [not_not.mp digit]

theorem guard_iff {limit word value : UInt32} (pos : limit ≠ 0) :
    limit ≤ word ∨ (limit - 1 - word) / 10 < value ↔
      limit.toNat ≤ word.toNat ∨ (limit.toNat - 1 - word.toNat) / 10 < value.toNat := by
  have some : 1 ≤ limit.toNat := Nat.pos_of_ne_zero fun zero => pos (UInt32.toNat_inj.mp zero)
  have less : (limit - 1).toNat = limit.toNat - 1 := UInt32.toNat_sub_of_le _ _ some
  rw [UInt32.le_iff_toNat_le]
  refine or_congr_right' fun below => ?_
  have exact := UInt32.toNat_sub_of_le (limit - 1) word (UInt32.le_iff_toNat_le.mpr (by omega))
  rw [UInt32.lt_iff_toNat_lt, UInt32.toNat_div, exact, less]
  rfl

theorem numberWord_eq {limit value : UInt32} (pos : limit ≠ 0) : numberWord limit digits value =
    ((numberFrom limit.toNat digits value.toNat).map UInt32.ofNat).getD invalidNumber := by
  induction digits generalizing value with
  | nil =>
    rw [numberWord, numberFrom]
    simp only [UInt32.lt_iff_toNat_lt]
    split <;> simp
  | cons character rest ih =>
    rw [numberWord, numberFrom]
    split
    · rfl
    rename_i digit
    have low : 0x30 ≤ character.toNat := by
      simp [isDigit, UInt8.le_iff_toNat_le] at digit
      exact digit.1
    rw [← show (character.toUInt32 - 0x30).toNat = character.toNat - 0x30 from
      UInt32.toNat_sub_of_le _ _ low]
    generalize character.toUInt32 - 0x30 = word
    have guard := @guard_iff limit word value pos
    by_cases refused : limit.toNat ≤ word.toNat ∨ (limit.toNat - 1 - word.toNat) / 10 < value.toNat
    · rw [if_pos refused, if_pos (guard.mpr refused)]
      rfl
    · have fits : (value * 10 + word).toNat = value.toNat * 10 + word.toNat := by
        have bound := limit.toNat_lt
        simp
        omega
      rw [if_neg refused, if_neg (mt guard.mp refused), ih, fits]

/-- The kernel reads the number behind a stem exactly, and no step leaves 32 bits. -/
theorem numberedSuffix_exact (name stem : Text) (limit : UInt32) :
    (∀ number, numberedSuffix name stem limit.toNat = some number ↔
      number < limit.toNat ∧ ∃ digits ≠ [], (∀ character ∈ digits, isDigit character) ∧
        name = stem ++ digits ∧ decimal digits 0 = number) ∧
    numberedWord name stem limit =
      ((numberedSuffix name stem limit.toNat).map UInt32.ofNat).getD invalidNumber ∧
    ∀ word value : UInt32, ¬ (limit ≤ word ∨ (limit - 1 - word) / 10 < value) →
      value.toNat * 10 + word.toNat < 2 ^ 32 := by
  refine ⟨fun number => ⟨fun found => ?_, ?_⟩, ?_, fun word value passed => ?_⟩
  · rw [numberedSuffix] at found
    split at found
    · rename_i begins
      obtain ⟨digits, rfl⟩ := List.isPrefixOf_iff_prefix.mp begins.2.1
      rw [List.drop_left] at begins found
      obtain ⟨plain, value, below⟩ := numberFrom_eq_some.mp found
      exact ⟨below, digits, fun empty => by simp [empty] at begins, plain, rfl, value⟩
    · cases found
  · rintro ⟨below, digits, some, plain, rfl, value⟩
    obtain ⟨first, rest, rfl⟩ := List.exists_cons_of_ne_nil some
    rw [numberedSuffix, List.drop_left, if_pos ⟨by omega, by simp, by simp [plain]⟩]
    exact numberFrom_eq_some.mpr ⟨plain, value, below⟩
  · rw [numberedWord, numberedSuffix]
    have zero : limit.toNat = 0 ↔ limit = 0 := UInt32.toNat_inj (b := 0)
    by_cases begins : limit ≠ 0 ∧ stem.isPrefixOf name ∧ (name.drop stem.length).head?.any isDigit
    · rw [if_pos begins, if_pos ⟨mt zero.mp begins.1, begins.2⟩, numberWord_eq begins.1]
      rfl
    · rw [if_neg begins, if_neg fun other => begins ⟨mt zero.mpr other.1, other.2⟩]
      rfl
  · have pos : limit ≠ 0 := by
      rintro rfl
      exact passed (.inl (UInt32.le_iff_toNat_le.mpr (Nat.zero_le _)))
    rw [guard_iff pos] at passed
    have bound := limit.toNat_lt
    omega

end Mikos.Process.Path
