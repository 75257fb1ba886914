import Mathlib.Data.UInt
import Mathlib.Tactic.Ring

/-!
# The clock

Ticks become seconds and nanoseconds by a long division in 32-bit words, one bit at a time.
-/

namespace Mikos.Process

structure TickTime where
  seconds : UInt64
  nanoseconds : UInt32

/-- The words of the division. -/
structure Division where
  quotientLow : UInt32 := 0
  quotientHigh : UInt32 := 0
  remainder : UInt32 := 0

namespace Division

/-- `ticks_per_second`. -/
def rate : UInt32 := 10000000

/-- One turn of the loop. -/
def step (low high : UInt32) (bit : Nat) (division : Division) : Division :=
  let source :=
    if 32 < bit then high >>> UInt32.ofNat (bit - 33) else low >>> UInt32.ofNat (bit - 1)
  let remainder := division.remainder <<< 1 ||| source &&& 1
  if rate ≤ remainder then
    if 32 < bit then
      { division with
        remainder := remainder - rate
        quotientHigh := division.quotientHigh ||| 1 <<< UInt32.ofNat (bit - 33) }
    else
      { division with
        remainder := remainder - rate
        quotientLow := division.quotientLow ||| 1 <<< UInt32.ofNat (bit - 1) }
  else { division with remainder }

/-- The words after some turns; the bits are taken from the highest one down. -/
def after (ticks : UInt64) : Nat → Division
  | 0 => {}
  | turn + 1 => (after ticks turn).step ticks.toUInt32 (ticks >>> 32).toUInt32 (64 - turn)

end Division

def tickTime (ticks : UInt64) : TickTime :=
  let division := Division.after ticks 64
  { seconds := division.quotientHigh.toUInt64 <<< 32 ||| division.quotientLow.toUInt64
    nanoseconds := division.remainder * 100 }

namespace Division

/-- The bits of the number from `bit` on are divided. -/
structure Divides (number bit : Nat) (division : Division) : Prop where
  quotient : division.quotientHigh.toNat * 2 ^ 32 + division.quotientLow.toNat =
    number / 2 ^ bit / 10000000 * 2 ^ bit
  remainder : division.remainder.toNat = number / 2 ^ bit % 10000000

theorem toNat_shift (small : bit < 32) : (UInt32.ofNat bit).toNat % 32 = bit := by
  rw [UInt32.toNat_ofNat']
  omega

/-- A bit is set in a word that is a multiple of a higher power. -/
theorem toNat_setBit {word : UInt32} (small : bit < 32) (multiple : 2 ^ (bit + 1) ∣ word.toNat) :
    (word ||| 1 <<< UInt32.ofNat bit).toNat = word.toNat + 2 ^ bit := by
  obtain ⟨factor, equal⟩ := multiple
  have power : ((1 : UInt32) <<< UInt32.ofNat bit).toNat = 2 ^ bit := by
    rw [UInt32.toNat_shiftLeft, toNat_shift small, Nat.shiftLeft_eq, UInt32.toNat_one, Nat.one_mul]
    exact Nat.mod_eq_of_lt (Nat.pow_lt_pow_right (by decide) small)
  rw [UInt32.toNat_or, power, equal]
  exact (Nat.two_pow_add_eq_or_of_lt (Nat.pow_lt_pow_succ (by decide)) factor).symm

/-- A bit of the upper half: the low word is still empty, so the high word is the multiple. -/
theorem quotient_high {high low : UInt32} (small : place < 32)
    (multiple : 2 ^ (32 + place + 1) ∣ high.toNat * 2 ^ 32 + low.toNat) :
    (high ||| 1 <<< UInt32.ofNat place).toNat * 2 ^ 32 + low.toNat =
      high.toNat * 2 ^ 32 + low.toNat + 2 ^ (32 + place) := by
  have empty : low.toNat = 0 := by
    refine Nat.eq_zero_of_dvd_of_lt ?_ low.toNat_lt
    exact (Nat.dvd_add_right (Nat.dvd_mul_left ..)).mp
      ((Nat.pow_dvd_pow 2 (by omega)).trans multiple)
  rw [empty, Nat.add_zero, Nat.add_assoc, Nat.pow_add, Nat.mul_comm high.toNat] at multiple
  rw [toNat_setBit small (Nat.dvd_of_mul_dvd_mul_left (Nat.two_pow_pos 32) multiple)]
  ring

theorem quotient_low {high low : UInt32} (small : bit < 32)
    (multiple : 2 ^ (bit + 1) ∣ high.toNat * 2 ^ 32 + low.toNat) :
    high.toNat * 2 ^ 32 + (low ||| 1 <<< UInt32.ofNat bit).toNat =
      high.toNat * 2 ^ 32 + low.toNat + 2 ^ bit := by
  have upper : 2 ^ (bit + 1) ∣ high.toNat * 2 ^ 32 :=
    (Nat.pow_dvd_pow 2 small).trans (Nat.dvd_mul_left ..)
  rw [toNat_setBit small ((Nat.dvd_add_right upper).mp multiple), Nat.add_assoc]

theorem toNat_bring {word last : UInt32} (short : word.toNat < 2 ^ 31) (small : last.toNat < 2) :
    (word <<< 1 ||| last).toNat = 2 * word.toNat + last.toNat := by
  have shifted : (word <<< 1).toNat = 2 ^ 1 * word.toNat := by
    simp [Nat.shiftLeft_eq]
    omega
  rw [UInt32.toNat_or, shifted]
  exact (Nat.two_pow_add_eq_or_of_lt small _).symm

theorem toNat_source (ticks : UInt64) (inside : bit < 64) :
    ((if 32 < bit + 1 then (ticks >>> 32).toUInt32 >>> UInt32.ofNat (bit + 1 - 33)
      else ticks.toUInt32 >>> UInt32.ofNat (bit + 1 - 1)) &&& 1).toNat =
      ticks.toNat / 2 ^ bit % 2 := by
  have bound := ticks.toNat_lt
  rw [UInt32.toNat_and, UInt32.toNat_one, Nat.and_one_is_mod]
  split
  · have high : (ticks >>> 32).toUInt32.toNat = ticks.toNat / 2 ^ 32 := by
      simp [Nat.shiftRight_eq_div_pow]
      omega
    rw [UInt32.toNat_shiftRight, toNat_shift (by omega), Nat.shiftRight_eq_div_pow, high,
      Nat.div_div_eq_div_mul, ← Nat.pow_add, show 32 + (bit + 1 - 33) = bit by omega]
  · rw [Nat.add_sub_cancel, UInt32.toNat_shiftRight, toNat_shift (by omega),
      Nat.shiftRight_eq_div_pow, UInt64.toNat_toUInt32,
      ← Nat.add_sub_cancel' (show bit ≤ 32 by omega), Nat.pow_add, Nat.mod_mul_right_div_self]
    exact Nat.mod_mod_of_dvd _ (dvd_pow_self 2 (by omega))

/-- A turn brings down one bit of the number. -/
theorem Divides.step {ticks : UInt64} (divides : Divides ticks.toNat (bit + 1) division)
    (inside : bit < 64) : Divides ticks.toNat bit
      (division.step ticks.toUInt32 (ticks >>> 32).toUInt32 (bit + 1)) := by
  obtain ⟨quotient, remainder⟩ := divides
  have source := toNat_source ticks inside
  rw [Division.step]
  generalize (if 32 < bit + 1 then (ticks >>> 32).toUInt32 >>> UInt32.ofNat (bit + 1 - 33)
      else ticks.toUInt32 >>> UInt32.ofNat (bit + 1 - 1)) &&& 1 = last at source ⊢
  have down : ticks.toNat / 2 ^ bit = 2 * (ticks.toNat / 2 ^ (bit + 1)) + last.toNat := by
    rw [source, Nat.pow_succ, ← Nat.div_div_eq_div_mul]
    omega
  have brought := @toNat_bring division.remainder last (by omega) (by omega)
  generalize division.remainder <<< 1 ||| last = word at brought ⊢
  generalize ticks.toNat / 2 ^ (bit + 1) = above at quotient remainder down
  have multiple : 2 ^ (bit + 1) ∣
      division.quotientHigh.toNat * 2 ^ 32 + division.quotientLow.toNat :=
    quotient ▸ Nat.dvd_mul_left ..
  have grown (digit : Nat) : (2 * (above / 10000000) + digit) * 2 ^ bit =
      above / 10000000 * 2 ^ (bit + 1) + digit * 2 ^ bit := by
    ring
  have rated : rate.toNat = 10000000 := rfl
  split
  next taken =>
    have left : (word - rate).toNat = word.toNat - 10000000 := UInt32.toNat_sub_of_le _ _ taken
    rw [UInt32.le_iff_toNat_le] at taken
    have digit := grown 1
    rw [show 2 * (above / 10000000) + 1 = ticks.toNat / 2 ^ bit / 10000000 by omega, ← quotient,
      Nat.one_mul] at digit
    split <;> refine ⟨?_, by dsimp only; omega⟩ <;> dsimp only <;> rw [digit]
    next upper =>
      obtain ⟨place, rfl⟩ := Nat.exists_eq_add_of_le (Nat.le_of_lt_succ upper)
      rw [show 32 + place + 1 - 33 = place by omega]
      exact quotient_high (by omega) multiple
    next lower =>
      rw [Nat.add_sub_cancel]
      exact quotient_low (by omega) multiple
  next less =>
    rw [UInt32.le_iff_toNat_le] at less
    have digit := grown 0
    rw [show 2 * (above / 10000000) + 0 = ticks.toNat / 2 ^ bit / 10000000 by omega, ← quotient,
      Nat.zero_mul, Nat.add_zero] at digit
    exact ⟨digit.symm, by dsimp only; omega⟩

theorem after_divides (ticks : UInt64) (inside : turn ≤ 64) :
    Divides ticks.toNat (64 - turn) (after ticks turn) := by
  induction turn with
  | zero =>
    have none : ticks.toNat / 2 ^ 64 = 0 := Nat.div_eq_of_lt ticks.toNat_lt
    constructor <;> rw [Nat.sub_zero, none] <;> simp [after]
  | succ turn ih =>
    have divides := ih (by omega)
    rw [after]
    obtain ⟨bit, equal⟩ : ∃ bit, 64 - turn = bit + 1 := ⟨64 - (turn + 1), by omega⟩
    rw [equal] at divides ⊢
    rw [show 64 - (turn + 1) = bit by omega]
    exact divides.step (by omega)

end Division

/-- The clock is divided exactly and in order, and the shifted remainder never leaves its word. -/
theorem tickTime_exact (ticks : UInt64) :
    (tickTime ticks).seconds.toNat = ticks.toNat / 10000000 ∧
      (tickTime ticks).nanoseconds.toNat = 100 * (ticks.toNat % 10000000) ∧
      (tickTime ticks).nanoseconds.toNat < 1000000000 ∧
      (∀ later, ticks ≤ later → (tickTime ticks).seconds < (tickTime later).seconds ∨
        (tickTime ticks).seconds = (tickTime later).seconds ∧
          (tickTime ticks).nanoseconds ≤ (tickTime later).nanoseconds) ∧
      ∀ turn ≤ 64, 2 * (Division.after ticks turn).remainder.toNat + 1 < 2 ^ 32 := by
  have exact (ticks : UInt64) : (tickTime ticks).seconds.toNat = ticks.toNat / 10000000 ∧
      (tickTime ticks).nanoseconds.toNat = 100 * (ticks.toNat % 10000000) := by
    obtain ⟨quotient, remainder⟩ := Division.after_divides ticks (Nat.le_refl 64)
    rw [Nat.sub_self, Nat.pow_zero, Nat.div_one] at quotient remainder
    rw [Nat.mul_one] at quotient
    have joined : ((Division.after ticks 64).quotientHigh.toUInt64 <<< 32).toNat =
        2 ^ 32 * (Division.after ticks 64).quotientHigh.toNat := by
      have short := (Division.after ticks 64).quotientHigh.toNat_lt
      simp [Nat.shiftLeft_eq]
      omega
    constructor
    · rw [tickTime, UInt64.toNat_or, joined, UInt32.toNat_toUInt64,
        ← Nat.two_pow_add_eq_or_of_lt (UInt32.toNat_lt _), Nat.mul_comm, quotient]
    · rw [tickTime, UInt32.toNat_mul, remainder, show UInt32.toNat 100 = 100 from rfl]
      omega
  obtain ⟨seconds, nanoseconds⟩ := exact ticks
  refine ⟨seconds, nanoseconds, by omega, fun later ordered => ?_, fun turn inside => ?_⟩
  · obtain ⟨seconds', nanoseconds'⟩ := exact later
    rw [UInt64.le_iff_toNat_le] at ordered
    rw [UInt64.lt_iff_toNat_lt, ← UInt64.toNat_inj, UInt32.le_iff_toNat_le]
    omega
  · have divided := (Division.after_divides ticks inside).remainder
    omega

end Mikos.Process
