import Mikos.Process.Moves

/-!
# Polls with a time limit

`ppoll` and `pselect6` compute a deadline from the clock and from the time limit in user memory,
in 64 bits.  Their turns end when a descriptor is ready or the clock has reached the deadline.
-/

namespace Mikos.Process
open Library
open Running (littleU64)
namespace Kernel

/-! ## The time limit -/

def ticksPerSecond : Nat := 10000000

/-- The seconds of a time limit in user memory. -/
def timeoutSeconds (memory : Bytes) (address : Nat) (time64 : Bool) : Nat :=
  if time64 then (littleU64 memory address).toNat else littleU32 memory address

/-- The nanoseconds of a time limit in user memory. -/
def timeoutNanoseconds (memory : Bytes) (address : Nat) (time64 : Bool) : Nat :=
  if time64 then (littleU64 memory (address + 8)).toNat else littleU32 memory (address + 4)

/-- The time limit in ticks of the clock. -/
def timeoutTicks (memory : Bytes) (address : Nat) (time64 : Bool) : Nat :=
  timeoutSeconds memory address time64 * ticksPerSecond +
    timeoutNanoseconds memory address time64 / 100

/-- The deadline; the nanoseconds of both forms are taken in 32 bits. -/
def deadline (memory : Bytes) (now : UInt64) (timeout : UInt32) (time64 : Bool) : UInt64 :=
  if timeout = 0 then ~~~0
  else
    now + UInt64.ofNat (timeoutSeconds memory timeout.toNat time64) * UInt64.ofNat ticksPerSecond +
      UInt64.ofNat (wrap 32 (timeoutNanoseconds memory timeout.toNat time64) / 100)

/-- The deadline of a limit is computed without a loss. -/
def InTime (memory : Bytes) (now : UInt64) (address : Nat) (time64 : Bool) : Prop :=
  timeoutNanoseconds memory address time64 < 2 ^ 32 ∧
    now.toNat + timeoutTicks memory address time64 < 2 ^ 64
deriving Decidable

/-! ## The turns of a poll -/

/-- The two polls with their arguments apart from the time limit. -/
inductive PollCall where
  | ppoll (address count : UInt32)
  | pselect6 (count readSet writeSet errorSet : UInt32)

/-- What the turns of a poll meet.  The clock is read for the deadline first and then at the end
of every turn, when some descriptors are ready. -/
structure PollCourse where
  clock : Nat → UInt64
  advances : ∀ reading, clock reading ≤ clock (reading + 1)
  ready : Nat → UInt32 := fun _ => 0
  moments : Nat → Moment := fun _ => {}

/-- The moment of a turn: it returns when descriptors are ready or the deadline has come. -/
def PollCourse.moment (course : PollCourse) (deadline : UInt64) (turn : Nat) : Moment :=
  { course.moments turn with
    arrived :=
      if course.ready turn ≠ 0 ∨ deadline ≤ course.clock (turn + 1) then some (course.ready turn)
      else none }

variable (machine : Machine) (call : PollCall) (timeout : UInt32) (time64 : Bool)

def pollTurn (moment : Moment) (kernel : Kernel) : Halting Outcome :=
  match call with
  | .ppoll address count => kernel.ppoll machine moment address count timeout time64
  | .pselect6 count readSet writeSet errorSet =>
    kernel.pselect6 machine moment count readSet writeSet errorSet timeout time64

/-- The turns of a poll until it returns or the processor changes hands: the outcome, and in
which turn. -/
def pollTurns (moments : Nat → Moment) : (fuel turn : Nat) → Kernel → Halting (Option (Outcome × Nat))
  | 0, _, _ => .ok none
  | fuel + 1, turn, kernel => do
    let outcome ← kernel.pollTurn machine call timeout time64 (moments turn)
    if outcome.switch = .waits then pollTurns moments fuel (turn + 1) outcome.kernel
    else .ok (some (outcome, turn))

def timedPoll (course : PollCourse) (fuel : Nat) (kernel : Kernel) :
    Halting (Option (Outcome × Nat)) :=
  kernel.pollTurns machine call timeout time64
    (course.moment (deadline kernel.memory (course.clock 0) timeout time64)) fuel 0

/-- The poll returns in a turn, with no descriptor ready. -/
def ReturnsEmpty (course : PollCourse) (fuel last : Nat) (kernel : Kernel) : Prop :=
  (kernel.timedPoll machine call timeout time64 course fuel).map (Option.map fun done =>
    (done.1.switch, done.1.result, done.2)) = .ok (some (.stays, 0, last))
deriving Decidable

/-- The poll gets to the look at its descriptors: its arguments are accepted and no process that
is parked can be resumed. -/
def PollLooks (kernel : Kernel) : Prop :=
  machine.interactive = true ∧
    (match call with
    | .ppoll address count => count.toNat ≤ 16 ∧ UserContains address.toNat (count.toNat * 8)
    | .pselect6 count readSet writeSet errorSet => count.toNat ≤ 16 ∧
      ∀ set ∈ [readSet, writeSet, errorSet], set ≠ 0 → UserContains set.toNat 4) ∧
    kernel.timeoutError timeout time64 = none ∧ kernel.interactiveChildCanResume = false ∧
    kernel.backgroundReady = false

/-! ## What a turn returns -/

/-- A turn that returns zero has found that value. -/
def Honest (arrived : Option UInt32) : Halting Outcome → Prop :=
  Ends fun outcome => outcome.switch = .stays → outcome.result = 0 → arrived = some 0

variable {machine call timeout time64} {kernel : Kernel} {moment : Moment}

theorem Honest.fails (value : Errno) : Honest arrived (.ok (kernel.fails value)) := by
  rintro _ ⟨⟩ - zero
  cases value <;> cases zero

theorem Honest.goesOn : Honest arrived (.ok kernel.goesOn) := by
  rintro _ ⟨⟩ ⟨⟩

theorem poll_honest : Honest moment.arrived (kernel.poll machine moment requested) := by
  refine Ends.change (fun _ stays => by cases stays) fun _ =>
    Ends.change (fun _ stays => by cases stays) fun _ => ?_
  split
  next result arrived =>
    rintro _ ⟨⟩ - zero
    rw [arrived, ← zero]
  split
  · rw [waitFor]
    split
    · exact Ends.change (fun _ stays => by cases stays) fun _ => Honest.goesOn
    · exact Ends.change (fun _ stays => by cases stays) fun _ => Honest.goesOn
    · exact Honest.goesOn
  · exact Honest.goesOn

theorem pollTurn_honest :
    Honest moment.arrived (kernel.pollTurn machine call timeout time64 moment) := by
  cases call with
  | ppoll address count =>
    rw [pollTurn, ppoll]
    refine iteInduction (fun _ => .fails _) fun _ => iteInduction (fun _ => .fails _) fun _ => ?_
    split
    · exact .fails _
    · exact poll_honest
  | pselect6 count readSet writeSet errorSet =>
    rw [pollTurn, pselect6]
    refine iteInduction (fun _ => .fails _) fun _ => iteInduction (fun _ => .fails _) fun _ =>
      iteInduction (fun _ => .fails _) fun _ => ?_
    split
    · exact .fails _
    · exact poll_honest

/-- A poll that returns zero ends with a turn that has found this. -/
theorem pollTurns_honest {moments : Nat → Moment}
    (done : kernel.pollTurns machine call timeout time64 moments fuel turn =
      .ok (some (outcome, last))) (stays : outcome.switch = .stays) (empty : outcome.result = 0) :
    (moments last).arrived = some 0 := by
  induction fuel generalizing turn kernel with
  | zero => cases done
  | succ fuel ih =>
    obtain ⟨between, turned, done⟩ := Halting.bind_eq_ok.mp done
    split at done
    · exact ih done
    · cases done
      exact pollTurn_honest outcome turned stays empty

/-- A turn that gets to its look returns what is there. -/
theorem PollLooks.pollTurn (looks : kernel.PollLooks machine call timeout time64)
    (arrived : moment.arrived = some result) :
    kernel.pollTurn machine call timeout time64 moment = .ok { result, kernel } := by
  obtain ⟨interactive, accepted, limit, child, background⟩ := looks
  have polled : ∀ requested, kernel.poll machine moment requested = .ok { result, kernel } := by
    intro requested
    rw [poll, resumeOr, resumeInteractiveOr, resumeInteractiveChildIfReady, if_pos (.inl child)]
    dsimp only [Bind.bind, Except.bind]
    rw [resumeBackgroundIfReady, if_pos (.inl background)]
    dsimp only
    rw [arrived]
  cases call with
  | ppoll address count =>
    rw [Kernel.pollTurn, ppoll, if_neg (by simp [interactive]), if_neg (by simp [accepted]), limit]
    exact polled _
  | pselect6 count readSet writeSet errorSet =>
    have sets : ¬ [readSet, writeSet, errorSet].any fun set =>
        set ≠ 0 ∧ ¬ UserContains set.toNat 4 := by
      simpa using accepted.2
    rw [Kernel.pollTurn, pselect6, if_neg (by simp [interactive]),
      if_neg (Nat.not_lt.mpr accepted.1), if_neg sets, limit]
    exact polled _

/-! ## The deadline -/

theorem deadline_eq (limited : timeout ≠ 0) (inTime : InTime memory now timeout.toNat time64) :
    (deadline memory now timeout time64).toNat =
      now.toNat + timeoutTicks memory timeout.toNat time64 := by
  obtain ⟨narrow, fits⟩ := inTime
  rw [deadline, if_neg limited, wrap_of_lt narrow]
  rw [timeoutTicks] at fits ⊢
  simp [ticksPerSecond] at fits ⊢
  omega

/-- A deadline that is computed with a loss comes too early. -/
theorem deadline_lt (limited : timeout ≠ 0) (late : ¬ InTime memory now timeout.toNat time64) :
    (deadline memory now timeout time64).toNat <
        now.toNat + timeoutTicks memory timeout.toNat time64 ∧
      0 < timeoutTicks memory timeout.toNat time64 := by
  rw [InTime, not_and_or, Nat.not_lt, Nat.not_lt] at late
  rw [deadline, if_neg limited]
  have low := now.toNat_lt
  rw [timeoutTicks] at late ⊢
  generalize timeoutSeconds memory timeout.toNat time64 = seconds at late ⊢
  generalize timeoutNanoseconds memory timeout.toNat time64 = nanoseconds at late ⊢
  simp only [UInt64.toNat_add, UInt64.toNat_mul, UInt64.toNat_ofNat', ticksPerSecond, wrap] at late ⊢
  have below (value : Nat) : value % 2 ^ 64 ≤ value := Nat.mod_le ..
  have product := (below _).trans (Nat.mul_le_mul (below seconds) (below 10000000))
  have total := (below _).trans (Nat.add_le_add
    ((below _).trans (Nat.add_le_add_left product now.toNat)) (below (nanoseconds % 2 ^ 32 / 100)))
  refine ⟨?_, by omega⟩
  obtain wide | large := late
  · refine Nat.lt_of_le_of_lt total ?_
    omega
  · exact Nat.lt_of_lt_of_le (Nat.mod_lt _ (by decide)) large

/-- A poll with a limit whose deadline is computed without a loss returns with no descriptor
ready only when the limit has passed; otherwise some clock makes it return too early. -/
theorem timedPoll_elapsed (machine : Machine) (call : PollCall) (kernel : Kernel)
    {timeout : UInt32} (time64 : Bool) (now : UInt64) (limited : timeout ≠ 0) :
    (InTime kernel.memory now timeout.toNat time64 →
      ∀ course fuel last, course.clock 0 = now →
        kernel.ReturnsEmpty machine call timeout time64 course fuel last →
        timeoutTicks kernel.memory timeout.toNat time64 ≤
          (course.clock (last + 1)).toNat - now.toNat) ∧
      (¬ InTime kernel.memory now timeout.toNat time64 →
        kernel.PollLooks machine call timeout time64 →
        ∃ course, course.clock 0 = now ∧
          kernel.ReturnsEmpty machine call timeout time64 course 1 0 ∧
          (course.clock 1).toNat - now.toNat < timeoutTicks kernel.memory timeout.toNat time64) := by
  constructor
  · rintro inTime course fuel last rfl returns
    obtain ⟨_, done, view⟩ := Halting.exists_of_map returns
    obtain ⟨⟨outcome, _⟩, rfl, same⟩ := Option.map_eq_some_iff.mp view
    simp only [Prod.mk.injEq] at same
    obtain ⟨stays, empty, rfl⟩ := same
    have arrived := pollTurns_honest done stays empty
    have exact := deadline_eq limited inTime
    simp only [PollCourse.moment] at arrived
    split at arrived
    next ended =>
      have reached := ended.resolve_left (not_not.mpr (Option.some.inj arrived))
      rw [UInt64.le_iff_toNat_le] at reached
      omega
    · cases arrived
  · intro late looks
    obtain ⟨early, positive⟩ := deadline_lt limited late
    -- the clock jumps to the deadline, if that is ahead
    generalize stop : deadline kernel.memory now timeout time64 = deadline at early
    let course : PollCourse :=
      { clock := fun reading => if reading = 0 ∨ deadline ≤ now then now else deadline
        advances := fun reading => by grind }
    have arrived : (course.moment deadline 0).arrived = some 0 := by
      refine if_pos (.inr ?_)
      simp only [course]
      split <;> simp_all
    refine ⟨course, rfl, ?_, ?_⟩
    · have first : course.clock 0 = now := rfl
      rw [ReturnsEmpty, timedPoll, first, stop, pollTurns, looks.pollTurn arrived]
      rfl
    · simp only [course]
      split <;> omega

/-- A limit of one second, and a clock that is read every second. -/
def secondLimit : Kernel := { memory := put32 zeroBytes 0x81000000 1 }

def secondCourse : PollCourse where
  clock reading := if reading < 2 then 7 else 20000000
  advances reading := by
    split <;> split <;> simp
    omega

/-- A poll of one descriptor waits in its first turn and returns in the second one. -/
theorem timedPoll_elapsed_second :
    timeoutTicks secondLimit.memory (0x81000000 : UInt32).toNat false ≤
      (secondCourse.clock (1 + 1)).toNat - (7 : UInt64).toNat := by
  have returns : secondLimit.ReturnsEmpty { interactive := true } (.ppoll 0x81000100 1) 0x81000000
      false secondCourse 2 1 := by
    decide +kernel
  have inTime : InTime secondLimit.memory 7 (0x81000000 : UInt32).toNat false := by
    decide +kernel
  exact (timedPoll_elapsed _ _ secondLimit false 7 (by decide)).1 inTime _ _ _ rfl returns

/-- A limit of `2 ^ 57` seconds, which are no ticks modulo `2 ^ 64`. -/
theorem timedPoll_ends_early :
    let kernel : Kernel := { memory := put32 zeroBytes 0x81000004 0x02000000 }
    kernel.ReturnsEmpty { interactive := true } (.ppoll 0x81000000 0) 0x81000000 true
        { clock := fun _ => 0, advances := fun _ => UInt64.le_refl 0 } 1 0 ∧
      timeoutTicks kernel.memory 0x81000000 true = 2 ^ 57 * ticksPerSecond := by
  decide +kernel

end Kernel
end Mikos.Process
