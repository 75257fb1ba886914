import Mikos.Process.TableRuns

/-!
# Parents that lent their memory

A process that starts another with `vfork` is parked until the child runs a program or ends.
That it is parked is a value of its state only, which other calls overwrite: it runs on too
early when it is stopped and resumed, when it lent its memory twice and one child leaves it,
or when it waits for another child.
-/

namespace Mikos.Process
namespace ProcessTable
variable {capacity : Nat} {table after : ProcessTable capacity} {first pid parentPid : UInt32}
  {i j parent child : Fin capacity} {history : History}

/-- No process runs while a child of it is in its memory. -/
def Parked (table : ProcessTable capacity) : Prop :=
  ∀ child parent, (table.records child).Alive →
    table.Names (table.records child).vforkParent parent →
    runnable (table.records parent).state = false

/-- The call wakes nobody whose memory another child is in. -/
def KeepsParked (_ : History) (table : ProcessTable capacity) : ProcessCall → Prop
  | .markExec pid => ∀ index, table.Acts pid index → ∀ parent, table.Released index parent →
      ∀ child ≠ index, (table.records child).Alive →
        (table.records child).vforkParent ≠ (table.records parent).pid
  | .exit pid _ => ∀ index, table.Acts pid index → ∀ parent ≠ index,
      table.Released index parent ∨ table.Roused index parent →
      ∀ child ≠ index, (table.records child).Alive →
        (table.records child).vforkParent ≠ (table.records parent).pid
  | .resume pid => ∀ index, table.Acts pid index → (table.records index).state = .stopped →
      ∀ child, (table.records child).Alive → (table.records child).vforkParent ≠ pid
  | _ => True

theorem nextRunnable_cases [NeZero capacity] (table : ProcessTable capacity) (afterPid : UInt32) :
    table.nextRunnable afterPid = invalidPid ∨
      ∃ i, runnable (table.records i).state = true ∧
        (table.records i).pid = table.nextRunnable afterPid := by
  unfold nextRunnable
  dsimp only
  split
  next i found =>
    have runs := List.find?_some found
    exact .inr ⟨i, runs, rfl⟩
  rename_i missing
  split
  next alone => exact .inr ⟨0, alone.2, rfl⟩
  · exact .inl rfl

theorem Parked.nextRunnable_ne [NeZero capacity] (parked : table.Parked)
    (alive : (table.records child).Alive) (lent : (table.records child).vforkParent ≠ 0)
    (afterPid : UInt32) : table.nextRunnable afterPid ≠ (table.records child).vforkParent := by
  intro next
  rcases table.nextRunnable_cases afterPid with none | ⟨i, runs, named⟩
  · exact lent (next.symm.trans none)
  have live : (table.records i).Live := by
    intro free
    rw [free] at runs
    cases runs
  rw [parked child i alive ⟨live, named.trans next⟩] at runs
  cases runs

/-! ## Steps -/

/-- Nobody is made to run, and nobody starts to run in the memory of another. -/
theorem Parked.mono (parked : table.Parked)
    (children : ∀ child, (after.records child).Alive → (table.records child).Alive ∧
      (after.records child).vforkParent = (table.records child).vforkParent)
    (parents : ∀ parent, runnable (after.records parent).state = true →
      runnable (table.records parent).state = true)
    (same : ∀ i, (after.records i).Live → (table.records i).Live ∧
      (after.records i).pid = (table.records i).pid) : after.Parked := by
  rintro child parent alive ⟨live, named⟩
  obtain ⟨before, kept⟩ := children child alive
  obtain ⟨liveBefore, pid⟩ := same parent live
  by_contra runs
  rw [Bool.not_eq_false] at runs
  have stays := parked child parent before ⟨liveBefore, by rw [← pid, named, kept]⟩
  rw [parents parent runs] at stays
  cases stays

theorem Parked.forked (parked : table.Parked) (sound : table.Sound) {vfork : Bool}
    (forks : Forks table after parentPid vfork parent child) : after.Parked := by
  have issued := (sound.records parent).issued forks.acting.1.live
  rintro lender holder alive named
  by_cases new : lender = child
  · subst new
    rw [forks.born] at named
    cases vfork with
    | false =>
      obtain ⟨-, before, zero⟩ := forks.names issued_zero named
      exact absurd zero ((sound.records holder).named before).1
    | true =>
      obtain ⟨apart, before⟩ := forks.names (by rw [forks.acting.2] at issued; exact issued.1) named
      rw [forks.others holder apart, sound.unique.eq before forks.acting.names]
      simp [runnable]
  have before : (table.records lender).Alive := by
    rw [forks.others lender new] at alive
    by_cases lends : vfork ∧ lender = parent
    · rw [lends.2]
      exact forks.acting.1
    · simpa only [ProcessRecord.Alive, if_neg lends] using alive
  rw [forks.others lender new] at named
  obtain ⟨apart, held⟩ := forks.names ((sound.records lender).issued before.live).2.2.2 named
  rw [forks.others holder apart]
  by_cases lends : vfork ∧ holder = parent
  · simp [lends, runnable]
  · simp only [if_neg lends]
    exact parked lender holder before held

theorem Parked.collected (parked : table.Parked) (collects : Collects table after child) :
    after.Parked := by
  refine parked.mono ?_ ?_ ?_
  · intro lender alive
    have apart := collects.apart alive.live
    rw [collects.others lender apart] at alive ⊢
    exact ⟨alive, rfl⟩
  · intro holder runs
    by_cases equal : holder = child
    · rw [equal, collects.freed] at runs
      cases runs
    · rwa [collects.others holder equal] at runs
  · intro i live
    have apart := collects.apart live
    rw [collects.others i apart] at live ⊢
    exact ⟨live, rfl⟩

/-- Setting some states to one of processes that have not ended leaves them so. -/
theorem alive_of_ite [Decidable condition] {record : ProcessRecord}
    (alive : condition → record.Alive) (occupied : state ≠ .free) (running : state ≠ .zombie) :
    ({ record with
      state := if condition then state else record.state } : ProcessRecord).Alive ↔
      record.Alive := by
  by_cases holds : condition
  · simp only [if_pos holds]
    exact iff_of_true ⟨occupied, running⟩ (alive holds)
  · simp only [if_neg holds]

section
variable (parked : table.Parked)
include parked

theorem Parked.executed_iff (sound : table.Sound) (executes : Executes table after pid i) :
    after.Parked ↔ KeepsParked history table (.markExec pid) := by
  have changed := executes.changed
  have live := executes.keeps.live
  have alive : ∀ j, (after.records j).Alive ↔ (table.records j).Alive := by
    intro j
    rw [changed j]
    exact alive_of_ite Released.occupied (by decide) (by decide)
  constructor
  · intro kept dying acts holder freed lender apart running lent
    rw [sound.unique.eq acts.names executes.acting.names] at freed apart
    have runs : runnable (after.records holder).state = true := by
      simp [changed holder, freed, runnable]
    rw [kept lender holder ((alive lender).mpr running)
      ⟨(live holder).mpr freed.occupied.live, by simp [changed, apart, lent]⟩] at runs
    cases runs
  rintro keeps lender holder running ⟨there, named⟩
  rw [changed lender, changed holder] at named
  by_cases self : lender = i
  · simp only [if_pos self] at named
    exact absurd named ((sound.records holder).named ((live holder).mp there)).1
  simp only [if_neg self] at named
  have before := (alive lender).mp running
  rw [changed holder]
  by_cases freed : table.Released i holder
  · exact absurd named.symm (keeps i executes.acting holder freed lender self before)
  · simp only [if_neg freed]
    exact parked lender holder before ⟨(live holder).mp there, named⟩

theorem Parked.exited_iff (sound : table.Sound) (ends : Ends table after pid status i) :
    after.Parked ↔ KeepsParked history table (.exit pid status) := by
  have others := ends.others
  have alive : ∀ j ≠ i, ((after.records j).Alive ↔ (table.records j).Alive) := by
    intro j apart
    rw [others j apart]
    exact alive_of_ite occupied_of_woken (by decide) (by decide)
  constructor
  · intro kept dying acts holder different woken lender apart running lent
    rw [sound.unique.eq acts.names ends.acting.names] at different woken apart
    have runs : runnable (after.records holder).state = true := by
      simp [others holder different, woken, runnable]
    rw [kept lender holder ((alive lender apart).mpr running)
      ⟨((alive holder different).mpr (occupied_of_woken woken)).live,
        by simp [others lender apart, others holder different, lent]⟩] at runs
    cases runs
  rintro keeps lender holder running named
  have apart : lender ≠ i := by
    rintro rfl
    rw [ends.ended] at running
    exact running.2 rfl
  have before := (alive lender apart).mp running
  by_cases self : holder = i
  · subst self
    rw [ends.ended]
    rfl
  rw [others lender apart, ends.keeps.names] at named
  rw [others holder self]
  by_cases woken : table.Released i holder ∨ table.Roused i holder
  · exact absurd named.2.symm (keeps i ends.acting holder self woken lender apart before)
  · simp only [if_neg woken]
    exact parked lender holder before named

theorem Parked.resumed_iff (named : table.Names pid i)
    (halted : (table.records i).state = .stopped) (sets : Sets table after i .runnable) :
    after.Parked ↔ KeepsParked history table (.resume pid) := by
  have alive : ∀ j, (after.records j).Alive ↔ (table.records j).Alive := by
    intro j
    rw [sets.changed j]
    exact alive_of_ite (fun equal => equal ▸ sets.alive) (by decide) (by decide)
  constructor
  · intro kept _ _ _ lender before lent
    have runs : runnable (after.records i).state = true := by simp [sets.changed i, runnable]
    rw [kept lender i ((alive lender).mpr before)
      ⟨(sets.keeps.live i).mpr named.1, by simp [sets.changed, lent, named.2]⟩] at runs
    cases runs
  rintro keeps lender holder before same
  rw [sets.changed lender, sets.keeps.names] at same
  rw [sets.changed holder]
  by_cases equal : holder = i
  · rw [equal] at same
    exact absurd (same.2.symm.trans named.2)
      (keeps i ⟨sets.alive, named.2⟩ halted lender ((alive lender).mp before))
  · simp only [if_neg equal]
    exact parked lender holder ((alive lender).mp before) same

/-- A call keeps parents parked exactly if it is one of those that do. -/
theorem Parked.effect_iff (sound : table.Sound) {answer : ProcessAnswer}
    (effect : Effect table call answer after) : after.Parked ↔ KeepsParked history table call := by
  -- a state that is not one of running
  have set {i : Fin capacity} {state : ProcessState} (sets : Sets table after i state)
      (idle : runnable state = false) : after.Parked := by
    refine parked.mono ?_ ?_ fun other live => ⟨(sets.keeps.live other).mp live, sets.keeps.pid other⟩
    · intro child alive
      rw [sets.changed child] at alive ⊢
      exact ⟨(alive_of_ite (fun equal => equal ▸ sets.alive) sets.occupied sets.running).mp alive,
        rfl⟩
    intro holder runs
    rw [sets.changed holder] at runs
    by_cases equal : holder = i
    · simp [equal, idle] at runs
    · simpa [equal] using runs
  -- a change of groups or sessions
  have moved {i : Fin capacity} {group session : UInt32}
      (joins : Joins table after i group session) : after.Parked := by
    refine parked.mono ?_ ?_ ?_ <;> intro other holds <;> rw [joins.changed other] at holds
    · exact ⟨holds, by rw [joins.changed other]⟩
    · exact holds
    · exact ⟨holds, joins.keeps.pid other⟩
  cases effect with
  | notForked | notWaited | notRegrouped | notDetached | notStopped =>
    exact iff_of_true parked trivial
  | forked forks => exact iff_of_true (parked.forked sound forks) trivial
  | notExecuted absent | notExited absent =>
    exact iff_of_true parked fun i acting => absurd acting (absent i)
  | executed executes => exact parked.executed_iff sound executes
  | exited ends => exact parked.exited_iff sound ends
  | blocked acting unmet sets
  | stopped sets => exact iff_of_true (set sets rfl) trivial
  | collected acting met collects => exact iff_of_true (parked.collected collects) trivial
  | regrouped granted joins
  | detached named mem joins => exact iff_of_true (moved joins) trivial
  | notResumed denied =>
    exact iff_of_true parked fun i acting halted => absurd halted (denied i acting)
  | resumed named halted sets => exact parked.resumed_iff named halted sets

end

section Runs
variable [NeZero capacity]

theorem Parked.start (started : initializeTable {} first = (.success, table)) : table.Parked := by
  obtain ⟨valid, -, filled, -⟩ := initializeTable_records started
  rintro child parent alive ⟨live, named⟩
  rw [eq_zero_of_live started alive.live, eq_zero_of_live started live, filled] at named
  exact absurd named valid

/-- No process runs while a child is in its memory. -/
theorem Reached.parked (reached : Reached KeepsParked first history table) : table.Parked := by
  induction reached with
  | start started => exact .start started
  | call reached call keeps ih =>
    exact (ih.effect_iff reached.sound (reached.sound.unique.perform_effect call)).mpr keeps

/-- In every run in which no call wakes a parent whose memory a child is in, such a parent
does not run and is never the next to run; and a call that does so breaks this at once. -/
theorem vfork_parents_parked (reached : Reached KeepsParked first history table) :
    table.Parked ∧
      (∀ child, (table.records child).Alive → (table.records child).vforkParent ≠ 0 →
        ∀ afterPid, table.nextRunnable afterPid ≠ (table.records child).vforkParent) ∧
      ∀ call, (table.perform call).2.Parked ↔ KeepsParked history table call := by
  have sound := reached.sound
  have parked := reached.parked
  refine ⟨parked, fun child alive lent => parked.nextRunnable_ne alive lent, fun call => ?_⟩
  exact parked.effect_iff sound (sound.unique.perform_effect call)

/-- A parent that lent its memory is not the next to run, and its child ending is no breach. -/
theorem vfork_parent_parked_once :
    ((lone 2).follow [.fork 1 true]).2.nextRunnable 2 ≠ 1 ∧
      ((lone 2).follow [.fork 1 true, .exit 2 0]).2.Parked := by
  have reached : Reached KeepsParked 1 ((lone 2).follow [.fork 1 true]).1
      ((lone 2).follow [.fork 1 true]).2 := .call (.start rfl) (.fork 1 true) trivial
  obtain ⟨-, turns, steps⟩ := vfork_parents_parked reached
  refine ⟨turns 1 (by decide) (by decide) 2, (steps (.exit 2 0)).mpr ?_⟩
  have alone : ∀ index, ((lone 2).follow [.fork 1 true]).2.Acts 2 index → ∀ child, child ≠ index →
      (((lone 2).follow [.fork 1 true]).2.records child).vforkParent = 0 := by decide
  intro index acting parent _ _ child apart _
  rw [alone index acting child apart]
  have named : ∀ parent, (((lone 2).follow [.fork 1 true]).2.records parent).pid ≠ 0 := by decide
  exact (named parent).symm

/-- A parent that lent its memory is stopped and resumed: it runs beside its child. -/
theorem vfork_parent_resumed :
    let run := (lone 2).follow [.fork 1 true, .stop 1, .resume 1]
    Reached (fun _ _ _ => True) 1 run.1 run.2 ∧ (run.2.records 1).vforkParent = 1 ∧
      (run.2.records 1).state = .runnable ∧ run.2.nextRunnable 2 = 1 ∧ ¬ run.2.Parked := by
  refine ⟨reached_follow rfl _, by decide, by decide, by decide, fun parked => ?_⟩
  exact absurd (parked 1 0 (by decide) (by decide)) (by decide)

end Runs
end ProcessTable
end Mikos.Process
