import Mikos.Process.TableRuns

/-!
# Waits that should have ended

A process that blocks in a wait is woken when one of its children ends.  It is not woken when
it inherits a zombie, nor when a move between groups makes one match; these are the only calls
that leave a process blocked although its wait would succeed.
-/

namespace Mikos.Process
namespace ProcessTable
variable {capacity : Nat} {table after : ProcessTable capacity} {first pid parentPid : UInt32}
  {i j parent child waiter moved : Fin capacity} {history : History}
  {selector : WaitSelector}

/-- The selector of the last wait in which the process blocked. -/
def blockedOn (pid : UInt32) : History → Option WaitSelector
  | [] => none
  | (.wait parentPid selector _, .wait result) :: earlier =>
    if parentPid = pid ∧ result.status = .wouldBlock then some selector
    else blockedOn pid earlier
  | _ :: earlier => blockedOn pid earlier

/-- The process is blocked in a wait with the given selector. -/
def Waits (table : ProcessTable capacity) (history : History) (waiter : Fin capacity)
    (selector : WaitSelector) : Prop :=
  (table.records waiter).state = .waiting ∧
    blockedOn (table.records waiter).pid history = some selector

/-- No process is blocked in a wait for which there is a zombie. -/
def Attended (table : ProcessTable capacity) (history : History) : Prop :=
  ∀ waiter selector child, table.Waits history waiter selector →
    ¬ table.Collectable waiter selector child

/-! ## The calls that may leave a process blocked -/

/-- With the process in the group, no zombie matches a wait that it did not match before. -/
structure MovesQuietly (table : ProcessTable capacity) (history : History) (moved : Fin capacity)
    (joined : UInt32) : Prop where
  zombie : (table.records moved).state = .zombie → ∀ waiter value,
    table.Waits history waiter ⟨.processGroup, value⟩ →
    (table.records moved).parent = (table.records waiter).pid →
    joined ≠ if value = 0 then (table.records waiter).processGroup else value
  waiter : table.Waits history moved ⟨.processGroup, 0⟩ → ∀ child,
    (table.records child).state = .zombie →
    (table.records child).parent = (table.records moved).pid →
    (table.records child).processGroup ≠ joined

/-- The call leaves no process blocked for which a zombie was found.  A process that ends
leaves no zombie for which the first process waits, unless this one is its parent. -/
def KeepsAttended (history : History) (table : ProcessTable capacity) : ProcessCall → Prop
  | .exit pid _ => ∀ index, table.Acts pid index → pid ≠ 1 → (table.records index).parent ≠ 1 →
      ∀ heir selector child, table.Names 1 heir → table.Waits history heir selector →
        (table.records child).state = .zombie → (table.records child).parent = pid →
        ¬ matchesSelector (table.records heir) (table.records child) selector
  | .setProcessGroup callerPid targetPid group => ∀ moved joined,
      table.Permits callerPid targetPid group moved joined →
        table.MovesQuietly history moved joined
  | .createSession pid => ∀ moved, table.Names pid moved →
      (table.records moved).processGroup ≠ pid → table.MovesQuietly history moved pid
  | _ => True

/-! ## Steps -/

theorem matchesSelector_congr {parent child parent' child' : ProcessRecord}
    (same : child'.pid = child.pid) (grouped : child'.processGroup = child.processGroup)
    (led : parent'.processGroup = parent.processGroup) :
    matchesSelector parent' child' selector = matchesSelector parent child selector := by
  simp only [matchesSelector, same, grouped, led]

theorem live_of_waiting (waiting : (table.records waiter).state = .waiting) :
    (table.records waiter).Live := by
  simp [ProcessRecord.Live, waiting]

theorem Ends.waiting (ends : Ends table after pid status i)
    (waiting : (after.records waiter).state = .waiting) :
    waiter ≠ i ∧ ¬ (table.Released i waiter ∨ table.Roused i waiter) ∧
      (table.records waiter).state = .waiting := by
  have apart : waiter ≠ i := by
    rintro rfl
    rw [ends.ended] at waiting
    cases waiting
  rw [ends.others waiter apart] at waiting
  exact ⟨apart, fun woken => by simp [woken] at waiting, eq_of_ite (by decide) waiting⟩

section
variable (attended : table.Attended history)
include attended

theorem Attended.mono (quiet : ∀ pid, blockedOn pid later = blockedOn pid history)
    (waits : ∀ waiter, (after.records waiter).state = .waiting →
      (table.records waiter).state = .waiting)
    (zombies : ∀ child, (after.records child).state = .zombie →
      (table.records child).state = .zombie ∧
        (after.records child).parent = (table.records child).parent)
    (same : ∀ i, (after.records i).Live →
      (after.records i).pid = (table.records i).pid ∧
        (after.records i).processGroup = (table.records i).processGroup) :
    after.Attended later := by
  rintro waiter selector child ⟨waiting, blocked⟩ ⟨zombie, parented, matched⟩
  have sameWaiter := same waiter (live_of_waiting waiting)
  have sameChild := same child (ProcessRecord.live_of_zombie zombie)
  obtain ⟨before, kept⟩ := zombies child zombie
  rw [quiet, sameWaiter.1] at blocked
  refine attended waiter selector child ⟨waits waiter waiting, blocked⟩ ⟨before, ?_, ?_⟩
  · rw [← kept, parented, sameWaiter.1]
  · rwa [← matchesSelector_congr sameChild.1 sameChild.2 sameWaiter.2]

theorem Attended.moved_iff (quiet : ∀ pid, blockedOn pid later = blockedOn pid history)
    (joins : Joins table after moved joined session) :
    after.Attended later ↔ table.MovesQuietly history moved joined := by
  have same : ∀ j, (after.records j).state = (table.records j).state ∧
      (after.records j).pid = (table.records j).pid ∧
      (after.records j).parent = (table.records j).parent := by simp [joins.changed]
  have grouped : ∀ j, (after.records j).processGroup =
      if j = moved then joined else (table.records j).processGroup := by
    simp [joins.changed]
  have waits : ∀ {waiter selector}, after.Waits later waiter selector ↔
      table.Waits history waiter selector := by
    intro waiter selector
    rw [Waits, Waits, (same waiter).1, (same waiter).2.1, quiet]
  -- a zombie is not blocked
  have apart : ∀ {waiter child selector}, table.Waits history waiter selector →
      (table.records child).state = .zombie → waiter ≠ child := by
    rintro waiter child selector waiting zombie rfl
    rw [waiting.1] at zombie
    cases zombie
  constructor
  · intro kept
    constructor
    · intro zombie waiter value waiting parented resolved
      refine kept waiter ⟨.processGroup, value⟩ moved (waits.mpr waiting) ⟨?_, ?_, ?_⟩
      · rw [(same moved).1, zombie]
      · rw [(same moved).2.2, (same waiter).2.1, parented]
      · simp [matchesSelector, grouped, apart waiting zombie, resolved]
    intro waiting child zombie parented resolved
    refine kept moved ⟨.processGroup, 0⟩ child (waits.mpr waiting) ⟨?_, ?_, ?_⟩
    · rw [(same child).1, zombie]
    · rw [(same child).2.2, (same moved).2.1, parented]
    · simp [matchesSelector, grouped, (apart waiting zombie).symm, resolved]
  intro quietly waiter selector child waiting ⟨zombie, parented, matched⟩
  rw [waits] at waiting
  rw [(same child).1] at zombie
  rw [(same child).2.2, (same waiter).2.1] at parented
  refine attended waiter selector child waiting ⟨zombie, parented, ?_⟩
  obtain ⟨kind, value⟩ := selector
  cases kind with
  | any => rfl
  | pid =>
    rw [matchesSelector, (same child).2.1] at matched
    exact matched
  | processGroup =>
    simp only [matchesSelector, grouped, decide_eq_true_eq] at matched ⊢
    by_cases onChild : child = moved
    · subst onChild
      rw [if_pos rfl, if_neg (apart waiting zombie)] at matched
      exact absurd matched (quietly.zombie zombie waiter value waiting parented)
    rw [if_neg onChild] at matched
    by_cases onWaiter : waiter = moved
    · subst onWaiter
      by_cases own : value = 0
      · subst own
        rw [if_pos rfl, if_pos rfl] at matched
        exact absurd matched (quietly.waiter waiting child zombie parented)
      · rwa [if_neg own] at matched ⊢
    · rwa [if_neg onWaiter] at matched

theorem Attended.exited_iff (sound : table.Sound)
    (quiet : ∀ pid, blockedOn pid later = blockedOn pid history)
    (ends : Ends table after pid status i) :
    after.Attended later ↔ KeepsAttended history table (.exit pid status) := by
  have acting := ends.acting
  have others := ends.others
  have own : (table.records i).parent ≠ pid := by
    intro same
    have elder := (sound.records i).elder acting.1.live
    rw [same, acting.2] at elder
    exact absurd elder (UInt32.lt_irrefl _)
  constructor
  · intro kept dying acts notFirst orphan heir selector child named waiting zombie parented matched
    rw [sound.unique.eq acts.names acting.names] at orphan
    have apartHeir : heir ≠ i := by
      rintro rfl
      exact notFirst (acting.2.symm.trans named.2)
    have apartChild : child ≠ i := by
      rintro rfl
      exact acting.1.2 zombie
    have asleep : ¬ (table.Released i heir ∨ table.Roused i heir) := by
      rintro (freed | roused)
      · exact absurd (freed.2.2.symm.trans waiting.1) (by decide)
      · exact orphan (roused.1.symm.trans named.2)
    have inherits : table.adopter pid = 1 := adopter_eq_one.mpr ⟨notFirst, heir, named⟩
    refine kept heir selector child ⟨?_, ?_⟩ ⟨?_, ?_, ?_⟩
    · rw [others heir apartHeir]
      simp only [if_neg asleep]
      exact waiting.1
    · rw [others heir apartHeir, quiet]
      exact waiting.2
    · rw [others child apartChild]
      simp only [if_neg fun woken => (occupied_of_woken woken).2 zombie, zombie]
    · rw [others child apartChild, others heir apartHeir]
      simp only [ProcessRecord.live_of_zombie zombie, parented, true_and, if_true, inherits, named.2]
    · rwa [others child apartChild, others heir apartHeir]
  intro keeps waiter selector child ⟨waiting, blocked⟩ ⟨zombie, parented, matched⟩
  obtain ⟨apart, asleep, waiting⟩ := ends.waiting waiting
  rw [others waiter apart] at blocked parented matched
  rw [quiet] at blocked
  -- the waiter was not woken, so it is not the parent of the process that ended
  have orphan : (table.records i).parent ≠ (table.records waiter).pid := fun same =>
    asleep (.inr ⟨same.symm, waiting⟩)
  by_cases self : child = i
  · subst self
    rw [ends.ended] at parented
    simp only [if_neg own] at parented
    exact orphan parented
  rw [others child self] at zombie parented matched
  have before := eq_of_ite (by decide) zombie
  simp only [ProcessRecord.live_of_zombie before, true_and] at parented
  split at parented
  next inherited =>
    have known := ((sound.records waiter).named (live_of_waiting waiting)).1
    rcases table.adopter_cases pid with one | zero
    · have named : table.Names 1 waiter :=
        ⟨live_of_waiting waiting, parented.symm.trans one⟩
      refine keeps i acting (adopter_eq_one.mp one).1 ?_ waiter selector child named
        ⟨waiting, blocked⟩ before inherited matched
      rw [← named.2]
      exact orphan
    · exact known (parented.symm.trans zero)
  next kept =>
    exact attended waiter selector child ⟨waiting, blocked⟩ ⟨before, parented, matched⟩

end

theorem blockedOn_wait (passed : result.status ≠ .wouldBlock) :
    blockedOn pid ((.wait parentPid selector noHang, .wait result) :: history) =
      blockedOn pid history := by
  simp [blockedOn, passed]

section
variable (attended : table.Attended history)
include attended

theorem Attended.blocked (sound : table.Sound) (acting : table.Acts parentPid parent)
    (unmet : ∀ child, ¬ table.Collectable parent selector child)
    (sets : Sets table after parent .waiting) :
    after.Attended ((.wait parentPid selector false, .wait { status := .wouldBlock }) ::
      history) := by
  rintro waiter chosen child ⟨waiting, blocked⟩ ⟨zombie, parented, matched⟩
  rw [sets.changed child] at zombie parented matched
  rw [sets.changed waiter] at waiting blocked parented matched
  have before := eq_of_ite (by decide) zombie
  by_cases equal : waiter = parent
  · subst equal
    simp only [blockedOn, acting.2, and_self, if_true, Option.some.injEq] at blocked
    subst blocked
    exact unmet child ⟨before, parented, matched⟩
  simp only [if_neg equal] at waiting
  have apart : parentPid ≠ (table.records waiter).pid := by
    intro same
    refine equal (sound.unique waiter parent (live_of_waiting waiting) acting.1.live ?_)
    rw [← same, acting.2]
  simp only [blockedOn, apart, false_and, if_false] at blocked
  exact attended waiter chosen child ⟨waiting, blocked⟩ ⟨before, parented, matched⟩

section
variable (quiet : ∀ pid, blockedOn pid later = blockedOn pid history)
include quiet

theorem Attended.set (sets : Sets table after i state) (active : state ≠ .waiting) :
    after.Attended later := by
  refine attended.mono quiet ?_ ?_ ?_ <;> intro j holds <;> rw [sets.changed j] at *
  · exact eq_of_ite active holds
  · exact ⟨eq_of_ite sets.running holds, rfl⟩
  · exact ⟨rfl, rfl⟩

theorem Attended.forked {vfork : Bool} (forks : Forks table after parentPid vfork parent child) :
    after.Attended later := by
  rintro waiter selector zombie ⟨waiting, blocked⟩ ⟨ended, parented, matched⟩
  obtain ⟨apart, waiting⟩ := forks.kept waiting (by decide) (by decide)
  obtain ⟨apartZombie, ended⟩ := forks.kept ended (by decide) (by decide)
  rw [forks.others waiter apart] at blocked parented matched
  rw [forks.others zombie apartZombie] at parented matched
  rw [quiet] at blocked
  exact attended waiter selector zombie ⟨waiting, blocked⟩ ⟨ended, parented, matched⟩

theorem Attended.collected (collects : Collects table after child) : after.Attended later := by
  refine attended.mono quiet ?_ ?_ ?_
  · intro waiter waiting
    rwa [← collects.others waiter (collects.apart (live_of_waiting waiting))]
  · intro zombie ended
    have apart := collects.apart (ProcessRecord.live_of_zombie ended)
    rw [collects.others zombie apart] at ended ⊢
    exact ⟨ended, rfl⟩
  · intro i alive
    rw [collects.others i (collects.apart alive)]
    exact ⟨rfl, rfl⟩

end

end

theorem Permits.eq (unique : table.Unique)
    (granted : table.Permits callerPid targetPid group target joined)
    (also : table.Permits callerPid targetPid group target' joined') :
    target' = target ∧ joined' = joined := by
  have same := unique.eq also.named granted.named
  subst same
  exact ⟨rfl, also.chosen.trans granted.chosen.symm⟩

/-- A call leaves every wait attended to exactly if it is one of those that do. -/
theorem Attended.effect_iff (attended : table.Attended history) (sound : table.Sound)
    (effect : Effect table call answer after) :
    after.Attended ((call, answer) :: history) ↔ KeepsAttended history table call := by
  -- a call that changed nothing
  have idle : ∀ {event : ProcessCall × ProcessAnswer},
      (∀ pid, blockedOn pid (event :: history) = blockedOn pid history) →
      table.Attended (event :: history) := fun quiet =>
    attended.mono quiet (fun _ waiting => waiting) (fun _ zombie => ⟨zombie, rfl⟩)
      fun _ _ => ⟨rfl, rfl⟩
  cases effect with
  | notForked | notExecuted | notStopped | notResumed =>
    exact iff_of_true (idle fun _ => rfl) trivial
  | forked forks => exact iff_of_true (attended.forked (fun _ => rfl) forks) trivial
  | executed executes =>
    refine iff_of_true (attended.mono (fun _ => rfl) ?_ ?_ ?_) trivial <;> intro j holds <;>
      rw [executes.changed j] at *
    · exact eq_of_ite (by decide) holds
    · exact ⟨eq_of_ite (by decide) holds, rfl⟩
    · exact ⟨rfl, rfl⟩
  | notExited absent =>
    exact iff_of_true (idle fun _ => rfl) fun i acting => absurd acting (absent i)
  | exited ends => exact attended.exited_iff sound (fun _ => rfl) ends
  | notWaited failed => exact iff_of_true (idle fun _ => blockedOn_wait failed) trivial
  | blocked acting unmet sets =>
    exact iff_of_true (attended.blocked sound acting unmet sets) trivial
  | collected acting met collects =>
    exact iff_of_true (attended.collected (fun _ => blockedOn_wait (by simp)) collects) trivial
  | notRegrouped denied =>
    exact iff_of_true (idle fun _ => rfl) fun moved joined granted =>
      absurd granted (denied moved joined)
  | regrouped granted joins =>
    refine (attended.moved_iff (fun _ => rfl) joins).trans ?_
    constructor
    · intro quietly moved joined also
      obtain ⟨rfl, rfl⟩ := Permits.eq sound.unique granted also
      exact quietly
    · exact fun keeps => keeps _ _ granted
  | notDetached denied =>
    exact iff_of_true (idle fun _ => rfl) fun moved named mem => absurd (denied moved named) mem
  | detached named mem joins =>
    refine (attended.moved_iff (fun _ => rfl) joins).trans ?_
    constructor
    · intro quietly moved also _
      rwa [sound.unique.eq also named]
    · exact fun keeps => keeps _ named mem
  | stopped sets
  | resumed named halted sets =>
    exact iff_of_true (attended.set (fun _ => rfl) sets (by decide)) trivial

/-- Whoever is in the state of waiting has blocked in a wait. -/
def Blocked (table : ProcessTable capacity) (history : History) : Prop :=
  ∀ waiter, (table.records waiter).state = .waiting → ∃ selector, table.Waits history waiter selector

theorem blockedOn_isSome (blocked : (blockedOn pid history).isSome) :
    (blockedOn pid (event :: history)).isSome := by
  obtain ⟨call, answer⟩ := event
  cases call with
  | wait parentPid selector noHang =>
    cases answer with
    | wait result =>
      rw [blockedOn]
      split
      · rfl
      · exact blocked
    | status value => exact blocked
    | fork result => exact blocked
  | _ => exact blocked

/-- Nobody starts to wait but the caller of a wait. -/
theorem Effect.waiting (effect : Effect table call answer after)
    (waiting : (after.records waiter).state = .waiting) : (table.records waiter).state = .waiting ∧
        (after.records waiter).pid = (table.records waiter).pid ∨
      (blockedOn (after.records waiter).pid ((call, answer) :: history)).isSome := by
  cases effect with
  | notForked | notExecuted | notExited | notWaited | notRegrouped | notDetached | notStopped |
    notResumed => exact .inl ⟨waiting, rfl⟩
  | forked forks =>
    obtain ⟨apart, waiting⟩ := forks.kept waiting (by decide) (by decide)
    rw [forks.others waiter apart]
    exact .inl ⟨waiting, rfl⟩
  | executed executes =>
    rw [executes.changed waiter] at waiting ⊢
    exact .inl ⟨eq_of_ite (by decide) waiting, rfl⟩
  | exited ends =>
    obtain ⟨apart, -, waiting⟩ := ends.waiting waiting
    rw [ends.others waiter apart]
    exact .inl ⟨waiting, rfl⟩
  | @blocked _ parent _ _ acting unmet sets =>
    rw [sets.changed waiter] at waiting ⊢
    by_cases equal : waiter = parent
    · subst equal
      right
      simp [blockedOn, acting.2]
    · simp only [if_neg equal] at waiting
      exact .inl ⟨waiting, rfl⟩
  | collected acting met collects =>
    have apart := collects.apart (live_of_waiting waiting)
    rw [collects.others waiter apart] at waiting ⊢
    exact .inl ⟨waiting, rfl⟩
  | regrouped _ joins | detached _ _ joins =>
    rw [joins.changed waiter] at waiting ⊢
    exact .inl ⟨waiting, rfl⟩
  | stopped sets | resumed _ _ sets =>
    rw [sets.changed waiter] at waiting ⊢
    exact .inl ⟨eq_of_ite (by decide) waiting, rfl⟩

theorem Blocked.effect (blocked : table.Blocked history) (effect : Effect table call answer after) :
    after.Blocked ((call, answer) :: history) := by
  intro waiter waiting
  have asked : (blockedOn (after.records waiter).pid ((call, answer) :: history)).isSome := by
    rcases effect.waiting waiting with ⟨before, same⟩ | now
    · obtain ⟨selector, -, asked⟩ := blocked waiter before
      rw [same]
      exact blockedOn_isSome (by rw [asked]; rfl)
    · exact now
  obtain ⟨selector, asked⟩ := Option.isSome_iff_exists.mp asked
  exact ⟨selector, waiting, asked⟩

/-- A wait collects nothing if there is no zombie for it. -/
theorem wait_pid_eq_zero (unique : table.Unique) (named : table.Names pid waiter)
    (unmet : ∀ child, ¬ table.Collectable waiter selector child) (noHang : Bool) :
    (table.wait pid selector noHang).1.pid = 0 := by
  have effect : Effect table (.wait pid selector noHang) _ _ := wait_effect pid selector noHang
  generalize (table.wait pid selector noHang).1 = result at effect
  generalize (table.wait pid selector noHang).2 = after at effect
  cases effect with
  | notWaited failed => rfl
  | blocked acting unmet sets => rfl
  | @collected _ _ _ child _ _ acting met collects =>
    rw [unique.eq acting.names named] at met
    exact absurd met (unmet child)

/-- The children of a process that ends are not its children any more. -/
theorem Sound.adopter_ne (sound : table.Sound) (acting : table.Acts pid i) :
    table.adopter pid ≠ pid := by
  intro same
  rcases table.adopter_cases pid with one | zero
  · exact (adopter_eq_one.mp one).1 (same.symm.trans one)
  · have known : pid ≠ 0 := sound.acting_ne_zero acting
    exact known (same.symm.trans zero)

/-- After the end of a process all waits are attended to exactly if the processes that waited
and have a zombie for it now are awake. -/
theorem Attended.awake_iff (attended : table.Attended history) (sound : table.Sound)
    (effect : Effect table (.exit pid status) answer after) :
    (∀ waiter selector child, table.Waits history waiter selector →
      after.Collectable waiter selector child → (after.records waiter).state = .runnable) ↔
      after.Attended ((.exit pid status, answer) :: history) := by
  cases effect with
  | notExited absent =>
    refine iff_of_true ?_ ?_
    · exact fun waiter selector child waits met => absurd met (attended waiter selector child waits)
    · exact attended
  | @exited _ _ _ i ends =>
    have acting := ends.acting
    have others := ends.others
    constructor
    · intro awake waiter selector child waits met
      obtain ⟨apart, -, before⟩ := ends.waiting waits.1
      have before : table.Waits history waiter selector := by
        rw [Waits, others waiter apart] at waits
        exact ⟨before, waits.2⟩
      exact absurd (waits.1.symm.trans (awake waiter selector child before met)) (by decide)
    intro kept waiter selector child waits met
    by_cases self : waiter = i
    · subst self
      -- the process that ended has no children left
      obtain ⟨zombie, parented, -⟩ := met
      rw [ends.ended, acting.2] at parented
      refine absurd parented ?_
      by_cases same : child = waiter
      · subst same
        rw [ends.ended]
        split
        · exact sound.adopter_ne acting
        next apart => exact apart
      rw [others child same] at zombie ⊢
      have before := eq_of_ite (by decide) zombie
      simp only [ProcessRecord.live_of_zombie before, true_and]
      split
      · exact sound.adopter_ne acting
      next apart => exact apart
    by_cases woken : table.Released i waiter ∨ table.Roused i waiter
    · simp [others waiter self, woken]
    · refine absurd met (kept waiter selector child ?_)
      rw [Waits, others waiter self]
      simp only [if_neg woken]
      exact waits

section Runs
variable [NeZero capacity] {allowed : History → ProcessTable capacity → ProcessCall → Prop}

theorem not_waiting_of_start (started : initializeTable {} first = (.success, table)) :
    ∀ waiter, (table.records waiter).state ≠ .waiting := by
  obtain ⟨-, -, filled, others⟩ := initializeTable_records started
  intro waiter
  by_cases equal : waiter = 0
  · simp [equal, filled]
  · simp [others waiter equal]

theorem Reached.blocked (reached : Reached allowed first history table) :
    table.Blocked history := by
  induction reached with
  | start started => exact fun waiter waiting => absurd waiting (not_waiting_of_start started waiter)
  | call reached call _ ih => exact ih.effect (reached.sound.unique.perform_effect call)

theorem Reached.attended (reached : Reached KeepsAttended first history table) :
    table.Attended history := by
  induction reached with
  | start started =>
    exact fun waiter _ _ waiting => absurd waiting.1 (not_waiting_of_start started waiter)
  | call reached call keeps ih =>
    exact (ih.effect_iff reached.sound (reached.sound.unique.perform_effect call)).mpr keeps

/-- In every run of calls that leave no wait unattended, no process is blocked in a wait that
would collect a zombie; every other call leaves such a process, and the end of a process then
leaves one asleep that has a zombie to collect. -/
theorem waits_attended (reached : Reached KeepsAttended first history table) :
    (∀ waiter, (table.records waiter).state = .waiting →
      ∃ selector, table.Waits history waiter selector ∧
        (∀ child, ¬ table.Collectable waiter selector child) ∧
        ∀ noHang, (table.wait (table.records waiter).pid selector noHang).1.pid = 0) ∧
      (∀ call, (table.perform call).2.Attended ((call, (table.perform call).1) :: history) ↔
        KeepsAttended history table call) ∧
      ∀ pid status, (∀ waiter selector child, table.Waits history waiter selector →
        (table.exit pid status).2.Collectable waiter selector child →
        ((table.exit pid status).2.records waiter).state = .runnable) ↔
          KeepsAttended history table (.exit pid status) := by
  have sound := reached.sound
  have attended := reached.attended
  refine ⟨fun waiter waiting => ?_, fun call => ?_, fun pid status => ?_⟩
  · obtain ⟨selector, waits⟩ := reached.blocked waiter waiting
    have unmet := fun child => attended waiter selector child waits
    have named : table.Names (table.records waiter).pid waiter := ⟨live_of_waiting waiting, rfl⟩
    exact ⟨selector, waits, unmet, wait_pid_eq_zero sound.unique named unmet⟩
  · exact attended.effect_iff sound (sound.unique.perform_effect call)
  · have effect := sound.unique.exit_effect pid status
    exact (attended.awake_iff sound effect).trans (attended.effect_iff sound effect)

/-- The first process is woken from its wait when its child ends. -/
theorem waits_attended_child :
    let waiting := (lone 4).follow [.fork 1 false, .wait 1 {} false]
    waiting.2.Waits waiting.1 0 {} ∧
      ((waiting.2.exit 2 7).2.records 0).state = .runnable := by
  intro waiting
  have reached : Reached KeepsAttended 1 waiting.1 waiting.2 :=
    .call (.call (.start rfl) (.fork 1 false) trivial) (.wait 1 {} false) trivial
  have waits : waiting.2.Waits waiting.1 0 {} := ⟨by decide, by decide⟩
  have keeps : KeepsAttended waiting.1 waiting.2 (.exit 2 7) := by
    intro index acting _ orphan
    have child : ∀ index, waiting.2.Acts 2 index → (waiting.2.records index).parent = 1 := by
      decide
    exact absurd (child index acting) orphan
  refine ⟨waits, ((waits_attended reached).2.2 2 7).mpr keeps 0 {} 1 waits ?_⟩
  exact ⟨by decide, by decide, by decide⟩

/-- The first process waits for any child; its grandchild ends, whose own child has ended
before.  The first process inherits this zombie and stays blocked. -/
theorem zombie_inherited_asleep :
    let run := (lone 4).follow [.fork 1 false, .fork 2 false, .fork 3 false, .exit 4 7,
      .wait 1 {} false, .exit 3 0]
    Reached (fun _ _ _ => True) 1 run.1 run.2 ∧
      (run.2.records 0).state = .waiting ∧ (run.2.wait 1 {} false).1 = ⟨.success, 4, 7⟩ ∧
      ¬ run.2.Attended run.1 := by
  refine ⟨reached_follow rfl _, by decide, by decide, fun attended => ?_⟩
  exact attended 0 {} 3 ⟨by decide, by decide⟩ ⟨by decide, by decide, by decide⟩

end Runs
end ProcessTable
end Mikos.Process
