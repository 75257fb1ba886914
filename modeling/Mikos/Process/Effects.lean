import Mikos.Process.Table

/-!
# What the calls on the process table do

The effect of every call is said once, record by record; every result about runs of calls
is derived from it.
-/

namespace Mikos.Process
namespace ProcessTable
variable {capacity : Nat}

/-! ## What a call does -/

def perform (table : ProcessTable capacity) : ProcessCall → ProcessAnswer × ProcessTable capacity
  | .fork parentPid vfork =>
    let (result, after) := table.fork parentPid vfork
    (.fork result, after)
  | .markExec pid =>
    let (status, after) := table.markExec pid
    (.status status, after)
  | .exit pid status =>
    let (status, after) := table.exit pid status
    (.status status, after)
  | .wait parentPid selector noHang =>
    let (result, after) := table.wait parentPid selector noHang
    (.wait result, after)
  | .setProcessGroup callerPid targetPid group =>
    let (status, after) := table.setProcessGroup callerPid targetPid group
    (.status status, after)
  | .createSession pid =>
    let (status, after) := table.createSession pid
    (.status status, after)
  | .stop pid =>
    let (status, after) := table.stop pid
    (.status status, after)
  | .resume pid =>
    let (status, after) := table.resume pid
    (.status status, after)

/-- A zombie that a wait of its parent may collect. -/
def Collectable (table : ProcessTable capacity) (parent : Fin capacity) (selector : WaitSelector)
    (child : Fin capacity) : Prop :=
  (table.records child).state = .zombie ∧
    (table.records child).parent = (table.records parent).pid ∧
    matchesSelector (table.records parent) (table.records child) selector

/-- The process that a call may move, and the group that it moves to. -/
structure Permits (table : ProcessTable capacity) (callerPid targetPid group : UInt32)
    (target : Fin capacity) (joined : UInt32) : Prop where
  called : ∃ index, table.Names callerPid index
  named : table.Names (if targetPid = 0 then callerPid else targetPid) target
  own : (table.records target).pid = callerPid ∨
    (table.records target).parent = callerPid ∧ ¬ (table.records target).executed
  follower : (table.records target).session ≠ (table.records target).pid
  chosen : joined = if group = 0 then (table.records target).pid else group
  led : joined = (table.records target).pid ∨
    ∃ leader, table.Names joined leader ∧ (table.records leader).processGroup = joined ∧
      (table.records leader).session = (table.records target).session

/-- A process started another. -/
structure Forks (table after : ProcessTable capacity) (parentPid : UInt32) (vfork : Bool)
    (parent child : Fin capacity) : Prop where
  acting : table.Acts parentPid parent
  valid : table.nextPid ≠ 0
  born : after.records child = offspring (table.records parent) table.nextPid parentPid vfork
  others : ∀ other ≠ child, after.records other =
    { table.records other with
      state := if vfork ∧ other = parent then .vforkWait else (table.records other).state }
  next : after.nextPid = table.nextPid + 1

/-- A process turned to another program. -/
structure Executes (table after : ProcessTable capacity) (pid : UInt32) (index : Fin capacity) :
    Prop where
  acting : table.Acts pid index
  changed : ∀ other, after.records other =
    { table.records other with
      state := if table.Released index other then .runnable else (table.records other).state
      executed := if other = index then true else (table.records other).executed
      vforkParent := if other = index then 0 else (table.records other).vforkParent }
  next : after.nextPid = table.nextPid

structure Ends (table after : ProcessTable capacity) (pid status : UInt32)
    (index : Fin capacity) : Prop where
  acting : table.Acts pid index
  ended : after.records index =
    { table.records index with
      state := .zombie
      parent := if (table.records index).parent = pid then table.adopter pid
        else (table.records index).parent
      exitStatus := status
      vforkParent := 0
      addressSpace := false }
  others : ∀ other ≠ index, after.records other =
    { table.records other with
      state := if table.Released index other ∨ table.Roused index other then .runnable
        else (table.records other).state
      parent := if (table.records other).Live ∧ (table.records other).parent = pid then
        table.adopter pid else (table.records other).parent }
  next : after.nextPid = table.nextPid

structure Collects (table after : ProcessTable capacity) (child : Fin capacity) : Prop where
  freed : after.records child = {}
  others : ∀ other ≠ child, after.records other = table.records other
  next : after.nextPid = table.nextPid

/-- A process that has not ended was put in another state. -/
structure Sets (table after : ProcessTable capacity) (index : Fin capacity)
    (state : ProcessState) : Prop where
  alive : (table.records index).Alive
  occupied : state ≠ .free
  running : state ≠ .zombie
  changed : ∀ other, after.records other =
    { table.records other with
      state := if other = index then state else (table.records other).state }
  next : after.nextPid = table.nextPid

/-- A process went to a group and a session. -/
structure Joins (table after : ProcessTable capacity) (target : Fin capacity)
    (group session : UInt32) : Prop where
  changed : ∀ other, after.records other =
    { table.records other with
      processGroup := if other = target then group else (table.records other).processGroup
      session := if other = target then session else (table.records other).session }
  next : after.nextPid = table.nextPid

/-- What a call does to the table, and what it answers. -/
inductive Effect (table : ProcessTable capacity) :
    ProcessCall → ProcessAnswer → ProcessTable capacity → Prop where
  | notForked (failed : result.status ≠ .success) :
      Effect table (.fork parentPid vfork) (.fork result) table
  | forked (forks : Forks table after parentPid vfork parent child) :
      Effect table (.fork parentPid vfork)
        (.fork ⟨.success, table.nextPid, 0, table.nextPid⟩) after
  | notExecuted (absent : ∀ index, ¬ table.Acts pid index) :
      Effect table (.markExec pid) (.status .noProcess) table
  | executed (executes : Executes table after pid index) :
      Effect table (.markExec pid) (.status .success) after
  | notExited (absent : ∀ index, ¬ table.Acts pid index) :
      Effect table (.exit pid status) (.status .noProcess) table
  | exited (ends : Ends table after pid status index) :
      Effect table (.exit pid status) (.status .success) after
  | notWaited (failed : status ≠ .wouldBlock) :
      Effect table (.wait parentPid selector noHang) (.wait { status }) table
  | blocked (acting : table.Acts parentPid parent)
      (unmet : ∀ child, ¬ table.Collectable parent selector child)
      (sets : Sets table after parent .waiting) :
      Effect table (.wait parentPid selector false) (.wait { status := .wouldBlock }) after
  | collected (acting : table.Acts parentPid parent) (met : table.Collectable parent selector child)
      (collects : Collects table after child) :
      Effect table (.wait parentPid selector noHang)
        (.wait ⟨.success, (table.records child).pid, (table.records child).exitStatus⟩) after
  | notRegrouped (denied : ∀ target joined, ¬ table.Permits callerPid targetPid group target joined) :
      Effect table (.setProcessGroup callerPid targetPid group) (.status status) table
  | regrouped (permitted : table.Permits callerPid targetPid group target joined)
      (joins : Joins table after target joined (table.records target).session) :
      Effect table (.setProcessGroup callerPid targetPid group) (.status .success) after
  | notDetached
      (denied : ∀ index, table.Names pid index → (table.records index).processGroup = pid) :
      Effect table (.createSession pid) (.status status) table
  | detached (named : table.Names pid index) (member : (table.records index).processGroup ≠ pid)
      (joins : Joins table after index pid pid) :
      Effect table (.createSession pid) (.status .success) after
  | notStopped : Effect table (.stop pid) (.status .noProcess) table
  | stopped (sets : Sets table after index .stopped) :
      Effect table (.stop pid) (.status .success) after
  | notResumed (denied : ∀ index, table.Acts pid index → (table.records index).state ≠ .stopped) :
      Effect table (.resume pid) (.status status) table
  | resumed (named : table.Names pid index) (halted : (table.records index).state = .stopped)
      (sets : Sets table after index .runnable) :
      Effect table (.resume pid) (.status .success) after

variable {table after : ProcessTable capacity} {pid parentPid : UInt32}
  {i j parent child : Fin capacity} {selector : WaitSelector}

theorem collectable_error
    (missed : table.collectable parent (table.records parent).pid selector list hasChild =
      .error found) : ∀ child ∈ list, ¬ table.Collectable parent selector child := by
  induction list generalizing hasChild with
  | nil => simp
  | cons head rest ih =>
    simp only [collectable] at missed
    split at missed
    next skipped =>
      intro child mem
      rcases List.mem_cons.mp mem with rfl | mem
      · rintro ⟨zombie, parents, selected⟩
        simp [zombie, parents, selected] at skipped
      · exact ih missed child mem
    rename_i taken
    split at missed
    next zombie => cases missed
    rename_i running
    intro child mem
    rcases List.mem_cons.mp mem with rfl | mem
    · exact fun collectable => running collectable.1
    · exact ih missed child mem

theorem collectable_ok
    (found : table.collectable parent (table.records parent).pid selector list hasChild =
      .ok child) : table.Collectable parent selector child := by
  induction list generalizing hasChild with
  | nil => cases found
  | cons head rest ih =>
    simp only [collectable] at found
    split at found
    next skipped => exact ih found
    rename_i taken
    split at found
    next zombie =>
      cases found
      simp only [not_or, not_not] at taken
      exact ⟨zombie, taken.2.1, taken.2.2⟩
    next running => exact ih found

theorem acts_of_find (found : table.find pid = some i)
    (running : (table.records i).state ≠ .zombie) : table.Acts pid i :=
  ⟨⟨(find_names found).1, running⟩, (find_names found).2⟩

/-- Nobody acts under a number that is not found, or found on a zombie. -/
theorem Unique.not_acts_of_zombie (unique : table.Unique) (found : table.find pid = some i)
    (zombie : (table.records i).state = .zombie) : ∀ j, ¬ table.Acts pid j := by
  intro j acting
  have equal := unique.eq acting.names (find_names found)
  subst equal
  exact acting.1.2 zombie

theorem not_acts_of_find (missing : table.find pid = none) : ∀ j, ¬ table.Acts pid j :=
  fun j acting => find_eq_none.mp missing j acting.names

theorem fork_effect (parentPid : UInt32) (vfork : Bool) :
    Effect table (.fork parentPid vfork) (.fork (table.fork parentPid vfork).1)
      (table.fork parentPid vfork).2 := by
  unfold fork
  split
  next missing => exact .notForked (by simp)
  rename_i parent found
  split
  next ended => exact .notForked (by simp)
  rename_i running
  rw [not_or] at running
  split
  next full => exact .notForked (by simp)
  rename_i child vacant
  split
  next exhausted => exact .notForked (by simp)
  rename_i valid
  have free := freeSlot_free vacant
  have apart : parent ≠ child := fun equal => running.2 (equal ▸ free)
  refine .forked (show Forks table _ parentPid vfork parent child from
    ⟨acts_of_find found running.1, valid, ?_, ?_, rfl⟩)
  · cases vfork with
    | false => simp
    | true => simp [setState, modify_other apart.symm]
  intro j different
  cases vfork with
  | false => simp [modify_other different]
  | true =>
    by_cases same : j = parent
    · subst same
      simp [setState, modify_other different]
    · simp [setState, modify_other same, modify_other different, same]

theorem Unique.markExec_effect (unique : table.Unique) (pid : UInt32) :
    Effect table (.markExec pid) (.status (table.markExec pid).1) (table.markExec pid).2 := by
  unfold markExec
  split
  next missing => exact .notExecuted (not_acts_of_find missing)
  rename_i i found
  split
  next zombie => exact .notExecuted (unique.not_acts_of_zombie found zombie)
  rename_i running
  refine .executed ⟨acts_of_find found running, ?_, wakeVforkParent_nextPid⟩
  intro j
  have marked : (table.modify i fun record =>
      { record with executed := true }).Unique := unique.modify id rfl
  have freed : (table.modify i fun record =>
      { record with executed := true }).Released i j ↔
      table.Released i j := by
    by_cases equal : j = i
    · subst equal
      simp [Released]
    · simp [Released, modify_other equal]
  rw [marked.wakeVforkParent_records]
  simp only [freed]
  by_cases equal : j = i
  · subst equal
    simp
  · simp [modify_other equal, equal]

section
variable (live : ∀ i, (after.records i).Live ↔ (table.records i).Live)
  (same : ∀ i, (after.records i).pid = (table.records i).pid) (exiting : UInt32)
include live same

theorem adopter_congr : after.adopter exiting = table.adopter exiting := by
  unfold adopter
  have agree : (fun i => decide ((after.records i).state ≠ .free ∧
      (after.records i).pid = 1 ∧ (after.records i).pid ≠ exiting)) =
      fun i => decide ((table.records i).state ≠ .free ∧
        (table.records i).pid = 1 ∧ (table.records i).pid ≠ exiting) := by
    funext i
    have both := live i
    unfold ProcessRecord.Live at both
    rw [same i]
    simp only [both]
  rw [agree]

/-- Handing the children over, in a table that differs from the one before in neither the
records in use nor their numbers. -/
theorem reparentChildren_records (j : Fin capacity) :
    (after.reparentChildren exiting).records j =
      { after.records j with
        parent := if (table.records j).Live ∧ (after.records j).parent = exiting then
          table.adopter exiting else (after.records j).parent } := by
  simp only [reparentChildren, adopter_congr live same]
  have both := live j
  by_cases moved : (table.records j).Live ∧ (after.records j).parent = exiting
  · rw [if_pos moved, if_pos ⟨both.mpr moved.1, moved.2⟩]
  · rw [if_neg moved, if_neg fun inside => moved ⟨both.mp inside.1, inside.2⟩]

end

/-- The table in the middle of an exit: the record is that of a zombie, and its process has
left the memory that it ran in. -/
def dying (table : ProcessTable capacity) (index : Fin capacity) (status : UInt32) :
    ProcessTable capacity :=
  (table.modify index fun record =>
    { record with exitStatus := status, state := .zombie, addressSpace := false }).wakeVforkParent
      index

section Dying
variable {status : UInt32}

section
variable (unique : table.Unique) (alive : (table.records i).Alive)
include unique alive

theorem Unique.modify_zombie :
    (table.modify i fun record =>
      { record with exitStatus := status, state := .zombie, addressSpace := false }).Unique :=
  unique.modify (fun _ => alive.live) rfl

theorem Unique.dying : (table.dying i status).Unique := (unique.modify_zombie alive).wakeVforkParent

theorem Unique.dying_self :
    (table.dying i status).records i =
      { table.records i with
        state := .zombie
        exitStatus := status
        vforkParent := 0
        addressSpace := false } := by
  rw [ProcessTable.dying, (unique.modify_zombie alive).wakeVforkParent_records, if_pos rfl,
    if_neg (by simp [Released])]
  simp only [modify_self]

theorem Unique.dying_other (apart : j ≠ i) :
    (table.dying i status).records j =
      { table.records j with
        state := if table.Released i j then .runnable else (table.records j).state } := by
  have freed : (table.modify i fun record => { record with
      exitStatus := status, state := .zombie, addressSpace := false }).Released i j ↔
      table.Released i j := by
    simp [Released, modify_other apart]
  rw [ProcessTable.dying, (unique.modify_zombie alive).wakeVforkParent_records, if_neg apart]
  simp only [freed, modify_other apart]

end

@[simp] theorem dying_nextPid : (table.dying i status).nextPid = table.nextPid := by
  simp [ProcessTable.dying]

/-- The parent of the zombie, woken from its wait. -/
def mourned (table : ProcessTable capacity) (index : Fin capacity) (status : UInt32) :
    ProcessTable capacity :=
  (table.dying index status).wake ((table.dying index status).records index).parent .waiting

variable (unique : table.Unique) (alive : (table.records i).Alive)
include unique alive

theorem Unique.mourned_self :
    (table.mourned i status).records i =
      { table.records i with
        state := .zombie
        exitStatus := status
        vforkParent := 0
        addressSpace := false } := by
  rw [ProcessTable.mourned, (unique.dying alive).wake_records (by decide), if_neg,
    unique.dying_self alive]
  simp [unique.dying_self alive]

theorem Unique.mourned_other (apart : j ≠ i) :
    (table.mourned i status).records j =
      { table.records j with
        state := if table.Released i j ∨ table.Roused i j then .runnable
          else (table.records j).state } := by
  rw [ProcessTable.mourned, (unique.dying alive).wake_records (by decide),
    unique.dying_self alive, unique.dying_other alive apart]
  by_cases freed : table.Released i j
  · simp [freed]
  simp only [freed, if_false, false_or]
  by_cases roused : table.Roused i j
  · rw [if_pos roused]
    exact if_pos roused
  · rw [if_neg roused]
    exact if_neg roused

theorem Unique.mourned_pid (j : Fin capacity) :
    ((table.mourned i status).records j).pid = (table.records j).pid := by
  by_cases equal : j = i
  · subst equal
    rw [unique.mourned_self alive]
  · rw [unique.mourned_other alive equal]

theorem Unique.mourned_live (j : Fin capacity) :
    ((table.mourned i status).records j).Live ↔ (table.records j).Live := by
  by_cases equal : j = i
  · subst equal
    rw [unique.mourned_self alive]
    exact ⟨fun _ => alive.live, fun _ => by simp [ProcessRecord.Live]⟩
  rw [unique.mourned_other alive equal]
  by_cases changed : table.Released i j ∨ table.Roused i j
  · have parked : (table.records j).Live := by
      rcases changed with freed | roused
      · simp [ProcessRecord.Live, freed.2.2]
      · simp [ProcessRecord.Live, roused.2]
    simp only [if_pos changed]
    exact ⟨fun _ => parked, fun _ => by simp [ProcessRecord.Live]⟩
  · simp only [if_neg changed]

end Dying

theorem Unique.exit_effect (unique : table.Unique) (pid status : UInt32) :
    Effect table (.exit pid status) (.status (table.exit pid status).1)
      (table.exit pid status).2 := by
  unfold exit
  split
  next missing => exact .notExited (not_acts_of_find missing)
  rename_i i found
  split
  next zombie => exact .notExited (unique.not_acts_of_zombie found zombie)
  rename_i running
  have acting := acts_of_find found running
  have alive := acting.1
  have handed : ∀ j, ((table.mourned i status).reparentChildren pid).records j =
      _ := reparentChildren_records (unique.mourned_live alive) (unique.mourned_pid alive) pid
  show Effect table _ _ ((table.mourned i status).reparentChildren pid)
  refine .exited ⟨acting, ?_, ?_, ?_⟩
  · rw [handed, unique.mourned_self alive]
    simp [alive.live]
  · intro j apart
    rw [handed, unique.mourned_other alive apart]
  · exact (wake_nextPid _).trans dying_nextPid

theorem sets_setState (alive : (table.records i).Alive) (occupied : state ≠ .free)
    (running : state ≠ .zombie) : Sets table (table.setState i state) i state := by
  refine ⟨alive, occupied, running, fun j => ?_, rfl⟩
  by_cases equal : j = i
  · subst equal
    simp [setState]
  · simp [setState, modify_other equal, equal]

theorem wait_effect (parentPid : UInt32) (selector : WaitSelector) (noHang : Bool) :
    Effect table (.wait parentPid selector noHang) (.wait (table.wait parentPid selector noHang).1)
      (table.wait parentPid selector noHang).2 := by
  unfold wait
  split
  next missing => exact .notWaited (by simp)
  rename_i parent found
  split
  next zombie => exact .notWaited (by simp)
  rename_i running
  have acting := acts_of_find found running
  rw [← acting.2]
  split
  next child met =>
    refine .collected ⟨acting.1, rfl⟩ (collectable_ok met) ⟨?_, ?_, rfl⟩
    · exact modify_self fun _ => {}
    · intro j apart
      exact modify_other apart fun _ => {}
  rename_i hasChild missed
  split
  next alone => exact .notWaited (by simp)
  rename_i some
  split
  next hangs => exact .notWaited (by simp)
  rename_i blocks
  rw [Bool.not_eq_true] at blocks
  subst blocks
  refine .blocked ⟨acting.1, rfl⟩ (fun child => ?_) (sets_setState acting.1 (by decide) (by decide))
  exact collectable_error missed child (List.mem_finRange child)

theorem Unique.setProcessGroup_effect (unique : table.Unique) (callerPid targetPid group : UInt32) :
    Effect table (.setProcessGroup callerPid targetPid group)
      (.status (table.setProcessGroup callerPid targetPid group).1)
      (table.setProcessGroup callerPid targetPid group).2 := by
  unfold setProcessGroup
  split
  next missing =>
    refine .notRegrouped fun target joined granted => ?_
    obtain ⟨i, named⟩ := granted.called
    exact find_eq_none.mp missing i named
  rename_i caller called
  dsimp only
  split
  next missing =>
    refine .notRegrouped fun target joined granted => ?_
    exact find_eq_none.mp missing target granted.named
  rename_i target found
  have named := find_names found
  rw [← named.2]
  -- what is permitted concerns the record found
  have only : ∀ other joined, table.Permits callerPid targetPid group other joined →
      other = target := fun other joined granted => unique.eq granted.named named
  split
  next foreign =>
    refine .notRegrouped fun other joined granted => ?_
    have equal := only other joined granted
    subst equal
    rcases granted.own with own | ⟨own, -⟩
    · exact foreign.1 own
    · exact foreign.2 own
  rename_i own
  split
  next barred =>
    refine .notRegrouped fun other joined granted => ?_
    have equal := only other joined granted
    subst equal
    rcases barred with leads | ⟨others, executed⟩
    · exact granted.follower leads
    · rcases granted.own with own | ⟨-, fresh⟩
      · exact others own
      · exact fresh executed
  rename_i free
  generalize chosen : (if group = 0 then (table.records target).pid else group) = joined
  split
  next denied =>
    refine .notRegrouped fun other joined' granted => ?_
    have equal := only other joined' granted
    subst equal
    have same : joined' = joined := granted.chosen.trans chosen
    subst same
    rcases granted.led with own | led
    · exact denied.1 own
    · exact denied.2 (unique.led_iff.mpr led)
  rename_i allowed
  refine .regrouped (show table.Permits _ _ _ target joined from
    ⟨⟨caller, find_names called⟩, ⟨named.1, named.2⟩, ?_,
      fun leads => free (.inl leads), chosen.symm, ?_⟩) ⟨?_, rfl⟩
  · by_cases self : (table.records target).pid = callerPid
    · exact .inl self
    · refine .inr ⟨?_, fun executed => free (.inr ⟨self, executed⟩)⟩
      by_contra foreign
      exact own ⟨self, foreign⟩
  · by_cases self : joined = (table.records target).pid
    · exact .inl self
    · exact .inr (unique.led_iff.mp (not_not.mp (not_and.mp allowed self)))
  intro other
  by_cases equal : other = target
  · subst equal
    simp
  · simp [modify_other equal, equal]

theorem Unique.createSession_effect (unique : table.Unique) (pid : UInt32) :
    Effect table (.createSession pid) (.status (table.createSession pid).1)
      (table.createSession pid).2 := by
  unfold createSession
  split
  next missing =>
    exact .notDetached fun i named => absurd named (find_eq_none.mp missing i)
  rename_i i found
  have named := find_names found
  split
  next leads =>
    refine .notDetached fun j also => ?_
    rw [unique.eq also named, leads]
  rename_i mem
  refine .detached named mem ⟨fun j => ?_, rfl⟩
  by_cases equal : j = i
  · subst equal
    simp
  · simp [modify_other equal, equal]

theorem stop_effect (pid : UInt32) :
    Effect table (.stop pid) (.status (table.stop pid).1) (table.stop pid).2 := by
  unfold stop
  split
  next missing => exact .notStopped
  rename_i i found
  split
  next zombie => exact .notStopped
  next running =>
    exact .stopped (sets_setState (acts_of_find found running).1 (by decide) (by decide))

theorem Unique.resume_effect (unique : table.Unique) (pid : UInt32) :
    Effect table (.resume pid) (.status (table.resume pid).1) (table.resume pid).2 := by
  unfold resume
  split
  next missing =>
    exact .notResumed fun i acting => absurd acting (not_acts_of_find missing i)
  rename_i i found
  split
  next zombie =>
    exact .notResumed fun j acting => absurd acting (unique.not_acts_of_zombie found zombie j)
  rename_i running
  split
  next halted =>
    exact .resumed (find_names found) halted
      (sets_setState (acts_of_find found running).1 (by decide) (by decide))
  rename_i active
  refine .notResumed fun j acting => ?_
  rw [unique.eq acting.names (find_names found)]
  exact active

theorem Unique.perform_effect (unique : table.Unique) (call : ProcessCall) :
    Effect table call (table.perform call).1 (table.perform call).2 := by
  cases call with
  | fork parentPid vfork => exact fork_effect parentPid vfork
  | markExec pid => exact unique.markExec_effect pid
  | exit pid status => exact unique.exit_effect pid status
  | wait parentPid selector noHang => exact wait_effect parentPid selector noHang
  | setProcessGroup callerPid targetPid group =>
    exact unique.setProcessGroup_effect callerPid targetPid group
  | createSession pid => exact unique.createSession_effect pid
  | stop pid => exact stop_effect pid
  | resume pid => exact unique.resume_effect pid

end ProcessTable
end Mikos.Process
