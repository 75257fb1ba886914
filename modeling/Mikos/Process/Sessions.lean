import Mikos.Process.TableRuns

/-!
# Groups and sessions

A group belongs to one session as long as no process leaves for a session of its own while
others are in the group that has its number: those are of the session that it leaves, and the
group of the new session gets the same number.
-/

namespace Mikos.Process
namespace ProcessTable
variable {capacity : Nat} {table after : ProcessTable capacity} {first pid parentPid : UInt32}
  {i j parent child : Fin capacity} {history : History}

/-- The processes of a group are of one session. -/
def Coherent (table : ProcessTable capacity) : Prop :=
  ∀ left right, (table.records left).Live → (table.records right).Live →
    (table.records left).processGroup = (table.records right).processGroup →
    (table.records left).session = (table.records right).session

/-- The call keeps groups within their sessions: a process that starts a session leaves nobody
in the group that has its number. -/
def KeepsCoherent (_ : History) (table : ProcessTable capacity) : ProcessCall → Prop
  | .createSession pid => ∀ index, table.Names pid index →
      (table.records index).processGroup ≠ pid →
      ∀ other, (table.records other).Live → (table.records other).processGroup ≠ pid
  | _ => True

/-- What keeps groups within sessions: also those that a process has left, although they have
its number, are of its session; and the leader of a session is in its own group. -/
structure Grouped (table : ProcessTable capacity) : Prop where
  coherent : table.Coherent
  named : ∀ leader member, (table.records leader).Live → (table.records member).Live →
    (table.records member).processGroup = (table.records leader).pid →
    (table.records member).session = (table.records leader).session
  leads : ∀ leader, (table.records leader).Live →
    (table.records leader).session = (table.records leader).pid →
    (table.records leader).processGroup = (table.records leader).pid

section
variable (grouped : table.Grouped)
include grouped

/-- Only processes of before are left, with their groups and sessions. -/
theorem Grouped.mono (kept : ∀ i, (after.records i).Live → (table.records i).Live ∧
      (after.records i).pid = (table.records i).pid ∧
      (after.records i).processGroup = (table.records i).processGroup ∧
      (after.records i).session = (table.records i).session) : after.Grouped := by
  constructor
  · intro left right liveLeft liveRight same
    obtain ⟨beforeLeft, -, groupLeft, sessionLeft⟩ := kept left liveLeft
    obtain ⟨beforeRight, -, groupRight, sessionRight⟩ := kept right liveRight
    rw [sessionLeft, sessionRight]
    exact grouped.coherent left right beforeLeft beforeRight (by rw [← groupLeft, same, groupRight])
  · intro leader mem liveLeader liveMember same
    obtain ⟨beforeLeader, pidLeader, -, sessionLeader⟩ := kept leader liveLeader
    obtain ⟨beforeMember, -, groupMember, sessionMember⟩ := kept mem liveMember
    rw [sessionLeader, sessionMember]
    exact grouped.named leader mem beforeLeader beforeMember
      (by rw [← groupMember, same, pidLeader])
  · intro leader live same
    obtain ⟨before, pid, group, session⟩ := kept leader live
    rw [group, pid]
    exact grouped.leads leader before (by rw [← session, same, pid])

section
variable (sound : table.Sound)
include sound

theorem Grouped.forked {vfork : Bool} (forks : Forks table after parentPid vfork parent child) :
    after.Grouped := by
  have live := forks.acting.1.live
  -- a process that was there before, in the place of each one that is there now
  have before : ∀ i, (after.records i).Live → ∃ model, (table.records model).Live ∧
      (after.records i).processGroup = (table.records model).processGroup ∧
      (after.records i).session = (table.records model).session ∧
      (i ≠ child → model = i) := by
    intro i alive
    by_cases equal : i = child
    · refine ⟨parent, live, ?_⟩
      rw [equal, forks.born]
      exact ⟨rfl, rfl, fun apart => absurd rfl apart⟩
    · refine ⟨i, forks.live equal alive, ?_⟩
      rw [forks.others i equal]
      exact ⟨rfl, rfl, fun _ => rfl⟩
  have fresh : ∀ {number}, table.Issued number → number ≠ table.nextPid := by
    rintro number issued rfl
    exact not_issued_nextPid forks.valid issued
  constructor
  · intro left right liveLeft liveRight same
    obtain ⟨modelLeft, beforeLeft, groupLeft, sessionLeft, -⟩ := before left liveLeft
    obtain ⟨modelRight, beforeRight, groupRight, sessionRight, -⟩ := before right liveRight
    rw [sessionLeft, sessionRight]
    exact grouped.coherent _ _ beforeLeft beforeRight (by rw [← groupLeft, same, groupRight])
  · intro leader mem liveLeader liveMember same
    obtain ⟨modelMember, beforeMember, groupMember, sessionMember, -⟩ := before mem liveMember
    by_cases equal : leader = child
    · rw [equal, forks.born, groupMember] at same
      exact absurd same (fresh ((sound.records modelMember).issued beforeMember).2.1)
    obtain ⟨modelLeader, beforeLeader, -, sessionLeader, self⟩ := before leader liveLeader
    have self := self equal
    subst self
    rw [sessionLeader, sessionMember]
    refine grouped.named modelLeader modelMember beforeLeader beforeMember ?_
    rw [← groupMember, same, forks.others modelLeader equal]
  intro leader liveLeader same
  by_cases equal : leader = child
  · rw [equal, forks.born] at same
    exact absurd same (fresh ((sound.records parent).issued live).2.2.1)
  · rw [forks.others leader equal] at same ⊢
    exact grouped.leads leader (forks.live equal liveLeader) same

theorem Grouped.regrouped (granted : table.Permits callerPid targetPid group target joined)
    (joins : Joins table after target joined (table.records target).session) : after.Grouped := by
  have live := granted.named.1
  have changed : ∀ j, after.records j =
      { table.records j with
        processGroup := if j = target then joined else (table.records j).processGroup } := by
    intro j
    rw [joins.changed j]
    by_cases equal : j = target
    · rw [equal, if_pos rfl, if_pos rfl]
    · rw [if_neg equal, if_neg equal]
  -- who is in the group that the process joins is of its session
  have joined : ∀ mem, (table.records mem).Live → (table.records mem).processGroup = joined →
      (table.records mem).session = (table.records target).session := by
    intro mem alive same
    rcases granted.led with own | ⟨leader, named, leads, session⟩
    · exact grouped.named target mem live alive (same.trans own)
    · rw [← session]
      exact grouped.coherent mem leader alive named.1 (same.trans leads.symm)
  constructor
  · intro left right liveLeft liveRight same
    rw [changed left] at liveLeft same ⊢
    rw [changed right] at liveRight same ⊢
    by_cases onLeft : left = target
    · by_cases onRight : right = target
      · rw [onLeft, onRight]
      · simp only [if_pos onLeft, if_neg onRight] at same
        rw [onLeft]
        exact (joined right liveRight same.symm).symm
    by_cases onRight : right = target
    · simp only [if_neg onLeft, if_pos onRight] at same
      rw [onRight]
      exact joined left liveLeft same
    · simp only [if_neg onLeft, if_neg onRight] at same
      exact grouped.coherent left right liveLeft liveRight same
  · intro leader mem liveLeader liveMember same
    rw [changed leader] at liveLeader same ⊢
    rw [changed mem] at liveMember same ⊢
    by_cases onMember : mem = target
    · simp only [if_pos onMember] at same
      subst onMember
      rcases granted.led with own | ⟨head, named, leads, session⟩
      · rw [sound.unique mem leader liveMember liveLeader (own.symm.trans same)]
      · have equal := sound.unique.eq named ⟨liveLeader, same.symm⟩
        subst equal
        exact session.symm
    · simp only [if_neg onMember] at same
      exact grouped.named leader mem liveLeader liveMember same
  intro leader liveLeader same
  rw [changed leader] at liveLeader same ⊢
  by_cases equal : leader = target
  · rw [equal] at same
    exact absurd same granted.follower
  · simp only [if_neg equal]
    exact grouped.leads leader liveLeader same

/-- A process that starts a session, if nobody is in the group with its number. -/
theorem Grouped.detached (named : table.Names pid i)
    (empty : ∀ j, (table.records j).Live → (table.records j).processGroup ≠ pid)
    (joins : Joins table after i pid pid) : after.Grouped := by
  constructor
  · intro left right liveLeft liveRight same
    rw [joins.changed left] at liveLeft same ⊢
    rw [joins.changed right] at liveRight same ⊢
    by_cases onLeft : left = i
    · by_cases onRight : right = i
      · rw [onLeft, onRight]
      · simp only [if_pos onLeft, if_neg onRight] at same
        exact absurd same.symm (empty right liveRight)
    by_cases onRight : right = i
    · simp only [if_neg onLeft, if_pos onRight] at same
      exact absurd same (empty left liveLeft)
    · simp only [if_neg onLeft, if_neg onRight] at same ⊢
      exact grouped.coherent left right liveLeft liveRight same
  · intro leader mem liveLeader liveMember same
    rw [joins.changed leader] at liveLeader same ⊢
    rw [joins.changed mem] at liveMember same ⊢
    by_cases onMember : mem = i
    · simp only [if_pos onMember] at same ⊢
      have equal := sound.unique.eq ⟨liveLeader, same.symm⟩ named
      rw [if_pos equal]
    simp only [if_neg onMember] at same ⊢
    by_cases onLeader : leader = i
    · rw [onLeader, named.2] at same
      exact absurd same (empty mem liveMember)
    · rw [if_neg onLeader]
      exact grouped.named leader mem liveLeader liveMember same
  intro leader liveLeader same
  rw [joins.changed leader] at liveLeader same ⊢
  by_cases equal : leader = i
  · subst equal
    simp only [if_true]
    exact named.2.symm
  · simp only [if_neg equal] at same ⊢
    exact grouped.leads leader liveLeader same

/-- Every allowed call keeps groups within sessions. -/
theorem Grouped.effect (effect : Effect table call answer after)
    (allowed : KeepsCoherent history table call) : after.Grouped := by
  -- the processes of before, in their groups and sessions
  have kept (keeps : Keeps table after) (same : ∀ other,
      (after.records other).processGroup = (table.records other).processGroup ∧
      (after.records other).session = (table.records other).session) : after.Grouped :=
    grouped.mono fun other live => ⟨(keeps.live other).mp live, keeps.pid other, same other⟩
  cases effect with
  | notForked | notExecuted | notExited | notWaited | notRegrouped | notDetached | notStopped |
    notResumed => exact grouped
  | forked forks => exact grouped.forked sound forks
  | executed executes => exact kept executes.keeps fun other => by simp [executes.changed other]
  | @exited _ _ _ i ends =>
    refine kept ends.keeps fun other => ?_
    by_cases equal : other = i
    · rw [equal, ends.ended]
      exact ⟨rfl, rfl⟩
    · rw [ends.others other equal]
      exact ⟨rfl, rfl⟩
  | blocked _ _ sets | stopped sets | resumed _ _ sets =>
    exact kept sets.keeps fun other => by simp [sets.changed other]
  | collected acting met collects =>
    refine grouped.mono fun other alive => ?_
    have apart := collects.apart alive
    rw [collects.others other apart] at alive ⊢
    exact ⟨alive, rfl, rfl, rfl⟩
  | regrouped granted joins => exact grouped.regrouped sound granted joins
  | detached named mem joins => exact grouped.detached sound named (allowed _ named mem) joins

end

/-- A process that starts a session while another is in the group with its number. -/
theorem Grouped.keepsCoherent (effect : Effect table call answer after) (coherent : after.Coherent) :
    KeepsCoherent history table call := by
  cases effect with
  | notDetached denied => exact fun i named mem => absurd (denied i named) mem
  | @detached _ i _ named mem joins =>
    have changed := joins.changed
    intro leader also _ j live same
    have apart : j ≠ i := by
      rintro rfl
      exact mem same
    have agree := coherent j i (by rw [changed j]; exact live)
      (by rw [changed i]; exact named.1) (by simp [changed, apart, same])
    rw [changed j, changed i] at agree
    simp only [if_neg apart, if_true] at agree
    -- the one left behind is of the session that the process was in
    have former := grouped.named i j named.1 live (same.trans named.2.symm)
    exact mem ((grouped.leads i named.1
      ((former.symm.trans agree).trans named.2.symm)).trans named.2)
  | _ => trivial

end

section Runs
variable [NeZero capacity]

theorem Grouped.start (started : initializeTable {} first = (.success, table)) : table.Grouped := by
  have only : ∀ i, (table.records i).Live → i = 0 := fun _ => eq_zero_of_live started
  constructor
  · intro left right liveLeft liveRight _
    rw [only left liveLeft, only right liveRight]
  · intro leader mem liveLeader liveMember _
    rw [only leader liveLeader, only mem liveMember]
  · intro leader live _
    rw [only leader live, (initializeTable_records started).2.2.1]

/-- Groups stay within sessions over the run. -/
theorem Reached.grouped (reached : Reached KeepsCoherent first history table) : table.Grouped := by
  induction reached with
  | start started => exact .start started
  | call reached call keeps ih =>
    exact ih.effect reached.sound (reached.sound.unique.perform_effect call) keeps

/-- In every run in which nobody starts a session while others are in the group with its
number, each group is of one session; and a call that does so breaks this at once. -/
theorem groups_within_sessions (reached : Reached KeepsCoherent first history table) :
    table.Coherent ∧
      ∀ call, (table.perform call).2.Coherent ↔ KeepsCoherent history table call := by
  have sound := reached.sound
  have grouped := reached.grouped
  refine ⟨grouped.coherent, fun call => ?_⟩
  have effect := sound.unique.perform_effect call
  exact ⟨grouped.keepsCoherent effect, fun keeps => (grouped.effect sound effect keeps).coherent⟩

/-- A child that starts a session of its own. -/
theorem groups_within_sessions_child :
    ((lone 3).follow [.fork 1 false, .createSession 2]).2.Coherent := by
  have reached : Reached KeepsCoherent 1 ((lone 3).follow [.fork 1 false]).1
      ((lone 3).follow [.fork 1 false]).2 := .call (.start rfl) (.fork 1 false) trivial
  have keeps : KeepsCoherent ((lone 3).follow [.fork 1 false]).1
      ((lone 3).follow [.fork 1 false]).2 (.createSession 2) := by
    intro _ _ _
    decide
  exact ((groups_within_sessions reached).2 (.createSession 2)).mpr keeps

/-- A process leads a group, leaves it to its child and starts a session: the child is in the
group of that session, and of another session. -/
theorem group_across_sessions :
    let run := (lone 3).follow [.fork 1 false, .setProcessGroup 2 0 0, .fork 2 false,
      .setProcessGroup 2 2 1, .createSession 2]
    Reached (fun _ _ _ => True) 1 run.1 run.2 ∧
      (run.2.records 1).processGroup = 2 ∧ (run.2.records 2).processGroup = 2 ∧
      (run.2.records 1).session = 2 ∧ (run.2.records 2).session = 1 ∧ ¬ run.2.Coherent := by
  refine ⟨reached_follow rfl _, by decide, by decide, by decide, by decide, fun coherent => ?_⟩
  exact absurd (coherent 1 2 (by decide) (by decide) (by decide)) (by decide)

end Runs
end ProcessTable
end Mikos.Process
