import Mikos.Process.TableRuns

/-!
# Collecting processes

Along every run of calls on the process table no number is given to two processes, and every
process that ends is collected at most once, by the process that is its parent then.
-/

namespace Mikos.Process
open List
namespace ProcessTable
variable {capacity : Nat} {table after : ProcessTable capacity} {first pid parentPid : UInt32}
  {i j parent child : Fin capacity} {history : History}

/-! ## What a history tells -/

/-- One process started the other. -/
def Forked (history : History) (parentPid pid : UInt32) : Prop :=
  ∃ vfork, (.fork parentPid vfork, .fork ⟨.success, pid, 0, pid⟩) ∈ history

/-- The process ended with the status. -/
def Exited (history : History) (pid status : UInt32) : Prop :=
  (.exit pid status, .status .success) ∈ history

/-- The number that a call gave to a new process. -/
def birth : ProcessCall × ProcessAnswer → Option UInt32
  | (_, .fork result) => if result.status = .success then some result.child else none
  | _ => none

/-- The number of the process that a call collected. -/
def reaped : ProcessCall × ProcessAnswer → Option UInt32
  | (_, .wait result) =>
    if result.status = .success ∧ result.pid ≠ 0 then some result.pid else none
  | _ => none

/-- One process is the parent of the other: it started it and has not ended, or it is the
first process and inherited it from one that ended. -/
def Parents (history : History) (parentPid pid : UInt32) : Prop :=
  Forked history parentPid pid ∧ (∀ status, ¬ Exited history parentPid status) ∨
    parentPid = 1 ∧ ∃ former status, Forked history former pid ∧ Exited history former status

/-- The table tells what the history does of the processes in it. -/
structure Chronicle (first : UInt32) (history : History) (table : ProcessTable capacity) :
    Prop where
  issued : ∀ pid ∈ first :: history.filterMap birth, table.Issued pid
  distinct : (first :: history.filterMap birth).Nodup
  listed : ∀ index, (table.records index).Live →
    (table.records index).pid ∈ first :: history.filterMap birth
  ended : ∀ index, (table.records index).state = .zombie →
    Exited history (table.records index).pid (table.records index).exitStatus
  exits : ∀ pid status, Exited history pid status → table.Issued pid ∧
    ∀ index, table.Names pid index →
      (table.records index).state = .zombie ∧ (table.records index).exitStatus = status
  once : ∀ pid left right, Exited history pid left → Exited history pid right → left = right
  gone : ∀ pid ∈ history.filterMap reaped, table.Issued pid ∧ ∀ index, ¬ table.Names pid index
  reaps : (history.filterMap reaped).Nodup
  parents : ∀ index, (table.records index).Live → (table.records index).parent ≠ 0 →
    Parents history (table.records index).parent (table.records index).pid

theorem exited_cons : Exited (event :: history) pid status ↔
      event = (.exit pid status, .status .success) ∨ Exited history pid status := by
  rw [Exited, mem_cons, eq_comm]
  exact Iff.rfl

theorem Forked.cons (forked : Forked history parentPid pid) (event : ProcessCall × ProcessAnswer) :
    Forked (event :: history) parentPid pid := by
  obtain ⟨vfork, mem⟩ := forked
  exact ⟨vfork, mem_cons_of_mem _ mem⟩

theorem Parents.cons (parents : Parents history parentPid pid) {event : ProcessCall × ProcessAnswer}
    (quiet : ∀ status, event ≠ (.exit parentPid status, .status .success)) :
    Parents (event :: history) parentPid pid := by
  rcases parents with ⟨forked, running⟩ | ⟨first, former, status, forked, exited⟩
  · refine .inl ⟨forked.cons event, fun status exited => ?_⟩
    rcases exited_cons.mp exited with now | before
    · exact quiet status now
    · exact running status before
  · exact .inr ⟨first, former, status, forked.cons event, exited_cons.mpr (.inr exited)⟩

section
variable (chronicle : Chronicle first history table)
include chronicle

/-- What the history tells of numbers, after a call that starts and collects nothing. -/
theorem Chronicle.numbers {event : ProcessCall × ProcessAnswer} (born : birth event = none)
    (collected : reaped event = none) (keeps : Keeps table after) :
    (∀ pid ∈ first :: (event :: history).filterMap birth, after.Issued pid) ∧
      (first :: (event :: history).filterMap birth).Nodup ∧
      (∀ i, (after.records i).Live →
        (after.records i).pid ∈ first :: (event :: history).filterMap birth) ∧
      (∀ pid ∈ (event :: history).filterMap reaped, after.Issued pid ∧ ∀ i, ¬ after.Names pid i) ∧
      ((event :: history).filterMap reaped).Nodup := by
  rw [filterMap_cons_none born, filterMap_cons_none collected]
  refine ⟨?_, chronicle.distinct, ?_, ?_, chronicle.reaps⟩
  · exact fun pid mem => keeps.issued.mpr (chronicle.issued pid mem)
  · intro i alive
    rw [keeps.pid i]
    exact chronicle.listed i ((keeps.live i).mp alive)
  · intro pid mem
    obtain ⟨issued, absent⟩ := chronicle.gone pid mem
    exact ⟨keeps.issued.mpr issued, fun i named => absent i (keeps.names.mp named)⟩

theorem Chronicle.quiet (born : birth event = none) (collected : reaped event = none)
    (quiet : ∀ pid status, event ≠ (.exit pid status, .status .success)) (keeps : Keeps table after)
    (same : ∀ i, (after.records i).exitStatus = (table.records i).exitStatus ∧
      (after.records i).parent = (table.records i).parent)
    (zombie : ∀ i, (after.records i).state = .zombie ↔ (table.records i).state = .zombie) :
    Chronicle first (event :: history) after := by
  have exits : ∀ pid status, Exited (event :: history) pid status ↔ Exited history pid status := by
    intro pid status
    rw [exited_cons]
    exact or_iff_right (quiet pid status)
  obtain ⟨issued, distinct, listed, gone, reaps⟩ := chronicle.numbers born collected keeps
  refine ⟨issued, distinct, listed, ?_, ?_, ?_, gone, reaps, ?_⟩
  · intro i ended
    rw [exits, keeps.pid i, (same i).1]
    exact chronicle.ended i ((zombie i).mp ended)
  · intro pid status exited
    obtain ⟨issued, states⟩ := chronicle.exits pid status ((exits pid status).mp exited)
    refine ⟨keeps.issued.mpr issued, fun i named => ?_⟩
    rw [zombie i, (same i).1]
    exact states i (keeps.names.mp named)
  · intro pid left right exitedLeft exitedRight
    exact chronicle.once pid left right ((exits _ _).mp exitedLeft) ((exits _ _).mp exitedRight)
  · intro i alive parented
    rw [(same i).2] at parented ⊢
    rw [keeps.pid i]
    exact (chronicle.parents i ((keeps.live i).mp alive) parented).cons (quiet _)

theorem Chronicle.not_exited (acting : table.Acts pid i) (status : UInt32) :
    ¬ Exited history pid status := by
  intro exited
  exact acting.1.2 ((chronicle.exits pid status exited).2 i acting.names).1

end

theorem mem_births_cons (event : ProcessCall × ProcessAnswer)
    (mem : pid ∈ first :: history.filterMap birth) :
    pid ∈ first :: (event :: history).filterMap birth := by
  rcases mem_cons.mp mem with rfl | mem
  · exact mem_cons_self
  · refine mem_cons_of_mem _ ?_
    obtain ⟨earlier, earlierMember, born⟩ := mem_filterMap.mp mem
    exact mem_filterMap.mpr ⟨earlier, mem_cons_of_mem _ earlierMember, born⟩

section
variable (chronicle : Chronicle first history table)
include chronicle

theorem Chronicle.forked {vfork : Bool} (forks : Forks table after parentPid vfork parent child) :
    Chronicle first ((.fork parentPid vfork,
      .fork ⟨.success, table.nextPid, 0, table.nextPid⟩) :: history) after := by
  have births : ((.fork parentPid vfork, .fork ⟨.success, table.nextPid, 0, table.nextPid⟩) ::
      history).filterMap birth = table.nextPid :: history.filterMap birth :=
    filterMap_cons_some rfl
  have exits : ∀ {pid status}, Exited ((.fork parentPid vfork,
      .fork ⟨.success, table.nextPid, 0, table.nextPid⟩) :: history) pid status →
      Exited history pid status := by
    intro pid status exited
    rcases exited_cons.mp exited with now | before
    · simp at now
    · exact before
  have issued : ∀ {pid}, table.Issued pid → after.Issued pid := fun issued =>
    issued.next forks.valid forks.next
  constructor
  case issued =>
    rw [births]
    intro pid mem
    rcases mem_cons.mp mem with rfl | mem
    · exact issued (chronicle.issued _ mem_cons_self)
    · rcases mem_cons.mp mem with rfl | mem
      · exact issued_of_le forks.next (UInt32.le_refl _)
      · exact issued (chronicle.issued pid (mem_cons_of_mem _ mem))
  case distinct =>
    rw [births]
    have distinct := nodup_cons.mp chronicle.distinct
    have fresh : ∀ pid ∈ first :: history.filterMap birth, pid ≠ table.nextPid := by
      rintro pid mem rfl
      exact not_issued_nextPid forks.valid (chronicle.issued _ mem)
    refine nodup_cons.mpr ⟨?_, nodup_cons.mpr ⟨?_, distinct.2⟩⟩
    · intro mem
      rcases mem_cons.mp mem with same | mem
      · exact fresh first mem_cons_self same
      · exact distinct.1 mem
    · intro mem
      exact fresh _ (mem_cons_of_mem _ mem) rfl
  case listed =>
    intro i alive
    by_cases equal : i = child
    · rw [equal, forks.born, births]
      exact mem_cons_of_mem _ mem_cons_self
    · have before := chronicle.listed i (forks.live equal alive)
      rw [forks.others i equal]
      exact mem_births_cons _ before
  case ended =>
    intro i zombie
    obtain ⟨apart, before⟩ := forks.kept zombie (by decide) (by decide)
    rw [forks.others i apart]
    exact exited_cons.mpr (.inr (chronicle.ended i before))
  case exits =>
    intro pid status exited
    obtain ⟨given, states⟩ := chronicle.exits pid status (exits exited)
    refine ⟨issued given, fun i named => ?_⟩
    obtain ⟨apart, named⟩ := forks.names given named
    obtain ⟨zombie, kept⟩ := states i named
    rw [forks.others i apart]
    refine ⟨?_, kept⟩
    rw [if_neg, zombie]
    rintro ⟨-, rfl⟩
    exact forks.acting.1.2 zombie
  case once =>
    intro pid left right exitedLeft exitedRight
    exact chronicle.once pid left right (exits exitedLeft) (exits exitedRight)
  case gone =>
    rw [filterMap_cons_none rfl]
    intro pid mem
    obtain ⟨given, absent⟩ := chronicle.gone pid mem
    exact ⟨issued given, fun i named => absent i (forks.names given named).2⟩
  case reaps =>
    rw [filterMap_cons_none rfl]
    exact chronicle.reaps
  case parents =>
    intro i alive parented
    by_cases equal : i = child
    · rw [equal, forks.born]
      refine .inl ⟨⟨vfork, mem_cons_self⟩, fun status exited => ?_⟩
      exact chronicle.not_exited forks.acting status (exits exited)
    · have before := forks.live equal alive
      rw [forks.others i equal] at parented ⊢
      exact (chronicle.parents i before parented).cons (by simp)

theorem Chronicle.exited {status : UInt32} (sound : table.Sound)
    (ends : Ends table after pid status i) :
    Chronicle first ((.exit pid status, .status .success) :: history) after := by
  have acting := ends.acting
  have keeps := ends.keeps
  have exits : ∀ {other value}, Exited ((.exit pid status, .status .success) :: history) other
      value ↔ other = pid ∧ value = status ∨ Exited history other value := by
    intro other value
    rw [exited_cons]
    simp only [Prod.mk.injEq, ProcessCall.exit.injEq, and_true, @eq_comm _ pid, @eq_comm _ status]
  obtain ⟨issued, distinct, listed, gone, reaps⟩ :=
    @Chronicle.numbers _ _ _ _ _ chronicle (.exit pid status, .status .success) rfl rfl keeps
  refine ⟨issued, distinct, listed, ?_, ?_, ?_, gone, reaps, ?_⟩
  · intro other zombie
    by_cases equal : other = i
    · rw [equal, ends.ended]
      exact exits.mpr (.inl ⟨acting.2, rfl⟩)
    · rw [ends.others other equal] at zombie ⊢
      exact exits.mpr (.inr (chronicle.ended other (eq_of_ite (by decide) zombie)))
  · intro number value exited
    rcases exits.mp exited with ⟨rfl, rfl⟩ | before
    · refine ⟨?_, fun other named => ?_⟩
      · have mem := chronicle.listed i acting.1.live
        rw [acting.2] at mem
        exact keeps.issued.mpr (chronicle.issued _ mem)
      · have equal := sound.unique.eq (keeps.names.mp named) acting.names
        rw [equal, ends.ended]
        exact ⟨rfl, rfl⟩
    obtain ⟨given, states⟩ := chronicle.exits number value before
    refine ⟨keeps.issued.mpr given, fun other named => ?_⟩
    obtain ⟨zombie, kept⟩ := states other (keeps.names.mp named)
    have apart : other ≠ i := by
      rintro rfl
      exact acting.1.2 zombie
    rw [ends.others other apart]
    refine ⟨?_, kept⟩
    rw [if_neg, zombie]
    exact fun woken => (occupied_of_woken woken).2 zombie
  · intro number left right exitedLeft exitedRight
    rcases exits.mp exitedLeft with ⟨rfl, rfl⟩ | beforeLeft
    · rcases exits.mp exitedRight with ⟨-, rfl⟩ | beforeRight
      · rfl
      · exact absurd beforeRight (chronicle.not_exited acting right)
    · rcases exits.mp exitedRight with ⟨rfl, rfl⟩ | beforeRight
      · exact absurd beforeLeft (chronicle.not_exited acting left)
      · exact chronicle.once number left right beforeLeft beforeRight
  intro other alive parented
  have before := (keeps.live other).mp alive
  rw [keeps.pid other]
  rw [ends.parent_eq before] at parented ⊢
  split at parented
  next orphaned =>
    rw [if_pos orphaned]
    rcases table.adopter_cases pid with one | zero
    · rw [one]
      have known : pid ≠ 0 := sound.acting_ne_zero acting
      have family := chronicle.parents other before (orphaned.trans_ne known)
      rw [orphaned] at family
      rcases family with ⟨forked, -⟩ | ⟨-, former, value, forked, exited⟩
      · exact .inr ⟨rfl, pid, status, forked.cons _, exits.mpr (.inl ⟨rfl, rfl⟩)⟩
      · exact .inr ⟨rfl, former, value, forked.cons _, exits.mpr (.inr exited)⟩
    · exact absurd zero parented
  rename_i kept
  rw [if_neg kept]
  refine (chronicle.parents other before parented).cons ?_
  intro value event
  simp only [Prod.mk.injEq, ProcessCall.exit.injEq] at event
  exact kept event.1.1.symm

theorem Chronicle.collected (sound : table.Sound) {selector : WaitSelector} {noHang : Bool}
    (zombie : (table.records child).state = .zombie) (collects : Collects table after child) :
    Chronicle first ((.wait parentPid selector noHang,
      .wait ⟨.success, (table.records child).pid, (table.records child).exitStatus⟩) :: history)
      after := by
  have live := ProcessRecord.live_of_zombie zombie
  have valid := ((sound.records child).named live).1
  have reaps : ((.wait parentPid selector noHang, .wait ⟨.success, (table.records child).pid,
      (table.records child).exitStatus⟩) :: history).filterMap reaped =
      (table.records child).pid :: history.filterMap reaped := by
    refine filterMap_cons_some ?_
    simp [reaped, valid]
  have exits : ∀ {pid status}, Exited ((.wait parentPid selector noHang,
      .wait ⟨.success, (table.records child).pid, (table.records child).exitStatus⟩) :: history)
      pid status ↔ Exited history pid status := by
    intro pid status
    rw [exited_cons]
    simp
  constructor
  case issued =>
    rw [filterMap_cons_none rfl]
    exact fun pid mem => (chronicle.issued pid mem).congr collects.next
  case distinct =>
    rw [filterMap_cons_none rfl]
    exact chronicle.distinct
  case listed =>
    intro i alive
    have apart := collects.apart alive
    rw [collects.others i apart] at alive ⊢
    rw [filterMap_cons_none rfl]
    exact chronicle.listed i alive
  case ended =>
    intro i ended
    have apart := collects.apart (ProcessRecord.live_of_zombie ended)
    rw [collects.others i apart] at ended ⊢
    exact exits.mpr (chronicle.ended i ended)
  case exits =>
    intro pid status exited
    obtain ⟨issued, states⟩ := chronicle.exits pid status (exits.mp exited)
    refine ⟨issued.congr collects.next, fun i named => ?_⟩
    obtain ⟨apart, named⟩ := collects.names named
    rw [collects.others i apart]
    exact states i named
  case once =>
    intro pid left right exitedLeft exitedRight
    exact chronicle.once pid left right (exits.mp exitedLeft) (exits.mp exitedRight)
  case gone =>
    rw [reaps]
    intro pid mem
    rcases mem_cons.mp mem with rfl | mem
    · refine ⟨((sound.records child).issued live).1.congr collects.next, fun i named => ?_⟩
      obtain ⟨apart, named⟩ := collects.names named
      exact apart (sound.unique.eq named ⟨live, rfl⟩)
    · obtain ⟨issued, absent⟩ := chronicle.gone pid mem
      exact ⟨issued.congr collects.next, fun i named => absent i (collects.names named).2⟩
  case reaps =>
    rw [reaps]
    refine nodup_cons.mpr ⟨fun mem => ?_, chronicle.reaps⟩
    exact (chronicle.gone _ mem).2 child ⟨live, rfl⟩
  case parents =>
    intro i alive parented
    have apart := collects.apart alive
    rw [collects.others i apart] at alive parented ⊢
    exact (chronicle.parents i alive parented).cons (by simp)

/-- Every call keeps the records in line with the history. -/
theorem Chronicle.effect (sound : table.Sound) (effect : Effect table call answer after) :
    Chronicle first ((call, answer) :: history) after := by
  -- a call that changed nothing
  have idle {event : ProcessCall × ProcessAnswer} (born : birth event = none)
      (collected : reaped event = none)
      (quiet : ∀ pid status, event ≠ (.exit pid status, .status .success)) :
      Chronicle first (event :: history) table :=
    chronicle.quiet born collected quiet .refl (fun _ => ⟨rfl, rfl⟩) fun _ => Iff.rfl
  -- a call that put one process in another state
  have set {event : ProcessCall × ProcessAnswer} {i : Fin capacity} {state : ProcessState}
      (sets : Sets table after i state) (born : birth event = none)
      (collected : reaped event = none)
      (quiet : ∀ pid status, event ≠ (.exit pid status, .status .success)) :
      Chronicle first (event :: history) after := by
    refine chronicle.quiet born collected quiet sets.keeps ?_ ?_ <;> intro j <;>
      rw [sets.changed j]
    · exact ⟨rfl, rfl⟩
    · by_cases equal : j = i
      · simp [equal, sets.running, sets.alive.2]
      · simp [equal]
  -- a call that moved one process
  have moved {event : ProcessCall × ProcessAnswer} {i : Fin capacity} {group session : UInt32}
      (joins : Joins table after i group session) (born : birth event = none)
      (collected : reaped event = none)
      (quiet : ∀ pid status, event ≠ (.exit pid status, .status .success)) :
      Chronicle first (event :: history) after := by
    refine chronicle.quiet born collected quiet joins.keeps ?_ ?_ <;> intro j <;>
      simp [joins.changed j]
  cases effect with
  | notForked failed => exact idle (by simp [birth, failed]) rfl (by simp)
  | forked forks => exact chronicle.forked forks
  | executed executes =>
    refine chronicle.quiet rfl rfl (by simp) executes.keeps ?_ ?_ <;> intro j <;>
      rw [executes.changed j]
    · exact ⟨rfl, rfl⟩
    · refine ⟨eq_of_ite (by decide), fun zombie => ?_⟩
      rw [if_neg fun freed => freed.occupied.2 zombie, zombie]
  | exited ends => exact chronicle.exited sound ends
  | notWaited failed => exact idle rfl (by simp [reaped]) (by simp)
  | blocked acting unmet sets => exact set sets rfl (by simp [reaped]) (by simp)
  | collected acting met collects => exact chronicle.collected sound met.1 collects
  | regrouped _ joins | detached _ _ joins => exact moved joins rfl rfl (by simp)
  | stopped sets | resumed _ _ sets => exact set sets rfl rfl (by simp)
  | _ => exact idle rfl rfl (by simp)

end

section Runs
variable [NeZero capacity] {allowed : History → ProcessTable capacity → ProcessCall → Prop}

theorem Chronicle.start (started : initializeTable {} first = (.success, table)) :
    Chronicle first [] table := by
  obtain ⟨valid, next, filled, -⟩ := initializeTable_records started
  have only : ∀ i, (table.records i).Live → i = 0 := fun _ => eq_zero_of_live started
  constructor
  case issued =>
    intro pid mem
    rw [mem_singleton.mp mem]
    exact issued_of_le next (UInt32.le_refl _)
  case distinct => simp
  case listed =>
    intro i live
    rw [only i live, filled]
    simp
  case ended =>
    intro i zombie
    rw [only i (ProcessRecord.live_of_zombie zombie), filled] at zombie
    cases zombie
  case exits => intro pid status exited; cases exited
  case once => intro pid left right exited; cases exited
  case gone => simp
  case reaps => simp
  case parents =>
    intro i live parented
    rw [only i live, filled] at parented
    exact absurd rfl parented

theorem Reached.chronicle (reached : Reached allowed first history table) :
    Chronicle first history table := by
  induction reached with
  | start started => exact .start started
  | call reached call _ ih =>
    exact ih.effect reached.sound (reached.sound.unique.perform_effect call)

/-- What a wait of the given process answers and does. -/
structure WaitSound (history : History) (table : ProcessTable capacity) (parentPid : UInt32)
    (result : WaitResult) (after : ProcessTable capacity) : Prop where
  collected : result.status = .success → result.pid ≠ 0 →
    result.pid ∉ history.filterMap reaped ∧ Parents history parentPid result.pid ∧
      Exited history result.pid result.statusWord ∧
      ∀ status, Exited history result.pid status → status = result.statusWord
  empty : result.status = .noChild ∨ result.status = .success ∧ result.pid = 0 → after = table

/-- Along every run, processes in the table have numbers of their own, which no two processes
get; the table passes its own check; a zombie has no memory; no process is collected twice,
and one that is collected has ended with the status returned, and is a child of the caller;
and a wait that finds nothing changes nothing. -/
theorem processes_collected_once (reached : Reached allowed first history table) :
    table.Unique ∧ (first :: history.filterMap birth).Nodup ∧
      (∀ index, (table.records index).Live →
        (table.records index).pid ∈ first :: history.filterMap birth) ∧
      table.invariant = true ∧
      (∀ index, (table.records index).state = .zombie →
        (table.records index).addressSpace = false) ∧
      (history.filterMap reaped).Nodup ∧
      ∀ parentPid selector noHang,
        WaitSound history table parentPid (table.wait parentPid selector noHang).1
          (table.wait parentPid selector noHang).2 := by
  have sound := reached.sound
  have chronicle := reached.chronicle
  refine ⟨sound.unique, chronicle.distinct, chronicle.listed, sound.invariant,
    fun index => (sound.records index).emptied,
    chronicle.reaps, fun parentPid selector noHang => ?_⟩
  have effect : Effect table (.wait parentPid selector noHang) _ _ :=
    wait_effect parentPid selector noHang
  generalize (table.wait parentPid selector noHang).1 = result at effect
  generalize (table.wait parentPid selector noHang).2 = after at effect
  cases effect with
  | notWaited failed => exact ⟨fun _ known => absurd rfl known, fun _ => rfl⟩
  | blocked acting unmet sets => exact ⟨by simp, by simp⟩
  | @collected _ parent _ child _ _ acting met collects =>
    have live := ProcessRecord.live_of_zombie met.1
    have valid := ((sound.records child).named live).1
    refine ⟨fun _ _ => ⟨fun member => ?_, ?_, ?_, ?_⟩, fun nothing => ?_⟩
    · exact (chronicle.gone _ member).2 child ⟨live, rfl⟩
    · have own : (table.records child).parent = parentPid := met.2.1.trans acting.2
      have known : parentPid ≠ 0 := sound.acting_ne_zero acting
      rw [← own]
      exact chronicle.parents child live (own.trans_ne known)
    · exact chronicle.ended child met.1
    · exact fun status exited => chronicle.once _ _ _ exited (chronicle.ended child met.1)
    · rcases nothing with status | ⟨-, zero⟩
      · cases status
      · exact absurd zero valid

/-- The first process starts another, which ends and is then collected. -/
theorem child_collected_once :
    let born := (lone 2).perform (.fork 1 false)
    let ended := born.2.perform (.exit 2 7)
    (ended.2.wait 1 {} false).1 = ⟨.success, 2, 7⟩ ∧
      Parents [(.exit 2 7, ended.1), (.fork 1 false, born.1)] 1 2 := by
  have reached : Reached (fun _ _ _ => True) 1 _ (((lone 2).perform (.fork 1 false)).2.perform
      (.exit 2 7)).2 := .call (.call (.start rfl) (.fork 1 false) trivial) (.exit 2 7) trivial
  have collected : ((((lone 2).perform (.fork 1 false)).2.perform (.exit 2 7)).2.wait 1 {} false).1 =
      ⟨.success, 2, 7⟩ := by decide
  have sound := ((processes_collected_once reached).2.2.2.2.2.2 1 {} false).collected
  rw [collected] at sound
  exact ⟨collected, (sound rfl (by decide)).2.1⟩

/-- The processes of every run are a forest: no chain of parents comes back. -/
theorem ancestry_wellFounded (reached : Reached allowed first history table) :
    WellFounded fun parent child => (table.records child).Live ∧
      (table.records child).parent = (table.records parent).pid := by
  refine Subrelation.wf (fun {_ _} ⟨live, parent⟩ => ?_)
    (measure fun index => (table.records index).pid.toNat).wf
  have elder := (reached.sound.records _).elder live
  rwa [parent] at elder

/-- A process in a line of four has ended; the first one is the new parent of its child. -/
theorem ancestry_wellFounded_orphan :
    let run := (lone 4).follow [.fork 1 false, .fork 2 false, .fork 3 false, .exit 2 0]
    (run.2.records 2).parent = 1 ∧ (run.2.records 3).parent = 3 ∧
      WellFounded fun parent child => (run.2.records child).Live ∧
        (run.2.records child).parent = (run.2.records parent).pid :=
  have reached : Reached (fun _ _ _ => True) 1 _ _ := reached_follow rfl _
  ⟨by decide, by decide, ancestry_wellFounded reached⟩

end Runs
end ProcessTable
end Mikos.Process
