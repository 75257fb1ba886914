import Mikos.Library.RoundRobin
import Mikos.Process.Parking

/-!
# Processes take turns

The table offers the processor to its processes in the order of their slots.
-/

namespace Mikos.Process.ProcessTable
open Library List
variable {capacity : Nat} [NeZero capacity] (table : ProcessTable capacity)

/-- The slots behind a slot, once around the table. -/
def slotsAfter (slot : Fin capacity) : List (Fin capacity) :=
  (range capacity).map fun offset => Fin.ofNat capacity (slot.val + (offset + 1))

def runs (slot : Fin capacity) : Bool := runnable (table.records slot).state

/-- The numbers of the processes that can run. -/
def runnablePids : List UInt32 :=
  ((finRange capacity).filter table.runs).map fun slot => (table.records slot).pid

/-- Where the search begins. -/
def slotOf (pid : UInt32) : Fin capacity :=
  ((finRange capacity).find? fun slot =>
    (table.records slot).pid = pid ∧ (table.records slot).state ≠ .free).getD 0

variable {table}

theorem slotsAfter_eq (slot : Fin capacity) :
    slotsAfter slot = (finRange capacity).rotate (slot.val + 1) := by
  refine ext_getElem (by simp [slotsAfter]) fun offset _ _ => Fin.ext ?_
  rw [getElem_rotate]
  simp [slotsAfter, Nat.add_left_comm]

/-- The slots behind the next slot are those behind this one, moved on. -/
theorem slotsAfter_rotates {slot next : Fin capacity} {before rest : List (Fin capacity)}
    (listed : slotsAfter slot = before ++ next :: rest) :
    slotsAfter next = rest ++ (before ++ [next]) := by
  have found := congrArg (·[before.length]?) listed
  simp only [slotsAfter, getElem?_map, getElem?_append_right, Nat.le_refl, Nat.sub_self,
    getElem?_cons_zero, Option.map_eq_some_iff] at found
  obtain ⟨offset, place, rfl⟩ := found
  obtain ⟨inside, rfl⟩ := List.getElem?_eq_some_iff.mp place
  rw [getElem_range] at listed ⊢
  have turned : slotsAfter (Fin.ofNat capacity (slot.val + (before.length + 1))) =
      (slotsAfter slot).rotate (before.length + 1) := by
    rw [slotsAfter_eq, slotsAfter_eq, rotate_rotate, ← rotate_mod _ (slot.val + 1 + _),
      ← rotate_mod, length_finRange, Fin.val_ofNat, Nat.mod_add_mod]
    congr 2
    omega
  rw [turned, listed, append_cons]
  exact (congrArg _ length_append.symm).trans (rotate_append_length_eq _ _)

omit [NeZero capacity] in
theorem live_of_runs (runs : table.runs slot = true) : (table.records slot).Live := by
  intro free
  rw [ProcessTable.runs, free] at runs
  cases runs

theorem Unique.slotOf_pid (unique : table.Unique) (runs : table.runs slot = true) :
    table.slotOf (table.records slot).pid = slot := by
  have live := live_of_runs runs
  rw [slotOf]
  cases found : (finRange capacity).find? _ with
  | none =>
    have missing := find?_eq_none.mp found slot (mem_finRange slot)
    exact absurd (by simpa using missing) live
  | some other =>
    have named := find?_some found
    simp only [decide_eq_true_eq] at named
    exact unique other slot named.2 live named.1

theorem nextRunnable_nextWanted (ready : table.runs slot = true) (pid : UInt32) :
    table.nextRunnable pid =
        (table.records (nextWanted slotsAfter table.runs (table.slotOf pid))).pid ∧
      table.runs (nextWanted slotsAfter table.runs (table.slotOf pid)) = true := by
  rw [nextRunnable, nextWanted]
  split
  next index found =>
    have found : (slotsAfter (table.slotOf pid)).find? table.runs = some index := found
    rw [found]
    exact ⟨rfl, find?_some found⟩
  next missing =>
    have idle : (slotsAfter (table.slotOf pid)).find? table.runs = none := missing
    exact absurd ready (find?_eq_none.mp idle slot (by rw [slotsAfter_eq]; simp))

theorem iterate_nextRunnable (unique : table.Unique) (ready : table.runs slot = true) (pid : UInt32)
    (turn : Nat) :
    table.nextRunnable^[turn + 1] pid =
        (table.records ((nextWanted slotsAfter table.runs)^[turn + 1] (table.slotOf pid))).pid ∧
      table.runs ((nextWanted slotsAfter table.runs)^[turn + 1] (table.slotOf pid)) = true := by
  induction turn with
  | zero => exact nextRunnable_nextWanted ready pid
  | succ turn ih =>
    obtain ⟨same, runs⟩ := ih
    rw [Function.iterate_succ_apply', Function.iterate_succ_apply' _ (turn + 1), same]
    have next := nextRunnable_nextWanted ready
      (table.records ((nextWanted slotsAfter table.runs)^[turn + 1] (table.slotOf pid))).pid
    rwa [unique.slotOf_pid runs] at next

/-- Each round of turns has every process that can run once. -/
theorem nextRunnable_fair (reached : Reached allowed first history table) (start : UInt32) :
    table.runnablePids.Nodup ∧
      (table.runnablePids = [] → table.nextRunnable start = invalidPid) ∧
      ∀ turn, ((range table.runnablePids.length).map fun step =>
        table.nextRunnable^[turn + step + 1] start).Perm table.runnablePids := by
  have unique := reached.sound.unique
  refine ⟨?_, fun idle => ?_, fun turn => ?_⟩
  · refine Nodup.map_on (fun left isLeft right isRight same => ?_) ((nodup_finRange _).filter _)
    exact unique left right (live_of_runs (mem_filter.mp isLeft).2)
      (live_of_runs (mem_filter.mp isRight).2) same
  · rcases table.nextRunnable_cases start with none | ⟨slot, runs, -⟩
    · exact none
    · have mem : slot ∈ (finRange capacity).filter table.runs := by simp [ProcessTable.runs, runs]
      rw [map_eq_nil_iff.mp idle] at mem
      cases mem
  · cases listed : (finRange capacity).filter table.runs with
    | nil => simp [runnablePids, listed]
    | cons slot rest =>
      have runs : table.runs slot = true := (mem_filter.mp (listed ▸ mem_cons_self)).2
      let pid := table.nextRunnable^[turn] start
      have round := @iterate_nextWanted _ slotsAfter table.runs (table.slotOf pid) []
        (slotsAfter (table.slotOf pid)) [] slotsAfter_rotates (by simp) (by simp)
      have all : ((slotsAfter (table.slotOf pid)).filter table.runs).Perm
          ((finRange capacity).filter table.runs) := by
        rw [slotsAfter_eq]
        exact (rotate_perm ..).filter _
      have turns : ((range table.runnablePids.length).map fun step =>
          table.nextRunnable^[turn + step + 1] start) =
          ((slotsAfter (table.slotOf pid)).filter table.runs).map fun slot =>
            (table.records slot).pid := by
        rw [← round, map_map, all.length_eq, runnablePids, length_map]
        refine map_congr_left fun step _ => ?_
        rw [Nat.add_assoc, Nat.add_comm, Function.iterate_add_apply]
        exact (iterate_nextRunnable unique runs pid step).1
      rw [turns]
      exact all.map _

/-- Of four processes one has ended and left its slot; the turns begin behind no process. -/
theorem nextRunnable_fair_absent :
    let run := (lone 4).follow [.fork 1 false, .fork 1 false, .fork 1 false, .exit 3 0,
      .wait 1 {} false]
    run.2.runnablePids = [1, 2, 4] ∧ (run.2.records 2).state = .free ∧
      ∀ turn, [run.2.nextRunnable^[turn + 1] 7, run.2.nextRunnable^[turn + 2] 7,
        run.2.nextRunnable^[turn + 3] 7].Perm [1, 2, 4] := by
  intro run
  have reached : Reached (fun _ _ _ => True) 1 run.1 run.2 := reached_follow rfl _
  have listed : run.2.runnablePids = [1, 2, 4] := by decide
  have fair := (nextRunnable_fair reached 7).2.2
  rw [listed] at fair
  exact ⟨listed, by decide, fair⟩

end Mikos.Process.ProcessTable
