import Mathlib.Data.Fintype.Basic
import Mathlib.Data.List.FinRange
import Mikos.Process.Basic

/-!
# The process table

Records of processes in a table of a fixed capacity, with the calls that create a process,
end it, collect it and move it between groups and sessions.
-/

namespace Mikos.Process

def invalidPid : UInt32 := 0

inductive ProcessState where
  | free | runnable | running | waiting | vforkWait | stopped | zombie
  deriving DecidableEq, Repr

inductive ProcessStatus where
  | success | noProcess | noChild | wouldBlock | noSpace | invalidArgument | permissionDenied
  deriving DecidableEq, Repr

inductive WaitKind where
  | any | pid | processGroup
  deriving DecidableEq, Repr

structure WaitSelector where
  kind : WaitKind := .any
  value : UInt32 := 0
  deriving DecidableEq, Repr

structure ProcessRecord where
  state : ProcessState := .free
  pid : UInt32 := 0
  parent : UInt32 := 0
  processGroup : UInt32 := 0
  session : UInt32 := 0
  exitStatus : UInt32 := 0
  vforkParent : UInt32 := 0
  executed : Bool := false
  addressSpace : Bool := false
  signals : SignalState := {}

structure ForkResult where
  status : ProcessStatus := .noSpace
  parentResult : UInt32 := 0
  childResult : UInt32 := 0
  child : UInt32 := 0
  deriving DecidableEq, Repr

structure WaitResult where
  status : ProcessStatus := .noChild
  pid : UInt32 := 0
  statusWord : UInt32 := 0
  deriving DecidableEq, Repr

structure ProcessTable (capacity : Nat) where
  records : Fin capacity → ProcessRecord := fun _ => {}
  nextPid : UInt32 := 1

inductive ProcessCall where
  | fork (parentPid : UInt32) (vfork : Bool)
  | markExec (pid : UInt32)
  | exit (pid status : UInt32)
  | wait (parentPid : UInt32) (selector : WaitSelector) (noHang : Bool)
  | setProcessGroup (callerPid targetPid group : UInt32)
  | createSession (pid : UInt32)
  | stop (pid : UInt32)
  | resume (pid : UInt32)
  deriving DecidableEq, Repr

inductive ProcessAnswer where
  | status (value : ProcessStatus)
  | fork (result : ForkResult)
  | wait (result : WaitResult)
  deriving DecidableEq, Repr

namespace ProcessRecord

/-- Something is in the record: a process, or one that ended and was not collected. -/
def Live (record : ProcessRecord) : Prop := record.state ≠ .free
deriving Decidable

def Alive (record : ProcessRecord) : Prop := record.state ≠ .free ∧ record.state ≠ .zombie
deriving Decidable

theorem Alive.live {record : ProcessRecord} (alive : record.Alive) : record.Live := alive.1

theorem live_of_zombie {record : ProcessRecord} (zombie : record.state = .zombie) :
    record.Live := by
  simp [Live, zombie]

end ProcessRecord

namespace ProcessTable
variable {capacity : Nat}

/-! ## Looking for records -/

variable (table : ProcessTable capacity)

def find (pid : UInt32) : Option (Fin capacity) :=
  (List.finRange capacity).find? fun index =>
    (table.records index).state ≠ .free ∧ (table.records index).pid = pid

def freeSlot : Option (Fin capacity) :=
  (List.finRange capacity).find? fun index => (table.records index).state = .free

def used : Nat :=
  (List.finRange capacity).countP fun index => (table.records index).state ≠ .free

/-- A live process is to be offered to the processor. -/
def runnable (state : ProcessState) : Bool := state = .runnable || state = .running

def matchesSelector (parent child : ProcessRecord) (selector : WaitSelector) : Bool :=
  match selector.kind with
  | .any => true
  | .pid => child.pid = selector.value
  | .processGroup =>
    child.processGroup = if selector.value = 0 then parent.processGroup else selector.value

/-! ## Changing records -/

def modify (index : Fin capacity) (change : ProcessRecord → ProcessRecord) :
    ProcessTable capacity :=
  { table with records := Function.update table.records index (change (table.records index)) }

def setState (index : Fin capacity) (state : ProcessState) : ProcessTable capacity :=
  table.modify index fun record => { record with state }

/-- Make a process runnable if it is parked in the given state. -/
def wake (pid : UInt32) (parked : ProcessState) : ProcessTable capacity :=
  match table.find pid with
  | none => table
  | some index =>
    if (table.records index).state = parked then table.setState index .runnable else table

def wakeVforkParent (child : Fin capacity) : ProcessTable capacity :=
  if (table.records child).vforkParent = 0 then table
  else
    (table.wake (table.records child).vforkParent .vforkWait).modify child fun record =>
      { record with vforkParent := 0 }

/-- Who inherits the children of a process that ends. -/
def adopter (exiting : UInt32) : UInt32 :=
  if (List.finRange capacity).any fun index =>
      (table.records index).state ≠ .free ∧ (table.records index).pid = 1 ∧
        (table.records index).pid ≠ exiting
  then 1 else 0

def reparentChildren (exiting : UInt32) : ProcessTable capacity :=
  { table with
    records := fun index =>
      let record := table.records index
      if record.state ≠ .free ∧ record.parent = exiting then
        { record with parent := table.adopter exiting }
      else record }

/-! ## The calls -/

def initializeTable [NeZero capacity] (table : ProcessTable capacity) (pid : UInt32) :
    ProcessStatus × ProcessTable capacity :=
  if pid = invalidPid ∨ table.used ≠ 0 then (.invalidArgument, table)
  else
    (.success,
      { records := Function.update table.records 0
          { state := .running, pid, parent := invalidPid, processGroup := pid, session := pid,
            exitStatus := 0, vforkParent := 0, executed := false, addressSpace := true }
        nextPid := pid + 1 })

def offspring (parent : ProcessRecord) (pid parentPid : UInt32) (vfork : Bool) : ProcessRecord :=
  { parent with
    state := .runnable
    pid
    parent := parentPid
    exitStatus := 0
    vforkParent := if vfork then parentPid else 0
    executed := false
    addressSpace := true }

def fork (parentPid : UInt32) (vfork : Bool) : ForkResult × ProcessTable capacity :=
  match table.find parentPid with
  | none => ({ status := .noProcess }, table)
  | some parent =>
    if (table.records parent).state = .zombie ∨ (table.records parent).state = .free then
      ({ status := .noProcess }, table)
    else
      match table.freeSlot with
      | none => ({}, table)
      | some child =>
        if table.nextPid = invalidPid then ({}, table)
        else
          let pid := table.nextPid
          let born := table.modify child fun _ =>
            offspring (table.records parent) pid parentPid vfork
          let parked := if vfork then born.setState parent .vforkWait else born
          (⟨.success, pid, 0, pid⟩, { parked with nextPid := pid + 1 })

def markExec (pid : UInt32) : ProcessStatus × ProcessTable capacity :=
  match table.find pid with
  | none => (.noProcess, table)
  | some index =>
    if (table.records index).state = .zombie then (.noProcess, table)
    else
      let executed := table.modify index fun record => { record with executed := true }
      (.success, executed.wakeVforkParent index)

def exit (pid status : UInt32) : ProcessStatus × ProcessTable capacity :=
  match table.find pid with
  | none => (.noProcess, table)
  | some index =>
    if (table.records index).state = .zombie then (.noProcess, table)
    else
      let ended := table.modify index fun record =>
        { record with exitStatus := status, state := .zombie, addressSpace := false }
      let left := ended.wakeVforkParent index
      let woken := left.wake (left.records index).parent .waiting
      (.success, woken.reparentChildren pid)

/-- The loop of `wait`: the first child to collect, or else whether there is a child. -/
def collectable (table : ProcessTable capacity) (parent : Fin capacity) (parentPid : UInt32)
    (selector : WaitSelector) :
    List (Fin capacity) → Bool → Except Bool (Fin capacity)
  | [], hasChild => .error hasChild
  | index :: rest, hasChild =>
    let candidate := table.records index
    if candidate.state = .free ∨ candidate.parent ≠ parentPid ∨
        ¬ matchesSelector (table.records parent) candidate selector then
      table.collectable parent parentPid selector rest hasChild
    else if candidate.state = .zombie then .ok index
    else table.collectable parent parentPid selector rest true

def wait (parentPid : UInt32) (selector : WaitSelector) (noHang : Bool) :
    WaitResult × ProcessTable capacity :=
  match table.find parentPid with
  | none => ({ status := .noProcess }, table)
  | some parent =>
    if (table.records parent).state = .zombie then ({ status := .noProcess }, table)
    else
      match table.collectable parent parentPid selector (List.finRange capacity) false with
      | .ok index =>
        (⟨.success, (table.records index).pid, (table.records index).exitStatus⟩,
          table.modify index fun _ => {})
      | .error hasChild =>
        if ¬ hasChild then ({ status := .noChild }, table)
        else if noHang then ({ status := .success }, table)
        else ({ status := .wouldBlock }, table.setState parent .waiting)

/-- The group has its leader in it, who is of the given session. -/
def led (group session : UInt32) : Bool :=
  match table.find group with
  | none => false
  | some leader =>
    (table.records leader).processGroup = group ∧ (table.records leader).session = session

def setProcessGroup (callerPid targetPid group : UInt32) : ProcessStatus × ProcessTable capacity :=
  match table.find callerPid with
  | none => (.noProcess, table)
  | some _ =>
    let targetPid := if targetPid = 0 then callerPid else targetPid
    match table.find targetPid with
    | none => (.noProcess, table)
    | some target =>
      let record := table.records target
      if targetPid ≠ callerPid ∧ record.parent ≠ callerPid then (.noProcess, table)
      else if record.session = record.pid ∨ targetPid ≠ callerPid ∧ record.executed then
        (.permissionDenied, table)
      else
        let group := if group = 0 then targetPid else group
        if group ≠ targetPid ∧ ¬ table.led group record.session then (.permissionDenied, table)
        else (.success, table.modify target fun record => { record with processGroup := group })

def createSession (pid : UInt32) : ProcessStatus × ProcessTable capacity :=
  match table.find pid with
  | none => (.noProcess, table)
  | some index =>
    if (table.records index).processGroup = pid then (.permissionDenied, table)
    else
      (.success, table.modify index fun record =>
        { record with session := pid, processGroup := pid })

def stop (pid : UInt32) : ProcessStatus × ProcessTable capacity :=
  match table.find pid with
  | none => (.noProcess, table)
  | some index =>
    if (table.records index).state = .zombie then (.noProcess, table)
    else (.success, table.setState index .stopped)

def resume (pid : UInt32) : ProcessStatus × ProcessTable capacity :=
  match table.find pid with
  | none => (.noProcess, table)
  | some index =>
    if (table.records index).state = .zombie then (.noProcess, table)
    else if (table.records index).state = .stopped then
      (.success, table.setState index .runnable)
    else (.success, table)

/-- The next process for the processor, in turn after the given one. -/
def nextRunnable [NeZero capacity] (table : ProcessTable capacity) (afterPid : UInt32) : UInt32 :=
  let after := (List.finRange capacity).find? fun index =>
    (table.records index).pid = afterPid ∧ (table.records index).state ≠ .free
  let afterSlot := (after.getD 0).val
  let turn := (List.range capacity).map fun offset =>
    Fin.ofNat capacity (afterSlot + (offset + 1))
  match turn.find? fun index => runnable (table.records index).state with
  | some index => (table.records index).pid
  | none =>
    if after.isNone ∧ runnable (table.records 0).state then (table.records 0).pid
    else invalidPid

/-- The check that the table makes of itself. -/
def invariant : Bool :=
  (List.finRange capacity).all fun index =>
    let record := table.records index
    if record.state = .free then ¬ (record.pid ≠ 0 ∨ record.addressSpace)
    else
      ¬ (record.pid = 0 ∨ record.processGroup = 0 ∨ record.session = 0 ∨
          (record.state = .zombie ∧ record.addressSpace)) ∧
        ((List.finRange capacity).filter (index < ·)).all fun later =>
          ¬ ((table.records later).state ≠ .free ∧ (table.records later).pid = record.pid)

/-! ## Records by their names -/

/-- The record is the one of the process or zombie with this number. -/
def Names (pid : UInt32) (index : Fin capacity) : Prop :=
  (table.records index).Live ∧ (table.records index).pid = pid
deriving Decidable

/-- The record is the one of the process with this number, which has not ended. -/
def Acts (pid : UInt32) (index : Fin capacity) : Prop :=
  (table.records index).Alive ∧ (table.records index).pid = pid
deriving Decidable

/-- No two records have one number. -/
def Unique : Prop :=
  ∀ left right, (table.records left).Live → (table.records right).Live →
    (table.records left).pid = (table.records right).pid → left = right

variable {table after : ProcessTable capacity} {pid parentPid : UInt32}
  {i j parent child : Fin capacity} {selector : WaitSelector}

theorem Acts.names (acting : table.Acts pid i) : table.Names pid i := ⟨acting.1.live, acting.2⟩

theorem Unique.eq (unique : table.Unique) (left : table.Names pid i) (right : table.Names pid j) :
    i = j :=
  unique i j left.1 right.1 (left.2.trans right.2.symm)

theorem Unique.congr (unique : table.Unique)
    (live : ∀ i, (after.records i).Live → (table.records i).Live)
    (same : ∀ i, (after.records i).Live → (after.records i).pid = (table.records i).pid) :
    after.Unique := by
  intro left right liveLeft liveRight equal
  refine unique left right (live left liveLeft) (live right liveRight) ?_
  rw [← same left liveLeft, ← same right liveRight, equal]

theorem find_names (found : table.find pid = some i) : table.Names pid i := by
  have holds := List.find?_some found
  simp only [decide_eq_true_eq] at holds
  exact holds

theorem find_eq_none : table.find pid = none ↔ ∀ i, ¬ table.Names pid i := by
  simp only [find, List.find?_eq_none, List.mem_finRange, true_implies, decide_eq_true_eq]
  exact Iff.rfl

theorem freeSlot_free (found : table.freeSlot = some i) : (table.records i).state = .free := by
  have holds := List.find?_some found
  simpa only [decide_eq_true_eq] using holds

@[simp] theorem modify_self (change : ProcessRecord → ProcessRecord) :
    (table.modify i change).records i = change (table.records i) := by
  simp [modify]

theorem modify_other (apart : j ≠ i) (change : ProcessRecord → ProcessRecord) :
    (table.modify i change).records j = table.records j := by
  simp [modify, apart]

@[simp] theorem modify_nextPid (change : ProcessRecord → ProcessRecord) :
    (table.modify i change).nextPid = table.nextPid := rfl

theorem Unique.modify (unique : table.Unique)
    (live : (change (table.records i)).Live → (table.records i).Live)
    (same : (change (table.records i)).pid = (table.records i).pid) :
    (table.modify i change).Unique := by
  apply unique.congr
  · intro j alive
    by_cases equal : j = i
    · subst equal
      rw [modify_self] at alive
      exact live alive
    · rwa [modify_other equal] at alive
  intro j _
  by_cases equal : j = i
  · subst equal
    rw [modify_self, same]
  · rw [modify_other equal]

/-! ## Waking -/

@[simp] theorem wake_nextPid (parked : ProcessState) :
    (table.wake pid parked).nextPid = table.nextPid := by
  unfold wake
  split
  · rfl
  · split <;> rfl

theorem Unique.wake_records (unique : table.Unique) (occupied : parked ≠ .free) (j : Fin capacity) :
    (table.wake pid parked).records j =
      if (table.records j).pid = pid ∧ (table.records j).state = parked then
        { table.records j with state := .runnable }
      else table.records j := by
  unfold wake
  split
  next missing =>
    have unnamed := find_eq_none.mp missing j
    rw [if_neg]
    rintro ⟨named, state⟩
    exact unnamed ⟨by rw [ProcessRecord.Live, state]; exact occupied, named⟩
  rename_i i found
  have named := find_names found
  by_cases equal : j = i
  · subst equal
    by_cases state : (table.records j).state = parked
    · rw [if_pos state, if_pos ⟨named.2, state⟩, setState, modify_self]
    · rw [if_neg state, if_neg fun both => state both.2]
  have unnamed : ¬ ((table.records j).pid = pid ∧ (table.records j).state = parked) := by
    rintro ⟨same, state⟩
    refine equal (unique.eq ⟨?_, same⟩ named)
    rw [ProcessRecord.Live, state]
    exact occupied
  rw [if_neg unnamed]
  split
  · rw [setState, modify_other equal]
  · rfl

/-- The process of one record is parked for the child in another to leave its memory. -/
def Released (table : ProcessTable capacity) (child other : Fin capacity) : Prop :=
  (table.records child).vforkParent ≠ 0 ∧
    (table.records other).pid = (table.records child).vforkParent ∧
    (table.records other).state = .vforkWait
deriving Decidable

/-- The process of one record is blocked in a wait for its children, one of which is in
another. -/
def Roused (table : ProcessTable capacity) (child other : Fin capacity) : Prop :=
  (table.records other).pid = (table.records child).parent ∧
    (table.records other).state = .waiting
deriving Decidable

@[simp] theorem wakeVforkParent_nextPid :
    (table.wakeVforkParent child).nextPid = table.nextPid := by
  unfold wakeVforkParent
  split
  · rfl
  · rw [modify_nextPid, wake_nextPid]

theorem Unique.wakeVforkParent_records (unique : table.Unique) (j : Fin capacity) :
    (table.wakeVforkParent child).records j =
      { table.records j with
        state := if table.Released child j then .runnable else (table.records j).state
        vforkParent := if j = child then 0 else (table.records j).vforkParent } := by
  unfold wakeVforkParent
  split
  next alone =>
    rw [if_neg fun freed : table.Released child j => freed.1 alone]
    by_cases equal : j = child
    · subst equal
      rw [if_pos rfl, ← alone]
    · rw [if_neg equal]
  rename_i lent
  have woken : ∀ j, (table.wake (table.records child).vforkParent .vforkWait).records
      j = _ := unique.wake_records (by decide)
  have freed : table.Released child j ↔
      (table.records j).pid = (table.records child).vforkParent ∧
        (table.records j).state = .vforkWait :=
    ⟨fun freed => freed.2, fun both => ⟨lent, both⟩⟩
  by_cases equal : j = child
  · subst equal
    rw [modify_self, woken, if_pos rfl]
    by_cases waits : table.Released j j
    · rw [if_pos waits, if_pos (freed.mp waits)]
    · rw [if_neg waits, if_neg fun both => waits (freed.mpr both)]
  · rw [modify_other equal, woken, if_neg equal]
    by_cases waits : table.Released child j
    · rw [if_pos waits, if_pos (freed.mp waits)]
    · rw [if_neg waits, if_neg fun both => waits (freed.mpr both)]

theorem Unique.wakeVforkParent (unique : table.Unique) : (table.wakeVforkParent child).Unique := by
  apply unique.congr
  · intro j live
    rw [unique.wakeVforkParent_records] at live
    by_cases freed : table.Released child j
    · rw [ProcessRecord.Live, freed.2.2]
      decide
    · simpa only [ProcessRecord.Live, if_neg freed] using live
  · intro j _
    rw [unique.wakeVforkParent_records]

/-- The first process inherits children, unless it is not there or is the one that ends. -/
theorem adopter_eq_one : table.adopter pid = 1 ↔ pid ≠ 1 ∧ ∃ i, table.Names 1 i := by
  unfold adopter
  rw [ite_eq_left_iff]
  simp only [List.any_eq_true, List.mem_finRange, true_and, decide_eq_true_eq]
  constructor
  · intro heir
    by_contra missing
    refine absurd (heir ?_) (by decide)
    rintro ⟨i, live, one, apart⟩
    exact missing ⟨fun same => apart (one.trans same.symm), i, live, one⟩
  · rintro ⟨apart, i, live, one⟩ missing
    exact absurd ⟨i, live, one, one.trans_ne apart.symm⟩ missing

theorem adopter_cases (table : ProcessTable capacity) (pid : UInt32) :
    table.adopter pid = 1 ∨ table.adopter pid = 0 := by
  unfold adopter
  split
  · exact .inl rfl
  · exact .inr rfl

theorem Unique.led_iff (unique : table.Unique) :
    table.led group session ↔ ∃ leader, table.Names group leader ∧
      (table.records leader).processGroup = group ∧
      (table.records leader).session = session := by
  unfold led
  cases found : table.find group with
  | none =>
    simp only [Bool.false_eq_true, false_iff, not_exists]
    rintro leader ⟨named, -⟩
    exact find_eq_none.mp found leader named
  | some i =>
    simp only [decide_eq_true_eq]
    constructor
    · exact fun both => ⟨i, find_names found, both⟩
    · rintro ⟨leader, named, both⟩
      rwa [← unique.eq named (find_names found)]

end ProcessTable
end Mikos.Process
