import Mikos.Process.Snapshots

/-!
# How processes change

What each of the six ways to change the running process does to the kernel, as equations and
as moves of processes between the running place and the records.
-/

namespace Mikos.Process
open Library Network
namespace Kernel
variable {blocks : List Block}

variable {machine : Machine} {kernel kernel' : Kernel} {status : UInt32}
  {childCompleted returnFromClone : Bool}

/-! ## Return to the parent -/

section Adopting
variable (machine kernel) (memory : Bytes) (arena : SnapshotArena) (status)
  (childCompleted returnFromClone)

/-- The record of a parent that has gone on. -/
def retiredParent : SuspendedParent :=
  let parent :=
    { kernel.suspended.parent with
      snapshot := if kernel.suspended.parent.memorySaved then .invalid
        else kernel.suspended.parent.snapshot
      active := false
      memorySaved := false }
  if childCompleted then
    { parent with
      childStatus := status
      childProcessGroup := kernel.context.processGroup
      childWaitable := waitableSpace kernel.children || parent.childWaitable }
  else parent

/-- The entry of the running process in the table of children that have exited. -/
def exitEntry : WaitableChild :=
  { pid := kernel.suspended.parent.childPid
    parentPid := kernel.suspended.parent.pid
    processGroup := kernel.context.processGroup
    status }

theorem publishChildExit_fst (children : WaitableChildren) (child : WaitableChild) :
    (publishChildExit children child).1 = waitableSpace children := by
  rw [publishChildExit, waitableSpace]
  split
  next none => rw [none]; rfl
  next some => rw [some]; rfl

theorem adoptParent_eq :
    kernel.adoptParent machine memory arena status childCompleted returnFromClone =
      { context :=
          { kernel.suspended.parent.toContext with
            frame := parentFrame kernel.suspended.parent returnFromClone
            signals :=
              if childCompleted then kernel.suspended.parent.signals.queue signalChild
              else kernel.suspended.parent.signals }
        descriptors := kernel.suspended.parentDescriptors
        channels := kernel.descriptors.reset machine kernel.channels
        memory :=
          if kernel.suspended.parent.memorySaved then
            kernel.suspended.parent.restoreMemory memory
          else memory
        files := kernel.files
        imageReplaced := true
        suspended :=
          { kernel.suspended with
            parent := kernel.retiredParent status childCompleted
            parentDescriptors := .closed }
        children :=
          if childCompleted then
            (publishChildExit kernel.children (kernel.exitEntry status)).2
          else kernel.children
        nextPid := kernel.nextPid
        arena } := by
  cases childCompleted with
  | false => rfl
  | true =>
    have space := publishChildExit_fst kernel.children (kernel.exitEntry status)
    simp only [adoptParent, if_true, completeChild, resetDescriptors, retiredParent]
    rw [← space]
    rfl

end Adopting

/-- The parent returns when its image can be loaded and its snapshot be given back. -/
theorem resumeParent_eq_ok (saved : kernel.suspended.parent.memorySaved = true) :
    kernel.resumeParent machine status childCompleted returnFromClone = .ok kernel' ↔
      ∃ memory arena,
        kernel.reloadIfReplaced machine kernel.suspended.parent.toSavedContext = .ok memory ∧
        releaseSnapshot kernel.arena kernel.suspended.parent.snapshot = .ok arena ∧
        kernel' = kernel.adoptParent machine memory arena status childCompleted returnFromClone := by
  rw [resumeParent, Halting.bind_eq_ok]
  simp only [saved, if_true, Halting.bind_eq_ok]
  constructor
  · rintro ⟨memory, loaded, arena, freed, same⟩
    cases same
    exact ⟨memory, arena, loaded, freed, rfl⟩
  · rintro ⟨memory, arena, loaded, freed, rfl⟩
    exact ⟨memory, loaded, arena, freed, rfl⟩

/-! ## Suspending the running process -/

section Suspending
variable {kept refused : Kernel} {stack childPid : Nat}

/-- The descriptors of the running process are kept for its record, or none are. -/
theorem saveParentDescriptors_eq (saving : kernel.saveParentDescriptors machine = (saved, kept)) :
    kept =
      { kernel with
        suspended.parentDescriptors := if saved then kernel.descriptors else .closed
        channels :=
          (kernel.descriptors.save machine kernel.suspended.parentDescriptors
            kernel.channels).2.2 } := by
  rw [saveParentDescriptors] at saving
  have shape : (kernel.descriptors.save machine kernel.suspended.parentDescriptors
      kernel.channels).2.1 =
      if (kernel.descriptors.save machine kernel.suspended.parentDescriptors
        kernel.channels).1 then kernel.descriptors else .closed := by
    rw [DescriptorTable.save]
    split <;> rfl
  generalize kernel.descriptors.save machine kernel.suspended.parentDescriptors kernel.channels =
    attempt at saving shape ⊢
  obtain ⟨answer, table, channels⟩ := attempt
  cases saving
  rw [← shape]

theorem suspendRunning_true
    (suspends : kernel.suspendRunning machine stack childPid = (true, kernel')) :
    ∃ record arena memory, (kernel.context.record stack).saveMemory kernel.arena kernel.memory =
        (true, record, arena, memory) ∧
      kernel' =
        { kernel with
          suspended.parent :=
            { kernel.suspended.parent with
              toSavedContext := record, childPid, active := true, memorySaved := true }
          arena
          memory } := by
  rw [suspendRunning] at suspends
  simp only [saveParentMemory, Bool.false_eq_true, if_false] at suspends
  generalize (kernel.context.record stack).saveMemory kernel.arena kernel.memory = attempt
    at suspends ⊢
  obtain ⟨saved, record, arena, memory⟩ := attempt
  cases saved with
  | false => cases suspends
  | true =>
    cases suspends
    exact ⟨record, arena, memory, rfl, rfl⟩

/-- A process that cannot be saved leaves a record that holds nothing. -/
theorem suspendRunning_false (represents : kernel.arena.Represents blocks)
    (refuses : kernel.suspendRunning machine stack childPid = (false, kernel')) :
    ∃ record, record.snapshot = .invalid ∧
      kernel' =
        { kernel with
          suspended :=
            { kernel.suspended with
              parent :=
                { kernel.suspended.parent with
                  toSavedContext := record, childPid, active := false, memorySaved := false }
              parentDescriptors := .closed }
          channels := kernel.suspended.parentDescriptors.reset machine kernel.channels } := by
  have outcome := (kernel.context.record stack).saveMemory_spec represents kernel.memory
  rw [suspendRunning] at refuses
  simp only [saveParentMemory, Bool.false_eq_true, if_false] at refuses
  generalize (kernel.context.record stack).saveMemory kernel.arena kernel.memory = attempt
    at outcome refuses
  cases outcome with
  | saved => cases refuses
  | refused context stackBegin snapshot =>
    cases refuses
    refine ⟨_, ?_, rfl⟩
    rcases snapshot with same | invalid
    · exact same
    · exact invalid

/-- The running process in the parent's record. -/
inductive Suspends (machine : Machine) (kernel : Kernel) (stack childPid : Nat) : Kernel → Prop where
  | intro {record : SavedContext} {arena : SnapshotArena} {memory : Bytes}
      (saves : (kernel.context.record stack).saveMemory kernel.arena kernel.memory =
        (true, record, arena, memory)) :
      Suspends machine kernel stack childPid
        { kernel with
          channels :=
            (kernel.descriptors.save machine kernel.suspended.parentDescriptors kernel.channels).2.2
          suspended :=
            { kernel.suspended with
              parent :=
                { kernel.suspended.parent with
                  toSavedContext := record, childPid, active := true, memorySaved := true }
              parentDescriptors := kernel.descriptors }
          arena
          memory }

/-- The running process could not be put into the parent's record, which holds nothing. -/
inductive SuspendRefused (kernel : Kernel) : Kernel → Prop where
  | intro {parent : SuspendedParent} {channels : Channels} (inactive : parent.active = false)
      (regular : parent.Regular) :
      SuspendRefused kernel
        { kernel with
          channels, suspended := { kernel.suspended with parent, parentDescriptors := .closed } }

theorem suspendRefused_of_descriptors (idle : kernel.suspended.parent.active = false)
    (regular : kernel.suspended.parent.Regular)
    (keeping : kernel.saveParentDescriptors machine = (false, refused)) :
    SuspendRefused kernel refused := by
  cases saveParentDescriptors_eq keeping
  exact .intro idle regular

theorem suspends_of_suspendRunning (keeping : kernel.saveParentDescriptors machine = (true, kept))
    (suspends : kept.suspendRunning machine stack childPid = (true, kernel')) :
    Suspends machine kernel stack childPid kernel' := by
  cases saveParentDescriptors_eq keeping
  obtain ⟨record, arena, memory, saves, rfl⟩ := suspendRunning_true suspends
  exact .intro saves

theorem suspendRefused_of_suspendRunning (represents : kernel.arena.Represents blocks)
    (keeping : kernel.saveParentDescriptors machine = (true, kept))
    (refuses : kept.suspendRunning machine stack childPid = (false, refused)) :
    SuspendRefused kernel refused := by
  cases saveParentDescriptors_eq keeping
  obtain ⟨record, invalid, rfl⟩ := suspendRunning_false (by exact represents) refuses
  refine .intro rfl ⟨rfl, ?_⟩
  simp only [Bool.false_eq_true, invalid, false_iff]
  exact SnapshotAllocation.not_valid_invalid

end Suspending

/-! ## `clone` -/

section Cloning
variable {flags stack childTid : UInt32}

/-- The records in which the caller of `clone` can be suspended. -/
def CloneRoom (kernel : Kernel) (suspended : Suspended) : Prop :=
  (kernel.suspended.parent.active = false ∧ suspended = kernel.suspended) ∨
    (kernel.NestedFork ∧ kernel.suspended.stackAncestor = some suspended)

inductive Clones (machine : Machine) (kernel : Kernel) (flags stack childTid : UInt32) :
    Outcome → Prop where
  | fails (value : Errno) : Clones machine kernel flags stack childTid (kernel.fails value)
  /-- A child cannot be suspended; its parent is where it was. -/
  | refusedNested {suspended : Suspended} {channels : Channels} {nextPid : Nat}
      (stacking : kernel.suspended.stackAncestor = some suspended) :
      Clones machine kernel flags stack childTid
        ({ kernel with
          channels
          nextPid
          suspended.background :=
            (({} : Suspended).captureBackground kernel.context invalidSocket
              .none).background }.fails .noMemory)
  /-- A process without a parent cannot be suspended. -/
  | refused {parent : SuspendedParent} {channels : Channels} {nextPid : Nat}
      (before : kernel.suspended.parent.active = false) (inactive : parent.active = false)
      (regular : parent.Regular) :
      Clones machine kernel flags stack childTid
        ({ kernel with
          channels
          nextPid
          suspended :=
            { kernel.suspended with
              parent, parentDescriptors := .closed }.reinstateAncestor kernel.context }.fails
                .noMemory)
  | forks {suspended : Suspended} {forked : Kernel}
      (accepts : CloneAccepts kernel.context.frame flags stack childTid)
      (room : kernel.CloneRoom suspended)
      (suspends : Suspends machine
        { kernel with suspended, nextPid := wrap 32 (kernel.nextPid + 1) }
        (cloneStack kernel.context.frame stack) kernel.nextPid forked) :
      Clones machine kernel flags stack childTid
        { switch := .forks, result := 0, kernel := forked.becomeChild flags childTid }

theorem reinstate_stackAncestor {suspended stacking : Suspended}
    (moved : suspended.stackAncestor = some stacking) (context : Context) :
    { stacking with parent, parentDescriptors := table }.reinstateAncestor context =
      { suspended with
        background :=
          (({} : Suspended).captureBackground context invalidSocket .none).background } := by
  rw [Suspended.stackAncestor] at moved
  split at moved
  · cases moved
  · cases moved
    rw [Suspended.reinstateAncestor, if_neg (by simp)]
    rfl

/-- A process that was refused leaves the parent's record without a process. -/
theorem cloneRefused_of_suspendRefused {suspended : Suspended} {nextPid : Nat}
    (room : kernel.CloneRoom suspended)
    (refuses : SuspendRefused { kernel with suspended, nextPid } refused) :
    Clones machine kernel flags stack childTid refused.cloneRefused := by
  obtain ⟨idle, regular⟩ := refuses
  rcases room with ⟨before, rfl⟩ | ⟨-, stacking⟩
  · exact .refused before idle regular
  · rw [cloneRefused, reinstate_stackAncestor stacking]
    exact .refusedNested stacking

theorem regular_of_room {suspended : Suspended} (regular : kernel.suspended.parent.Regular)
    (room : kernel.CloneRoom suspended) :
    suspended.parent.Regular ∧ suspended.parent.active = false := by
  rcases room with ⟨idle, rfl⟩ | ⟨-, stacking⟩
  · exact ⟨regular, idle⟩
  rw [Suspended.stackAncestor] at stacking
  split at stacking
  · cases stacking
  · cases stacking
    exact ⟨SuspendedParent.regular_default, rfl⟩

theorem saveParentDescriptors_nextPid
    (keeping : kernel.saveParentDescriptors machine = (saved, kept)) (nextPid : Nat) :
    { kernel with nextPid }.saveParentDescriptors machine = (saved, { kept with nextPid }) := by
  rw [saveParentDescriptors] at keeping ⊢
  generalize kernel.descriptors.save machine kernel.suspended.parentDescriptors kernel.channels =
    attempt at keeping ⊢
  cases keeping
  rfl

theorem clone_spec (represents : kernel.arena.Represents blocks)
    (regular : kernel.suspended.parent.Regular) (flags stack childTid : UInt32) :
    Clones machine kernel flags stack childTid (kernel.clone machine flags stack childTid) := by
  rw [clone]
  split
  · exact .fails _
  rename_i accepts
  split
  · exact .fails _
  rename_i nestedOrFree
  split
  · exact .fails _
  rw [not_not] at accepts
  split
  · exact .fails _
  rename_i suspended stacking
  have room : kernel.CloneRoom suspended := by
    by_cases nested : kernel.NestedFork
    · rw [if_pos nested] at stacking
      exact .inr ⟨nested, stacking⟩
    rw [if_neg nested] at stacking
    cases stacking
    refine .inl ⟨?_, rfl⟩
    by_contra active
    exact nestedOrFree ⟨by simpa using active, nested⟩
  obtain ⟨regular', idle⟩ := regular_of_room regular room
  split
  next refused keeping =>
    exact cloneRefused_of_suspendRefused room (suspendRefused_of_descriptors idle regular' keeping)
  rename_i kept keeping
  have kept_eq := saveParentDescriptors_eq keeping
  have keeping' := saveParentDescriptors_nextPid keeping (wrap 32 (kept.nextPid + 1))
  split
  next refused refuses =>
    exact cloneRefused_of_suspendRefused room
      (suspendRefused_of_suspendRunning (by exact represents) keeping' refuses)
  rename_i forked suspends
  have same : kept.nextPid = kernel.nextPid := by rw [kept_eq]
  rw [same] at suspends keeping'
  exact .forks accepts room (suspends_of_suspendRunning keeping' suspends)

end Cloning

/-! ## Images -/

theorem reload_eq_ok : kernel.reload machine path = .ok memory ↔
    restoreExecutableImage machine kernel.files path kernel.memory = (true, memory) := by
  rw [reload]
  generalize restoreExecutableImage machine kernel.files path kernel.memory = attempt
  obtain ⟨loaded, result⟩ := attempt
  cases loaded with
  | false => simp
  | true => simp

theorem reloadIfReplaced_eq_ok : kernel.reloadIfReplaced machine saved = .ok memory ↔
      (kernel.context.image ≠ saved.image ∧
        restoreExecutableImage machine kernel.files saved.executablePath kernel.memory =
          (true, memory)) ∨
      (kernel.context.image = saved.image ∧ memory = kernel.memory) := by
  rw [reloadIfReplaced]
  split
  next other => simp [other, reload_eq_ok]
  next same =>
    rw [not_not] at same
    simp [same, eq_comm]

/-! ## `exit` -/

/-- The process that exits, when it has cleared what others look at. -/
def leaving (kernel : Kernel) : Kernel := kernel.clearChildTid.forgetBackground

/-- An ancestor becomes the parent of the running process. -/
def reinstated (kernel : Kernel) : Kernel :=
  { kernel with suspended := kernel.suspended.reinstateAncestor kernel.context }

theorem forgetBackground_eq (kernel : Kernel) :
    kernel.forgetBackground =
      { kernel with suspended.background := kernel.forgetBackground.suspended.background } := by
  by_cases own : kernel.suspended.background.used ∧
      kernel.context.pid = kernel.suspended.background.pid
  · simp only [forgetBackground, if_pos own]
  · simp only [forgetBackground, if_neg own]

theorem leaving_eq (kernel : Kernel) :
    kernel.leaving =
      { kernel with
        memory := kernel.clearChildTid.memory
        context.childTidAddress := 0
        suspended.background := kernel.leaving.suspended.background } := by
  rw [leaving, forgetBackground_eq]
  rfl

theorem exitToParent_eq_ok (saved : kernel.suspended.parent.memorySaved = true) :
    kernel.exitToParent machine status = .ok outcome ↔
      ∃ memory arena,
        kernel.leaving.reloadIfReplaced machine kernel.suspended.parent.toSavedContext =
          .ok memory ∧
        releaseSnapshot kernel.arena kernel.suspended.parent.snapshot = .ok arena ∧
        outcome =
          { switch := .ends
            result := UInt32.ofNat kernel.suspended.parent.childPid
            kernel :=
              (kernel.leaving.adoptParent machine memory arena status true true).reinstated } := by
  have parent : kernel.leaving.suspended.parent = kernel.suspended.parent := by rw [leaving_eq]
  have arena : kernel.leaving.arena = kernel.arena := by rw [leaving_eq]
  rw [exitToParent]
  simp only [Halting.bind_eq_ok]
  rw [← leaving]
  simp only [resumeParent_eq_ok (parent ▸ saved), parent, arena]
  constructor
  · rintro ⟨_, ⟨memory, arena, loaded, freed, rfl⟩, same⟩
    cases same
    exact ⟨memory, arena, loaded, freed, rfl⟩
  · rintro ⟨memory, arena, loaded, freed, rfl⟩
    exact ⟨_, ⟨memory, arena, loaded, freed, rfl⟩, rfl⟩

/-! ## Parking -/

section Parking
variable {socket : SocketHandle} {waitPty : PtyHandle} {waitEnd : PtyEnd} {uartReady : Bool}

/-- The running process goes into a record, and its parent goes on. -/
inductive Parks (machine : Machine) (kernel : Kernel) (place : SavedContext → Suspended) :
    Kernel → Prop where
  | intro {saved record : SavedContext} {arena arena' : SnapshotArena} {memory memory' : Bytes}
      (same : saved.toContext = kernel.context)
      (stack : saved.stackBegin = alignDown kernel.context.frame.stack 16)
      (saves : saved.saveMemory kernel.arena kernel.memory = (true, record, arena, memory))
      (loaded : { kernel with
        suspended := place record, descriptors := .closed, arena, memory }.reloadIfReplaced machine
          (place record).parent.toSavedContext = .ok memory')
      (released : releaseSnapshot arena (place record).parent.snapshot = .ok arena') :
      Parks machine kernel place
        ({ kernel with
          suspended := place record, descriptors := .closed, arena, memory }.adoptParent machine
            memory' arena' 0 false (firstPark (place record).parent))

theorem Parks.of_resumeParent {saved record : SavedContext} {arena : SnapshotArena}
    (same : saved.toContext = kernel.context)
    (stack : saved.stackBegin = alignDown kernel.context.frame.stack 16)
    (saves : saved.saveMemory kernel.arena kernel.memory = (true, record, arena, memory))
    (kept : (place record).parent.memorySaved = true) (resumes : { kernel with
      suspended := place record, descriptors := .closed, arena, memory }.resumeParent machine 0 false
        (firstPark (place record).parent) = .ok kernel') : Parks machine kernel place kernel' := by
  obtain ⟨memory', arena', loaded, freed, rfl⟩ := (resumeParent_eq_ok (by exact kept)).mp resumes
  exact .intro same stack saves loaded freed

def parkedBackground (kernel : Kernel) (socket : SocketHandle) (record : SavedContext) : Suspended :=
  let captured := kernel.suspended.captureBackground kernel.context socket .socketRead
  { captured with
    background := { captured.background with toSavedContext := record }
    backgroundDescriptors := kernel.descriptors }

/-- The records with a process parked on its terminal, with its parent set aside or not. -/
def parkedInteractive (kernel : Kernel) (waitPty : PtyHandle) (waitEnd : PtyEnd) (relay : Bool)
    (record : SavedContext) : Suspended :=
  let suspended :=
    { kernel.suspended with
      interactiveChild := { toSavedContext := record, waitPty, waitEnd, used := true }
      interactiveChildDescriptors := kernel.descriptors }
  if relay then suspended.relay else suspended

/-- The background record can take the running process. -/
def BackgroundFree (kernel : Kernel) : Prop :=
  kernel.suspended.background.used = true → kernel.context.pid = kernel.suspended.background.pid

inductive ParksBackground (machine : Machine) (kernel : Kernel) (socket : SocketHandle) :
    Bool × Kernel → Prop where
  | stays : ParksBackground machine kernel socket (false, kernel)
  | refused {record : SavedContext} (free : kernel.BackgroundFree)
      (snapshot : record.snapshot = kernel.suspended.background.snapshot ∨
        record.snapshot = .invalid) :
      ParksBackground machine kernel socket
        (false,
          { kernel with
            suspended.background :=
              { kernel.suspended.background with
                toSavedContext := record
                waitSocket := socket
                wait := .socketRead
                used := false } })
  | parks {kernel' : Kernel} (free : kernel.BackgroundFree)
      (active : kernel.suspended.parent.active = true)
      (parks : Parks machine kernel (kernel.parkedBackground socket) kernel') :
      ParksBackground machine kernel socket (true, kernel')

theorem parkBackground_spec (represents : kernel.arena.Represents blocks)
    (regular : kernel.suspended.parent.Regular)
    (done : kernel.parkBackground machine socket uartReady = .ok result) :
    ParksBackground machine kernel socket result := by
  rw [parkBackground] at done
  split at done
  · cases done
    exact .stays
  rename_i willing
  simp only [not_or, Bool.not_eq_false] at willing
  split at done
  · cases done
    exact .stays
  rename_i other
  have free : kernel.BackgroundFree := by
    intro used
    by_contra apart
    exact other ⟨used, apart⟩
  have outcome := (kernel.suspended.captureBackground kernel.context socket
    .socketRead).background.toSavedContext.saveMemory_spec represents kernel.memory
  dsimp only at done
  generalize saves : (kernel.suspended.captureBackground kernel.context socket
    .socketRead).background.toSavedContext.saveMemory kernel.arena kernel.memory = attempt
    at outcome done
  cases outcome with
  | refused context stack snapshot =>
    cases done
    exact .refused free snapshot
  | saved =>
    obtain ⟨resumed, resumes, same⟩ := Halting.bind_eq_ok.mp done
    cases same
    exact .parks free willing.1
      (.of_resumeParent rfl rfl saves (regular.saved.trans willing.1) resumes)

/-- The process that goes on is the parent, or the nearest older ancestor. -/
theorem parkedInteractive_parent (orderly : kernel.suspended.Orderly)
    (active : kernel.suspended.parent.active = true)
    (relays : relay = true → kernel.suspended.nested ≠ []) :
    (kernel.parkedInteractive waitPty waitEnd relay record).parent.Regular ∧
      (kernel.parkedInteractive waitPty waitEnd relay record).parent.active = true := by
  cases relay with
  | false => exact ⟨orderly.parent, active⟩
  | true =>
    have nested := orderly.nested
    simp only [parkedInteractive, if_true, Suspended.relay, Suspended.popAncestor]
    cases stack : kernel.suspended.nested with
    | nil => exact absurd stack (relays rfl)
    | cons ancestor rest =>
      rw [stack] at nested
      exact nested ancestor List.mem_cons_self

/-- What an attempt to park on a terminal does. -/
inductive ParksInteractive (machine : Machine) (kernel : Kernel) (waitPty : PtyHandle)
    (waitEnd : PtyEnd) : Bool × Kernel → Prop where
  | stays : ParksInteractive machine kernel waitPty waitEnd (false, kernel)
  | refused (unused : kernel.suspended.interactiveChild.used = false) :
      ParksInteractive machine kernel waitPty waitEnd
        (false, { kernel with suspended.interactiveChild := {} })
  | parks {kernel' : Kernel} {relay : Bool}
      (unused : kernel.suspended.interactiveChild.used = false)
      (active : kernel.suspended.parent.active = true)
      (relays : relay = true → kernel.suspended.relayed = false ∧ kernel.suspended.nested ≠ [])
      (parks : Parks machine kernel (kernel.parkedInteractive waitPty waitEnd relay) kernel') :
      ParksInteractive machine kernel waitPty waitEnd (true, kernel')

theorem parkInteractiveChild_spec (represents : kernel.arena.Represents blocks)
    (orderly : kernel.suspended.Orderly)
    (done : kernel.parkInteractiveChild machine waitPty waitEnd = .ok result) :
    ParksInteractive machine kernel waitPty waitEnd result := by
  rw [parkInteractiveChild] at done
  split at done
  · cases done
    exact .stays
  rename_i willing
  simp only [not_or, Bool.not_eq_false, Bool.not_eq_true] at willing
  have outcome := (kernel.context.record kernel.context.frame.stack).saveMemory_spec represents
    kernel.memory
  generalize saves : (kernel.context.record kernel.context.frame.stack).saveMemory kernel.arena
    kernel.memory = attempt at outcome done
  cases outcome with
  | refused =>
    cases done
    exact .refused willing.1
  | saved =>
    generalize choice : (!kernel.suspended.parentDescriptors.ownsPtyMaster waitPty &&
      !kernel.suspended.relayed && kernel.suspended.nearestAncestorOwnsPtyMaster waitPty) =
      relay at done
    have relays : relay = true →
        kernel.suspended.relayed = false ∧ kernel.suspended.nested ≠ [] := by
      rintro rfl
      simp only [Bool.and_eq_true, Bool.not_eq_true'] at choice
      refine ⟨choice.1.2, fun empty => ?_⟩
      have owner := choice.2
      rw [Suspended.nearestAncestorOwnsPtyMaster, empty] at owner
      cases owner
    obtain ⟨resumed, resumes, same⟩ := Halting.bind_eq_ok.mp done
    cases same
    obtain ⟨regular, active⟩ :=
      parkedInteractive_parent orderly willing.2.1 fun relayed => (relays relayed).2
    exact .parks willing.1 willing.2.1 relays
      (.of_resumeParent rfl rfl saves (regular.saved.trans active) resumes)

end Parking

/-! ## Resuming parked processes -/

section Resuming

/-- The running process goes into the parent's record, and a parked process goes on. -/
inductive Resumes (machine : Machine) (kernel : Kernel) (childPid : Nat) (saved : SavedContext)
    (table : DescriptorTable) (frame : TrapFrame) (rearranged : Suspended → Suspended → Prop) :
    Kernel → Prop where
  | intro {suspending : Kernel} {suspended : Suspended} {arena : SnapshotArena} {memory : Bytes}
      (inactive : kernel.suspended.parent.active = false)
      (suspends : Suspends machine kernel kernel.context.frame.stack childPid suspending)
      (rearranges : rearranged suspending.suspended suspended)
      (loaded : restoreExecutableImage machine kernel.files saved.executablePath
          suspending.memory = (true, memory) ∨
        (kernel.context.image = saved.image ∧ memory = suspending.memory))
      (released : releaseSnapshot suspending.arena saved.snapshot = .ok arena) :
      Resumes machine kernel childPid saved table frame rearranged
        { suspending with
          channels := kernel.descriptors.reset machine suspending.channels
          descriptors := table
          context := { saved.toContext with frame }
          memory := saved.restoreMemory memory
          arena
          imageReplaced := true
          suspended }

/-- The background record after its process went on; it still names that process. -/
def resumedBackground (suspended suspended' : Suspended) : Prop :=
  suspended' =
    { suspended with
      background := { suspended.background with snapshot := .invalid, wait := .none }
      backgroundDescriptors := .closed }

/-- The records after the process that was parked on its terminal went on. -/
def resumedInteractive (suspended suspended' : Suspended) : Prop :=
  ∃ stacked, (if suspended.relayed then
      ∃ aside, suspended.stackAncestor = some aside ∧ stacked = aside.unrelay
    else stacked = suspended) ∧
    suspended' =
      { stacked with interactiveChild := {}, interactiveChildDescriptors := .closed }

/-- What an attempt to resume the process parked on a socket does. -/
inductive ResumesBackground (machine : Machine) (kernel : Kernel) : Bool × Kernel → Prop where
  | stays : ResumesBackground machine kernel (false, kernel)
  | refused {refused : Kernel} (ready : kernel.backgroundReady = true)
      (inactive : kernel.suspended.parent.active = false)
      (refuses : SuspendRefused kernel refused) :
      ResumesBackground machine kernel (false, refused)
  | resumes {kernel' : Kernel} (ready : kernel.backgroundReady = true)
      (resumes : Resumes machine kernel kernel.suspended.background.pid
        kernel.suspended.background.toSavedContext kernel.suspended.backgroundDescriptors
        kernel.suspended.background.frame resumedBackground kernel') :
      ResumesBackground machine kernel (true, kernel')

theorem resumeBackgroundIfReady_spec (represents : kernel.arena.Represents blocks)
    (regular : kernel.suspended.parent.Regular)
    (done : kernel.resumeBackgroundIfReady machine = .ok result) :
    ResumesBackground machine kernel result := by
  rw [resumeBackgroundIfReady] at done
  split at done
  · cases done
    exact .stays
  rename_i willing
  simp only [not_or, Bool.not_eq_false, Bool.not_eq_true] at willing
  split at done
  next refused keeping =>
    cases done
    exact .refused willing.1 willing.2 (suspendRefused_of_descriptors willing.2 regular keeping)
  rename_i kept keeping
  split at done
  next refused refuses =>
    cases done
    exact .refused willing.1 willing.2 (suspendRefused_of_suspendRunning represents keeping refuses)
  rename_i suspending suspends
  have suspends := suspends_of_suspendRunning keeping suspends
  obtain ⟨memory, loaded, done⟩ := Halting.bind_eq_ok.mp done
  obtain ⟨restored, restores, done⟩ := Halting.bind_eq_ok.mp done
  obtain ⟨arena, freed, same⟩ := Halting.bind_eq_ok.mp restores
  rw [reload_eq_ok] at loaded
  cases same
  cases done
  cases id suspends
  exact .resumes willing.1 (.intro willing.2 suspends rfl (.inl loaded) freed)

/-- What an attempt to resume the process parked on its terminal does. -/
inductive ResumesInteractive (machine : Machine) (kernel : Kernel) : Bool × Kernel → Prop where
  | stays : ResumesInteractive machine kernel (false, kernel)
  | refused {refused : Kernel} (ready : kernel.interactiveChildCanResume = true)
      (inactive : kernel.suspended.parent.active = false)
      (refuses : SuspendRefused kernel refused) :
      ResumesInteractive machine kernel (false, refused)
  | resumes {kernel' : Kernel} {childPid : Nat} {frame : TrapFrame}
      (ready : kernel.interactiveChildCanResume = true)
      (resumes : Resumes machine kernel childPid
        kernel.suspended.interactiveChild.toSavedContext
        kernel.suspended.interactiveChildDescriptors frame resumedInteractive kernel') :
      ResumesInteractive machine kernel (true, kernel')

/-- The records of terminal processes are not moved when the server of the terminal is. -/
theorem stackRelay_eq_ok (done : kernel.stackRelay = .ok kernel') :
    ∃ stacked, kernel' = { kernel with suspended := stacked } ∧
      (if kernel.suspended.relayed then
        ∃ aside, kernel.suspended.stackAncestor = some aside ∧ stacked = aside.unrelay
      else stacked = kernel.suspended) ∧
      stacked.interactiveChild = kernel.suspended.interactiveChild ∧
      stacked.interactiveChildDescriptors = kernel.suspended.interactiveChildDescriptors := by
  rw [stackRelay] at done
  split at done
  next relayed =>
    split at done
    · cases done
    rename_i aside stacking
    cases done
    refine ⟨_, rfl, by rw [if_pos relayed]; exact ⟨aside, stacking, rfl⟩, ?_⟩
    rw [Suspended.stackAncestor] at stacking
    split at stacking
    · cases stacking
    · cases stacking
      exact ⟨rfl, rfl⟩
  next direct =>
    cases done
    exact ⟨_, rfl, by rw [if_neg direct], rfl, rfl⟩

theorem resumeInteractiveChildIfReady_spec (represents : kernel.arena.Represents blocks)
    (regular : kernel.suspended.parent.Regular)
    (done : kernel.resumeInteractiveChildIfReady machine = .ok result) :
    ResumesInteractive machine kernel result := by
  rw [resumeInteractiveChildIfReady] at done
  split at done
  · cases done
    exact .stays
  rename_i willing
  simp only [not_or, Bool.not_eq_false] at willing
  have idle : kernel.suspended.parent.active = false := by
    have ready := willing.1
    simp only [interactiveChildCanResume, Bool.and_eq_true, Bool.not_eq_true'] at ready
    exact ready.1.2
  split at done
  next refused keeping =>
    cases done
    exact .refused willing.1 idle (suspendRefused_of_descriptors idle regular keeping)
  rename_i kept keeping
  dsimp only at done
  split at done
  next refused refuses =>
    cases done
    exact .refused willing.1 idle (suspendRefused_of_suspendRunning represents keeping refuses)
  rename_i suspending suspends
  have suspends := suspends_of_suspendRunning keeping suspends
  obtain ⟨_, relays, done⟩ := Halting.bind_eq_ok.mp done
  obtain ⟨memory, loaded, done⟩ := Halting.bind_eq_ok.mp done
  obtain ⟨restored, restores, done⟩ := Halting.bind_eq_ok.mp done
  obtain ⟨arena, freed, same⟩ := Halting.bind_eq_ok.mp restores
  obtain ⟨stacked, rfl, moved, child, table⟩ := stackRelay_eq_ok relays
  rw [reloadIfReplaced_eq_ok] at loaded
  cases same
  dsimp only [resetDescriptors] at loaded freed done
  rw [child] at loaded freed done
  rw [table] at done
  generalize (if kernel.waitInterrupted then _ else _) = frame at done
  cases done
  cases id suspends
  exact .resumes willing.1 (.intro idle suspends ⟨stacked, moved, rfl⟩
    (loaded.imp And.right id) freed)

end Resuming
end Kernel
end Mikos.Process
