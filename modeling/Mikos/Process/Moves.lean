import Mathlib.Logic.Relation
import Mikos.Process.CallMoves
import Mikos.Process.InitialStack
import Mikos.Process.Switches

/-!
# Moves of the kernel

Every event is a sequence of small moves that leave the processes where they are, and at most
one change of the running process after them.
-/

namespace Mikos.Process
open Library Network Function
namespace Kernel
open Relation

/-! ## What calls do -/

/-- What an attempt to run another program does. -/
inductive Executes (machine : Machine) (kernel : Kernel) (path : Text)
    (arguments environment : List Text) : Bool × Kernel → Prop where
  | unchanged : Executes machine kernel path arguments environment (false, kernel)
  | unloaded (file : kernel.files path = some node)
      (loaded : loadExecutable machine kernel.files node
        (sameFile kernel.files busyboxPath node) kernel.memory = (none, memory)) :
      Executes machine kernel path arguments environment (false, { kernel with memory })
  | large (file : kernel.files path = some node)
      (loaded : loadExecutable machine kernel.files node
        (sameFile kernel.files busyboxPath node) kernel.memory = (some image, memory))
      (high : sameFile kernel.files busyboxPath node = false ∧
        userStackTop - heapReserve < image.brk) :
      Executes machine kernel path arguments environment
        (false,
          { kernel with
            memory
            context :=
              { kernel.context with brk := image.brk, mutableBegin := image.mutableBegin } })
  | replaced (file : kernel.files path = some node)
      (loaded : loadExecutable machine kernel.files node
        (sameFile kernel.files busyboxPath node) kernel.memory = (some image, memory))
      (mapped : mmapBegin = if sameFile kernel.files busyboxPath node then 0x81800000
        else alignUp (image.brk + heapReserve) 4096)
      (fits : sameFile kernel.files busyboxPath node = true ∨
        image.brk ≤ userStackTop - heapReserve) :
      Executes machine kernel path arguments environment
        (true,
          { kernel with
            memory := (makeInitialStack image arguments environment memory).2
            context :=
              { kernel.context with
                brk := image.brk
                mutableBegin := image.mutableBegin
                mmapBegin
                mmapCursor := mmapBegin
                frame := kernel.context.frame.start image.entry
                  (makeInitialStack image arguments environment memory).1
                image := tag
                executablePath := path.take (Path.capacity - 1) }
            imageReplaced := true })

/-- An attempt to change the running process that came to nothing, or one turn of a call that
waits. -/
inductive Attempt (machine : Machine) (kernel : Kernel) : Kernel → Prop where
  | channels (channels : Channels) : Attempt machine kernel { kernel with channels }
  | parksBackground (refused : ParksBackground machine kernel socket (false, kernel')) :
      Attempt machine kernel kernel'
  | parksInteractive (refused : ParksInteractive machine kernel waitPty waitEnd (false, kernel')) :
      Attempt machine kernel kernel'
  | resumesBackground (refused : ResumesBackground machine kernel (false, kernel')) :
      Attempt machine kernel kernel'
  | resumesInteractive (refused : ResumesInteractive machine kernel (false, kernel')) :
      Attempt machine kernel kernel'

abbrev Attempts (machine : Machine) : Kernel → Kernel → Prop := ReflTransGen (Attempt machine)

/-- A move that leaves every process where it is. -/
inductive Quiet (machine : Machine) (kernel : Kernel) : Kernel → Prop where
  | attempt (attempt : Attempt machine kernel kernel') : Quiet machine kernel kernel'
  | runs (moves : Running.Moves kernel.toRunning running) :
      Quiet machine kernel { kernel with toRunning := running }
  | signalsParent :
      Quiet machine kernel
        { kernel with
          suspended.parent.signals := kernel.suspended.parent.signals.queue signal }

abbrev Quiets (machine : Machine) : Kernel → Kernel → Prop := ReflTransGen (Quiet machine)

/-- What a call that may wait does. -/
inductive Waited (machine : Machine) (kernel : Kernel) : Outcome → Prop where
  | stays (quiet : Quiets machine kernel kernel') :
      Waited machine kernel { result, kernel := kernel' }
  | waits (attempts : Attempts machine kernel kernel') : Waited machine kernel kernel'.goesOn
  | parksBackground (attempts : Attempts machine kernel between)
      (parks : ParksBackground machine between socket (true, kernel')) :
      Waited machine kernel (kernel'.switched .parksBackground)
  | parksInteractive (attempts : Attempts machine kernel between)
      (parks : ParksInteractive machine between waitPty waitEnd (true, kernel')) :
      Waited machine kernel (kernel'.switched .parksInteractive)
  | resumesBackground (attempts : Attempts machine kernel between)
      (resumes : ResumesBackground machine between (true, kernel')) :
      Waited machine kernel (kernel'.switched .resumesBackground)
  | resumesInteractive (attempts : Attempts machine kernel between)
      (resumes : ResumesInteractive machine between (true, kernel')) :
      Waited machine kernel (kernel'.switched .resumesInteractive)

/-- What a system call does. -/
inductive Dispatched (machine : Machine) (kernel : Kernel) : Outcome → Prop where
  | stays (quiet : Quiets machine kernel kernel') :
      Dispatched machine kernel { result, kernel := kernel' }
  | waited (other : kernel.context.frame.number ≠ cloneSystemCall)
      (waited : Waited machine kernel outcome) : Dispatched machine kernel outcome
  | clones (number : kernel.context.frame.number = cloneSystemCall)
      (clones : Clones machine kernel (kernel.context.frame.argument 0)
        (kernel.context.frame.argument 1) (kernel.context.frame.argument 4) outcome) :
      Dispatched machine kernel outcome
  | executes (admissible : Admissible arguments) (admissible' : Admissible environment)
      (executes : Executes machine kernel path arguments environment (replaced, kernel')) :
      Dispatched machine kernel { result, kernel := kernel' }
  /-- A wait for children takes the entry of one. -/
  | reaps (outside : ∀ address, ¬ UserAddress address → memory address = kernel.memory address) :
      Dispatched machine kernel { result, kernel := { kernel with memory }.reap index }
  | regroups : Dispatched machine kernel
        { result := 0
          kernel :=
            { kernel with
              children := update kernel.children index
                { kernel.children index with processGroup }
              suspended.parent.childProcessGroup := childProcessGroup } }
  | ends {arena : SnapshotArena} (active : kernel.suspended.parent.active = true)
      (loaded : kernel.leaving.reloadIfReplaced machine
        kernel.suspended.parent.toSavedContext = .ok memory)
      (released : releaseSnapshot kernel.arena kernel.suspended.parent.snapshot = .ok arena) :
      Dispatched machine kernel
        { switch := .ends
          result := UInt32.ofNat kernel.suspended.parent.childPid
          kernel := (kernel.leaving.adoptParent machine memory arena status true true).reinstated }
  | startsStress (executes : Executes machine kernel stressPath stressArguments [] (true, kernel')) :
      Dispatched machine kernel { switch := .startsStress, result := 0, kernel := kernel' }

inductive Stepped (machine : Machine) (kernel : Kernel) : Event → Switch × Kernel → Prop where
  | quiet (quiets : Quiets machine kernel kernel')
      (same : kernel'.imageReplaced = kernel.imageReplaced) :
      Stepped machine kernel event (.stays, kernel')
  | trap (dispatched : Dispatched machine kernel outcome) :
      Stepped machine kernel (.call moment) (outcome.switch,
        if outcome.switch = .waits then outcome.kernel else outcome.kernel.finish outcome.result)

variable {machine : Machine} {kernel kernel' : Kernel} {moment : Moment} {outcome : Outcome}

/-! ## Programs -/

section Executing
variable {path : Text} {arguments environment : List Text} {result : Bool × Kernel}

theorem replaceWithExecutable_spec :
    Executes machine kernel path arguments environment
      (kernel.replaceWithExecutable machine path arguments environment) := by
  rw [replaceWithExecutable]
  split
  · exact .unchanged
  rename_i node file
  split
  · exact .unchanged
  dsimp only
  split
  next memory loaded => exact .unloaded file loaded
  rename_i image memory loaded
  split
  next high => exact .large file loaded high
  rename_i fits
  refine .replaced file loaded rfl ?_
  cases busybox : sameFile kernel.files busyboxPath node with
  | true => exact .inl rfl
  | false => exact .inr (by simpa [busybox] using fits)

theorem loadExecutable_inside
    (loaded : loadExecutable machine files node writableOnly memory = (some image, memory')) :
    image.Inside := by
  rw [loadExecutable] at loaded
  split at loaded
  · rw [loadPreloadedImage] at loaded
    split at loaded
    · cases loaded
    · exact loadImageFrom_inside loaded
  · rw [loadImage] at loaded
    split at loaded
    · cases loaded
    · exact loadImageFrom_inside loaded

theorem Executes.bounded (executes : Executes machine kernel path arguments environment result)
    (bounded : Bounded kernel.context) : Bounded result.2.context := by
  cases executes with
  | unchanged => exact bounded
  | unloaded file loaded => exact bounded
  | large file loaded =>
    have inside := loadExecutable_inside loaded
    exact ⟨inside.mutableBegin, inside.brk, bounded.mmapBegin, bounded.mmapCursor⟩
  | @replaced node image memory mmapBegin tag file loaded mapped fits =>
    have inside := loadExecutable_inside loaded
    have low := inside.brk.1
    have bottom : userBegin = 0x81000000 := rfl
    have top : userStackTop = 0x81fff000 := rfl
    have reserve : heapReserve = 0x80000 := rfl
    have range : userBegin ≤ mmapBegin ∧ mmapBegin ≤ userStackTop := by
      rw [mapped]
      split
      · decide
      rename_i other
      have room := fits.resolve_left other
      rw [alignUp, wrap_of_lt (by omega), alignDown]
      omega
    exact ⟨inside.mutableBegin, inside.brk, range.1, Nat.le_refl _, range.2⟩

end Executing

theorem Attempts.quiets (attempts : Attempts machine kernel kernel') :
    Quiets machine kernel kernel' :=
  ReflTransGen.mono (fun _ _ => .attempt) _ _ attempts

theorem quiets_of_moves (moves : Running.Moves kernel.toRunning running) :
    Quiets machine kernel { kernel with toRunning := running } :=
  .single (.runs moves)

/-! ## Calls that wait -/

/-- What the attempts to save a process rely on. -/
structure Healthy (kernel : Kernel) : Prop where
  represents : ∃ blocks, kernel.arena.Represents blocks
  orderly : kernel.suspended.Orderly

theorem Attempt.healthy (attempt : Attempt machine kernel kernel') (healthy : kernel.Healthy) :
    kernel'.Healthy := by
  obtain ⟨represents, orderly⟩ := healthy
  -- a process that could not be suspended leaves an empty record of a parent
  have suspends : ∀ {refused}, SuspendRefused kernel refused → refused.Healthy := by
    rintro _ ⟨idle, regular⟩
    exact ⟨represents, regular, orderly.interactiveParent, orderly.nested,
      orderly.interactiveChild, orderly.depth, orderly.background⟩
  cases attempt with
  | channels => exact ⟨represents, orderly⟩
  | parksBackground refused =>
    cases refused with
    | stays => exact ⟨represents, orderly⟩
    | refused free snapshot =>
      exact ⟨represents, orderly.parent, orderly.interactiveParent, orderly.nested,
        orderly.interactiveChild, orderly.depth, fun used => (Bool.false_ne_true used).elim⟩
  | parksInteractive refused =>
    cases refused with
    | stays => exact ⟨represents, orderly⟩
    | refused unused =>
      have empty : ({} : ParkedInteractiveChild).used = true ↔
          SnapshotAllocation.Valid ({} : ParkedInteractiveChild).snapshot := by decide
      exact ⟨represents, orderly.parent, orderly.interactiveParent, orderly.nested, empty,
        orderly.depth, orderly.background⟩
  | resumesBackground refused
  | resumesInteractive refused =>
    cases refused with
    | stays => exact ⟨represents, orderly⟩
    | refused ready idle refuses => exact suspends refuses

theorem Waited.after (attempt : Attempt machine kernel between)
    (waited : Waited machine between outcome) : Waited machine kernel outcome := by
  cases waited with
  | stays quiet => exact .stays (.head (.attempt attempt) quiet)
  | waits attempts => exact .waits (.head attempt attempts)
  | parksBackground attempts parks => exact .parksBackground (.head attempt attempts) parks
  | parksInteractive attempts parks => exact .parksInteractive (.head attempt attempts) parks
  | resumesBackground attempts resumes => exact .resumesBackground (.head attempt attempts) resumes
  | resumesInteractive attempts resumes =>
    exact .resumesInteractive (.head attempt attempts) resumes

/-- What a turn ends with is as the predicate says. -/
def Ends (Ended : Outcome → Prop) (turn : Halting Outcome) : Prop :=
  ∀ outcome, turn = .ok outcome → Ended outcome

/-- The running process changes, or the turn goes on in another way. -/
theorem Ends.change {Ended : Outcome → Prop} {next : Kernel → Halting Outcome}
    (succeeds : ∀ {after}, tries = .ok (true, after) → Ended (after.switched switch))
    (rest : ∀ {between}, tries = .ok (false, between) → Ends Ended (next between)) :
    Ends Ended (do
      match ← tries with
      | (true, kernel) => .ok (kernel.switched switch)
      | (false, kernel) => next kernel) := by
  intro outcome done
  obtain ⟨⟨changed, between⟩, tried, done⟩ := Halting.bind_eq_ok.mp done
  cases changed with
  | true =>
    cases done
    exact succeeds tried
  | false => exact rest tried _ done

/-- A turn of a call that may wait. -/
def Waits (machine : Machine) (kernel : Kernel) : Halting Outcome → Prop :=
  Ends (Waited machine kernel)

namespace Waits

theorem ok (waited : Waited machine kernel outcome) : Waits machine kernel (.ok outcome) := by
  rintro _ ⟨⟩
  exact waited

theorem unchanged : Waits machine kernel (.ok { result, kernel }) := ok (.stays .refl)

theorem waits : Waits machine kernel (.ok kernel.goesOn) := ok (.waits .refl)

theorem after (attempt : Attempt machine kernel between) (waits : Waits machine between turn) :
    Waits machine kernel turn := fun _ done => (waits _ done).after attempt

theorem change {Tried : Bool × Kernel → Prop} {next : Kernel → Halting Outcome}
    (spec : ∀ {result}, tries = .ok result → Tried result)
    (succeeds : ∀ {after}, Tried (true, after) → Waited machine kernel (after.switched switch))
    (fails : ∀ {between}, Tried (false, between) → Attempt machine kernel between)
    (rest : ∀ {between}, Attempt machine kernel between → Waits machine between (next between)) :
    Waits machine kernel (do
      match ← tries with
      | (true, kernel) => .ok (kernel.switched switch)
      | (false, kernel) => next kernel) :=
  Ends.change (fun tried => succeeds (spec tried)) fun tried =>
    after (fails (spec tried)) (rest (fails (spec tried)))

end Waits

theorem writeSockaddr_spec {running running' : Running}
    (written : running.writeSockaddr endpoint address lengthAddress = .ok running') :
    ∃ memory, running' = { running with memory } ∧
      ∀ place, ¬ UserAddress place → memory place = running.memory place := by
  rw [Running.writeSockaddr] at written
  split at written
  · cases written
    exact ⟨_, rfl, fun _ _ => rfl⟩
  split at written
  · cases written
  rename_i valid
  split at written
  · cases written
  cases written
  refine ⟨_, rfl, fun place outside => ?_⟩
  simp only [not_or, not_not, UserContains] at valid
  rw [UserAddress] at outside
  rw [put32, splice_outside (by omega), splice_outside (by omega)]

theorem waited_storeAccepted {target : Fin 16} : Waited machine kernel ({ kernel with
        channels.network := (kernel.channels.network.socketAccept handle).2 }.storeAccepted machine
          target (kernel.channels.network.socketAccept handle).1 address lengthAddress flags) := by
  rw [storeAccepted]
  split
  · exact .stays (quiets_of_moves (.same rfl rfl))
  next running written =>
    obtain ⟨memory, rfl, outside⟩ := writeSockaddr_spec written
    exact .stays (quiets_of_moves ⟨.refl _, outside⟩)

section Waiting
variable (healthy : kernel.Healthy)
include healthy

section
variable {next : Kernel → Halting Outcome}
  (rest : ∀ {between}, Attempt machine kernel between → Waits machine between (next between))
include rest

theorem waits_parkOr {socket : SocketHandle} :
    Waits machine kernel (kernel.parkOr machine socket moment next) := by
  obtain ⟨blocks, represents⟩ := healthy.represents
  exact .change (parkBackground_spec represents healthy.orderly.parent) (.parksBackground .refl)
    .parksBackground rest

theorem waits_parkInteractiveOr {which : PtyEnd} :
    Waits machine kernel (kernel.parkInteractiveOr machine handle which next) := by
  obtain ⟨blocks, represents⟩ := healthy.represents
  exact .change (parkInteractiveChild_spec represents healthy.orderly) (.parksInteractive .refl)
    .parksInteractive rest

theorem waits_resumeInteractiveOr :
    Waits machine kernel (kernel.resumeInteractiveOr machine next) := by
  obtain ⟨blocks, represents⟩ := healthy.represents
  exact .change (resumeInteractiveChildIfReady_spec represents healthy.orderly.parent)
    (.resumesInteractive .refl) .resumesInteractive rest

end

theorem waits_resumeOr {next : Kernel → Halting Outcome}
    (rest : ∀ {between : Kernel}, between.Healthy → Waits machine between (next between)) :
    Waits machine kernel (kernel.resumeOr machine next) := by
  refine waits_resumeInteractiveOr healthy fun attempt => ?_
  have healthy := attempt.healthy healthy
  obtain ⟨blocks, represents⟩ := healthy.represents
  exact .change (resumeBackgroundIfReady_spec represents healthy.orderly.parent)
    (.resumesBackground .refl) .resumesBackground fun attempt => rest (attempt.healthy healthy)

theorem waits_waitFor : Waits machine kernel (kernel.waitFor machine descriptor moment) := by
  rw [waitFor]
  split
  · exact waits_parkOr healthy fun _ => .waits
  · exact waits_parkInteractiveOr healthy fun _ => .waits
  · exact .waits

theorem waits_poll : Waits machine kernel (kernel.poll machine moment requested) := by
  refine waits_resumeOr healthy fun healthy => ?_
  split
  · exact .unchanged
  split
  · exact waits_waitFor healthy
  · exact .waits

theorem waits_ppoll :
    Waits machine kernel (kernel.ppoll machine moment address count timeout time64) := by
  rw [ppoll]
  split
  · exact .unchanged
  split
  · exact .unchanged
  split
  · exact .unchanged
  · exact waits_poll healthy

theorem waits_pselect6 : Waits machine kernel
      (kernel.pselect6 machine moment count readSet writeSet errorSet timeout time64) := by
  rw [pselect6]
  split
  · exact .unchanged
  split
  · exact .unchanged
  split
  · exact .unchanged
  split
  · exact .unchanged
  · exact waits_poll healthy

theorem waits_readSocket (user : UserContains address.toNat size.toNat) :
    Waits machine kernel (kernel.readSocket machine slot handle moment address size) := by
  rw [readSocket]
  split
  · exact .unchanged
  extract_lets turn
  -- A turn begins where an attempt to park or to resume has ended.
  have turns {kernel : Kernel} (healthy : kernel.Healthy) :
      Waits machine kernel (turn kernel) := by
    have move : Attempt machine kernel
        { kernel with
          channels := (kernel.channels.atNow machine fun now stack =>
            stack.socketRead now handle size.toNat).2 } :=
      .channels _
    refine .after move ?_
    dsimp only [turn]
    split
    · exact .ok (.stays (quiets_of_moves (.store .refl fun place =>
        Running.splice_user user (Nat.min_le_right ..) _ _)))
    · split
      · exact .unchanged
      · exact waits_parkOr (move.healthy healthy) fun _ => .waits
    · exact .unchanged
  split
  · exact waits_resumeInteractiveOr healthy fun attempt => turns (attempt.healthy healthy)
  · exact turns healthy

theorem waits_readVirtual :
    Waits machine kernel (kernel.readVirtual machine slot moment address size) := by
  rw [readVirtual]
  split
  · exact .unchanged
  split
  · exact .unchanged
  rename_i user
  rw [not_not] at user
  split
  · exact waits_readSocket healthy user
  · exact .unchanged
  · exact .unchanged
  · split
    · exact .unchanged
    split
    · exact .unchanged
    · exact waits_parkInteractiveOr healthy fun _ => .unchanged
  · exact .ok (.stays (quiets_of_moves (Running.moves_transferred ..)))
  · exact .ok (.stays (quiets_of_moves (Running.moves_transferred ..)))
  · exact .unchanged

theorem waits_read : Waits machine kernel (kernel.read machine moment descriptor address size) := by
  rw [read]
  split
  · split
    · exact .unchanged
    split
    · exact .unchanged
    split
    · exact .unchanged
    · exact waits_resumeOr healthy fun _ => .waits
  · split
    · exact .unchanged
    · exact waits_readVirtual healthy

theorem waits_accept : Waits machine kernel
      (kernel.accept machine moment descriptor address lengthAddress flags) := by
  rw [accept]
  split
  · exact .unchanged
  split
  · exact .unchanged
  rename_i handle _
  split
  · exact .unchanged
  split
  · exact .unchanged
  have move : Attempt machine kernel
      { kernel with channels.network := (kernel.channels.network.socketAccept handle).2 } :=
    .channels _
  dsimp only
  split
  · exact .ok waited_storeAccepted
  · refine .after move ?_
    split
    · exact .unchanged
    · exact waits_parkOr (move.healthy healthy) fun _ => .waits
  · exact .after move .unchanged

end Waiting
end Kernel
end Mikos.Process
