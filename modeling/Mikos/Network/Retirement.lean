import Mikos.Network.FlowRuns

/-!
# Connections without a holder end

The last `close` of a connection leaves it with the stack, which has to end both
streams before it may free the slot.  No caller will ever name the slot again, so
it must not reach a state that no timer ends.  `Retiring` lists the states it can
be in; every routine of the stack keeps to them, and for each of them the timers
free the slot once the user timeout is over.
-/

namespace Mikos.Network
open Library Function SocketTable Stack

theorem SlotInvariant.valid {pieces : Fin transmitCapacity → Option (UInt32 × List UInt8)}
    (invariant : SlotInvariant account value pieces) : Valid value where
  flags := invariant.flags
  free free := by
    have owned := invariant.owned
    rw [Owned, free] at owned
    exact owned.1
  orphan idle unclosed := by
    have owned := invariant.owned
    rw [Owned] at owned
    cases state : value.state <;> simp_all [isConnection]
  quiet := invariant.quiet

theorem Owned.attached (owned : Owned holders value) (held : 0 < holders) :
    value.detached = false := by
  rw [Owned] at owned
  cases state : value.state <;> simp_all <;> grind

namespace Stack
variable {driver : Nat → Bool} {stack first second : Stack} {i j : Fin socketCapacity}

/-! ## The timers of a detached slot -/

/-- Nothing of a slot is left. -/
structure Gone (index : Fin socketCapacity) (stack : Stack) : Prop where
  slot : stack.socket index = {}
  queued : ∀ position, stack.pendingAt index position = none
  stored : ∀ position, stack.sockets.storedAt index position = none

theorem Gone.spared (gone : Gone i first) (spares : Spares j first second) (apart : i ≠ j) :
    Gone i second where
  slot := (spares.sockets i apart).trans gone.slot
  queued place := (congrFun (spares.queued i apart) place).trans (gone.queued place)
  stored place := (congrFun (spares.stored i apart) place).trans (gone.stored place)

theorem storedAt_abort (value : SocketSlot) (place : Fin reassemblyCapacity) :
    (stack.abort i value).sockets.storedAt i place = none := by
  simp only [abort, storedAt, setSlot, clearReassembly]
  cases found : stack.sockets.reassembly place with
  | none => rfl
  | some stored =>
    obtain ⟨key, segment⟩ := stored
    dsimp only
    split
    · rfl
    next other => simp [Option.filter, other]

theorem Gone.release (linked : isConnection (stack.socket i).state = true)
    (last : (stack.socket i).references = 1) (drained : ∀ place, stack.pendingAt i place = none) :
    Gone i (stack.release (some i)) := by
  rcases release_forms linked with ⟨none, -⟩ | ⟨more, -⟩ | freed
  · rw [last] at none
    cases none
  · exact absurd last more
  · rw [freed]
    exact ⟨socket_abort _, drained, storedAt_abort _⟩

theorem Gone.failConnection (linked : isConnection (stack.socket i).state = true)
    (last : (stack.socket i).references = 1) (detached : (stack.socket i).detached = true) :
    Gone i (failConnection driver stack i) := by
  simp only [Stack.failConnection]
  rw [if_neg (ne_free_of_connection linked), if_pos (.inr detached)]
  have cleared : ∀ place, (stack.clearTransmissions (some i)).pendingAt i place = none := by
    intro place
    simp only [pendingAt, clearTransmissions]
    cases stack.transmissions place <;> simp [Option.filter]
    grind
  split
  · refine .release ?_ ?_ ?_
    · rw [sendSegment_socket]
      exact linked
    · rw [sendSegment_socket]
      exact last
    · simpa [pendingAt] using cleared
  · exact .release linked last cleared

theorem flushTimer_gone (driver : Nat → Bool) (valid : Valid (stack.socket i))
    (retiring : Retiring (stack.socket i)) (detached : (stack.socket i).detached = true)
    (drained : (stack.socket i).state = .timeWait → ∀ place, stack.pendingAt i place = none)
    (expired : tcpUserTimeout ≤ stack.now - (stack.socket i).timers.stateSince) :
    Gone i (flushTimer driver stack i) := by
  obtain ⟨last, states⟩ := retiring detached
  have flags := valid.flags
  rw [FlagsAgree] at flags
  obtain ⟨linked, alive, complete⟩ : isConnection (stack.socket i).state = true ∧
      (stack.socket i).state ≠ .reset ∧ (stack.socket i).state ≠ .synReceived := by
    rcases states with state | state | state | state | ⟨state, -⟩ <;> simp [state, isConnection]
  simp only [flushTimer]
  rw [if_neg (by simp [linked, alive])]
  split
  next waiting =>
    rw [if_pos (show tcpTimeWait ≤ _ from expired)]
    exact .release linked last (drained waiting)
  rename_i unfinished
  -- Our end of stream is not acknowledged, or the peer's is missing.
  have late : stack.timedOut (stack.socket i) = true := by
    rw [timedOut]
    rcases states with state | state | state | state | ⟨state, unacked⟩
    · rw [state] at flags
      simp [flags, expired]
    · simp [state, detached, show tcpFinWaitTimeout = tcpUserTimeout from rfl, expired]
    · rw [state] at flags
      simp [flags, expired]
    · exact absurd state unfinished
    · rw [state] at flags
      simp [flags, unacked, expired]
  rw [if_pos late]
  exact .failConnection linked last detached

/-! ## A poll -/

theorem failConnection_now : (failConnection driver stack i).now = stack.now := by
  simp only [failConnection]
  split
  · rfl
  split <;> split <;> simp [release, clearTransmissions]

theorem flushHandshake_now : (flushHandshake driver stack i).now = stack.now := by
  simp only [flushHandshake]
  split
  · exact failConnection_now
  split
  · split <;> simp [setSocket]
  · rfl

theorem sendFin_now : (sendFin driver stack i).now = stack.now := by
  simp only [sendFin]
  split
  · rfl
  generalize (if (stack.socket i).finSent = true then (stack.socket i).sendNext - 1
    else (stack.socket i).sendNext) = sequence
  split <;> simp [setSocket]

theorem queryWindow_now : (queryWindow driver stack i).now = stack.now := by
  simp only [queryWindow]
  split
  · split <;> simp [setSocket]
  · rfl

theorem flushTimer_now (driver : Nat → Bool) (stack : Stack) (i : Fin socketCapacity) :
    (flushTimer driver stack i).now = stack.now := by
  simp only [flushTimer]
  split
  · rfl
  split
  · split
    · split <;> rfl
    · rfl
  split
  · exact flushHandshake_now
  split
  · exact failConnection_now
  · rw [queryWindow_now]
    split
    · exact sendFin_now
    · rfl

theorem Gone.flushTimer (gone : Gone i stack) (j : Fin socketCapacity)
    (valid : Valid (stack.socket j)) : Gone i (flushTimer driver stack j) := by
  by_cases same : i = j
  · subst same
    simp only [Stack.flushTimer]
    rw [gone.slot, if_pos (.inl rfl)]
    exact gone
  · exact gone.spared (Works.flushTimer valid).toSpares same

theorem Gone.foldl (gone : Gone i stack) (indices : List (Fin socketCapacity))
    (valid : ∀ i, Valid (stack.socket i)) :
    Gone i (indices.foldl (Stack.flushTimer driver) stack) := by
  induction indices generalizing stack with
  | nil => exact gone
  | cons first rest ih =>
    have works : Works first stack (Stack.flushTimer driver stack first) :=
      .flushTimer (valid first)
    exact ih (gone.flushTimer first (valid first)) (works.progress valid).valid

theorem flushTimers_gone (valid : ∀ i, Valid (stack.socket i))
    (retiring : Retiring (stack.socket i)) (detached : (stack.socket i).detached = true)
    (drained : (stack.socket i).state = .timeWait → ∀ place, stack.pendingAt i place = none)
    (expired : tcpUserTimeout ≤ stack.now - (stack.socket i).timers.stateSince) :
    Gone i (flushTimers driver stack) := by
  have mem : i ∈ List.finRange socketCapacity := List.mem_finRange i
  rw [flushTimers]
  generalize List.finRange socketCapacity = indices at mem
  induction indices generalizing stack with
  | nil => cases mem
  | cons first rest ih =>
    have works : Works first stack (flushTimer driver stack first) := .flushTimer (valid first)
    have progress := works.progress valid
    rw [List.foldl_cons]
    by_cases same : first = i
    · subst same
      have gone := flushTimer_gone driver (valid first) retiring detached drained expired
      exact gone.foldl rest progress.valid
    have apart : i ≠ first := fun equal => same equal.symm
    have slot := works.sockets i apart
    refine ih progress.valid ?_ ?_ ?_ ?_ ((List.mem_cons.mp mem).resolve_left apart)
    · rw [slot]
      exact retiring
    · rw [slot]
      exact detached
    · rw [slot, works.queued i apart]
      exact drained
    · rw [slot, flushTimer_now]
      exact expired

theorem Gone.flushRetransmission (gone : Gone i stack) :
    Gone i (flushRetransmission driver stack) := by
  rw [Stack.flushRetransmission]
  generalize (List.finRange transmitCapacity).map _ = positions
  induction positions generalizing stack with
  | nil => exact gone
  | cons position rest ih =>
    rw [flushRetransmissionFrom]
    split
    · exact ih gone
    rename_i key pending queued
    have dropped : Gone i { stack with
        transmissions := update stack.transmissions position none } := by
      refine ⟨gone.slot, fun place => ?_, gone.stored⟩
      have empty := gone.queued place
      rw [pendingAt] at empty ⊢
      dsimp only
      by_cases here : place = position
      · rw [here, update_self]
        rfl
      · rwa [update_of_ne here]
    split
    next owner socket mine resolved =>
      obtain ⟨place, same, inUse, -⟩ := slot_eq_some.mp resolved
      split
      · exact ih dropped
      split
      · exact ih gone
      · cases mine.symm.trans same
        refine gone.spared (Tunes.retransmit driver stack queued mine).toSpares ?_
        rintro rfl
        exact inUse (congrArg SocketSlot.state gone.slot)
    · exact ih dropped

theorem flushAcknowledgement_socket (driver : Nat → Bool) (stack : Stack)
    (i j : Fin socketCapacity) :
    (∃ retries, (flushAcknowledgement driver stack i).socket j =
        { stack.socket j with acknowledgementRetries := retries }) ∧
      (flushAcknowledgement driver stack i).transmissions = stack.transmissions ∧
      (flushAcknowledgement driver stack i).now = stack.now := by
  simp only [flushAcknowledgement]
  split
  · exact ⟨⟨_, rfl⟩, rfl, rfl⟩
  split
  · by_cases same : j = i
    · subst same
      exact ⟨⟨_, socket_setSocket_self _⟩, by simp, by simp [setSocket]⟩
    · refine ⟨⟨(stack.socket j).acknowledgementRetries, ?_⟩, by simp, by simp [setSocket]⟩
      rw [socket_setSocket_of_ne same, sendSegment_socket]
  · refine ⟨⟨(stack.socket j).acknowledgementRetries, ?_⟩, by simp, by simp⟩
    rw [sendSegment_socket]

theorem flushAcknowledgements_socket (driver : Nat → Bool) (stack : Stack)
    (i : Fin socketCapacity) :
    (∃ retries, (flushAcknowledgements driver stack).socket i =
        { stack.socket i with acknowledgementRetries := retries }) ∧
      (flushAcknowledgements driver stack).transmissions = stack.transmissions ∧
      (flushAcknowledgements driver stack).now = stack.now := by
  rw [flushAcknowledgements]
  generalize List.finRange socketCapacity = indices
  induction indices generalizing stack with
  | nil => exact ⟨⟨_, rfl⟩, rfl, rfl⟩
  | cons first rest ih =>
    obtain ⟨⟨before, slot⟩, transmissions, now⟩ := flushAcknowledgement_socket driver stack first i
    obtain ⟨⟨retries, later⟩, queued, clock⟩ := ih (flushAcknowledgement driver stack first)
    rw [slot] at later
    exact ⟨⟨retries, later⟩, queued.trans transmissions, clock.trans now⟩

theorem poll_gone (valid : ∀ i, Valid (stack.socket i))
    (retiring : Retiring (stack.socket i)) (detached : (stack.socket i).detached = true)
    (drained : (stack.socket i).state = .timeWait → ∀ place, stack.pendingAt i place = none)
    (awake : stack.initialized = true) (up : stack.interface.flags &&& interfaceUp ≠ 0)
    {now : UInt64} (expired : tcpUserTimeout ≤ now - (stack.socket i).timers.stateSince) :
    Gone i (stack.poll driver now none) := by
  have ticked : Progress stack { stack with now } := .congr valid rfl rfl rfl
  have progress := flushAcknowledgements_progress driver ticked.valid
  obtain ⟨⟨retries, slot⟩, queued, clock⟩ :=
    flushAcknowledgements_socket driver { stack with now } i
  rw [poll_eq, if_neg (by simp [awake, up]), receiveFrame]
  generalize flushAcknowledgements driver { stack with now } = ready at progress slot queued clock
  have same : ∀ place, ready.pendingAt i place = stack.pendingAt i place := by
    intro place
    rw [pendingAt, pendingAt, queued]
  refine .flushRetransmission (flushTimers_gone progress.valid ?_ ?_ ?_ ?_)
  · rw [slot]
    exact retiring
  · rw [slot]
    exact detached
  · intro waiting place
    rw [slot] at waiting
    rw [same]
    exact drained waiting place
  · rw [slot, clock]
    exact expired

/-! ## Events -/

/-- Detached slots are ended by their timers, and there are connections only after
the stack was started. -/
structure Retires (stack : Stack) : Prop where
  retiring : ∀ index, Retiring (stack.socket index)
  awake : ∀ index, isConnection (stack.socket index).state = true → stack.initialized = true

namespace Retires
section
variable (retires : Retires first)
include retires

theorem slots
    (moved : ∀ i, Retiring (second.socket i) ∧ (isConnection (second.socket i).state = true →
      isConnection (first.socket i).state = true))
    (initialized : first.initialized = true → second.initialized = true) : Retires second :=
  ⟨fun i => (moved i).1, fun i linked => initialized (retires.awake i ((moved i).2 linked))⟩

theorem progress (progress : Progress first second) : Retires second := by
  refine retires.slots (fun i => ?_) (by rw [progress.initialized]; exact id)
  have outcome := progress.slots i
  refine ⟨outcome.retiring (retires.retiring i), fun linked => ?_⟩
  generalize second.socket i = after at outcome linked
  cases outcome with
  | develops develops => exact develops.state.connected linked
  | freed started => exact started

theorem call (sockets : second.sockets = first.sockets.setSlot i value)
    (initialized : second.initialized = first.initialized) (retiring : Retiring value)
    (linked : isConnection value.state = true → isConnection (first.socket i).state = true) :
    Retires second := by
  refine retires.slots (fun j => ?_) (by rw [initialized]; exact id)
  rw [socket, sockets]
  by_cases same : j = i
  · rw [same, setSlot_slots_self]
    exact ⟨retiring, linked⟩
  · rw [setSlot_slots_of_ne same]
    exact ⟨retires.retiring j, id⟩

theorem congr (sockets : second.sockets = first.sockets)
    (initialized : first.initialized = true → second.initialized = true) : Retires second := by
  refine retires.slots (fun i => ?_) initialized
  rw [socket, sockets]
  exact ⟨retires.retiring i, id⟩

end
end Retires

theorem handle_retiring (driver : Nat → Bool) (valid : ∀ i, Valid (stack.socket i))
    (frame : List UInt8) (retiring : ∀ i, Retiring (stack.socket i)) :
    (∀ i, Valid ((handle driver stack frame).2.socket i) ∧
        Retiring ((handle driver stack frame).2.socket i)) ∧
      (handle driver stack frame).2.initialized = stack.initialized := by
  have moved : ∀ {after : Stack}, Progress stack after →
      (∀ i, Valid (after.socket i) ∧ Retiring (after.socket i)) ∧
        after.initialized = stack.initialized := fun progress =>
    ⟨fun i => ⟨progress.valid i, (progress.slots i).retiring (retiring i)⟩, progress.initialized⟩
  have delivers := handle_delivers driver valid frame
  generalize (handle driver stack frame).2 = after at delivers
  cases delivers with
  | nothing rests => exact moved (.congr valid rests.sockets rests.interface rests.initialized)
  | connection view parsed i found works => exact moved (works.progress valid)
  | request view parsed missing requests =>
    cases requests with
    | nothing rests => exact moved (.congr valid rests.sockets rests.interface rests.initialized)
    | waiting listener i serving backlogged peer works => exact moved (works.progress valid)
    | opens listener i opens =>
      refine ⟨fun other => ?_, opens.initialized⟩
      by_cases same : other = i
      · rw [same]
        refine ⟨opens.valid, fun detached => ?_⟩
        rw [opens.held] at detached
        cases detached
      · rw [opens.sockets other same]
        exact ⟨valid other, retiring other⟩

theorem poll_retires (valid : ∀ i, Valid (stack.socket i)) (retires : Retires stack)
    (now : UInt64) (frame : Option (List UInt8)) : Retires (stack.poll driver now frame) := by
  rw [poll_eq]
  split
  · exact retires
  rename_i active
  simp only [not_or, Bool.not_eq_false] at active
  have ticked : Progress stack { stack with now } := .congr valid rfl rfl rfl
  have ready := ticked.trans (flushAcknowledgements_progress driver ticked.valid)
  generalize flushAcknowledgements driver { stack with now } = acknowledged at ready
  have received : (∀ i, Valid ((receiveFrame driver acknowledged frame).socket i) ∧
        Retiring ((receiveFrame driver acknowledged frame).socket i)) ∧
      (receiveFrame driver acknowledged frame).initialized = true := by
    have retiring := (retires.progress ready).retiring
    have awake := ready.initialized.trans active.1
    cases frame with
    | none => exact ⟨fun i => ⟨ready.valid i, retiring i⟩, awake⟩
    | some bytes =>
      obtain ⟨slots, initialized⟩ := handle_retiring driver ready.valid bytes retiring
      have noted := record_rests (handle driver acknowledged bytes).1
        (handle driver acknowledged bytes).2
      refine ⟨fun i => ?_, noted.initialized.trans (initialized.trans awake)⟩
      rw [receiveFrame, socket, noted.sockets]
      exact slots i
  obtain ⟨slots, awake⟩ := received
  have retired : Retires (receiveFrame driver acknowledged frame) :=
    ⟨fun i => (slots i).2, fun _ _ => awake⟩
  have timed := flushTimers_progress driver fun i => (slots i).1
  exact retired.progress (timed.trans (flushRetransmission_progress driver timed.valid))

/-- Giving back a handle frees a slot, or leaves it to its other holders. -/
theorem release_retires (retires : Retires first) (handle : SocketHandle)
    (sockets : second.sockets = (first.sockets.release handle).2)
    (initialized : second.initialized = first.initialized) : Retires second := by
  rcases first.sockets.release_cases handle with
    same | ⟨i, -, inUse, -, ⟨shared, less⟩ | ⟨-, -, freed⟩⟩
  · refine retires.congr (by rw [sockets, same]) (by rw [initialized]; exact id)
  · rw [less] at sockets
    exact retires.call sockets initialized
      (fun detached => absurd (retires.retiring i detached).1 shared) id
  refine retires.slots (fun j => ?_) (by rw [initialized]; exact id)
  rw [socket, sockets]
  by_cases same : j = i
  · rw [same, freed.self]
    exact ⟨.default, fun linked => by cases linked⟩
  rw [freed.others j same]
  split
  · exact ⟨.default, fun linked => by cases linked⟩
  · exact ⟨retires.retiring j, id⟩

end Stack

/-! ## Runs -/

open Stack
namespace Tracked
variable {driver : Nat → Bool} {tracked : Tracked} {history : List Transmission}

/-- A permitted event keeps detached slots on their way. -/
theorem retires_step (driver : Nat → Bool)
    (invariant : StackInvariant history tracked.accounts tracked.stack)
    (retires : Retires tracked.stack) (granted : tracked.Permits event) :
    Retires (tracked.step driver event).stack := by
  have valid : ∀ i, Valid (tracked.stack.socket i) := fun i => (invariant.slots i).valid
  cases event with
  | start device =>
    simp only [step, after, initializeStack]
    split
    · exact retires
    · cases device with
      | none => exact retires
      | some mac => exact retires.congr rfl fun _ => rfl
  | poll now frame => exact poll_retires valid retires now frame
  | ioctl request value =>
    simp only [step, after, ioctl]
    split
    · exact retires
    · exact retires.congr rfl id
  | «open» type =>
    rcases tracked.stack.sockets.open_cases type with same | ⟨i, free, opened⟩
    · exact retires.congr (by rw [step, after, socketOpen, same]) id
    simp only [step, after, socketOpen, opened]
    have empty : tracked.stack.sockets.slots i = {} := (valid i).free free
    rw [empty]
    refine retires.call rfl rfl ?_ ?_
    · intro detached
      cases detached
    · cases type <;> simp [isConnection]
  | retain handle =>
    rcases tracked.stack.sockets.retain_cases handle with
      same | ⟨i, named, inUse, -, retained⟩
    · exact retires.congr (by rw [step, after, socketRetain, same]) id
    have held := (granted i named).resolve_left inUse
    have attached := (invariant.slots i).owned.attached held
    simp only [step, after, socketRetain, retained]
    refine retires.call rfl rfl ?_ ?_
    · intro detached
      cases attached.symm.trans detached
    · exact id
  | close now handle =>
    obtain ⟨interface, initialized, same | freed | progress⟩ :=
      socketClose_cases driver valid now handle
    · exact retires.congr same (by rw [step, after, initialized]; exact id)
    · exact release_retires retires handle freed initialized
    · exact retires.progress progress
  | bind handle localEnd =>
    simp only [step, after, socketBind]
    split
    · exact retires
    rcases tracked.stack.sockets.bind_cases handle localEnd with
      same | ⟨i, chosen, created, -, -, bound⟩
    · exact retires.congr same id
    rw [bound]
    refine retires.call rfl rfl ?_ ?_
    · intro detached
      have states := (retires.retiring i detached).2
      simp [socket, created] at states
    · intro linked
      cases linked
  | listen handle backlog =>
    simp only [step, after, socketListen]
    rcases tracked.stack.sockets.listen_cases handle backlog with
      same | ⟨i, room, named, -, listening⟩
    · exact retires.congr same id
    rw [listening]
    refine retires.call rfl rfl ?_ ?_
    · intro detached
      have states := (retires.retiring i detached).2
      rcases named with state | state <;> simp [socket, state] at states
    · intro linked
      cases linked
  | accept handle =>
    rcases tracked.stack.sockets.accept_cases handle with ⟨-, same⟩ | ⟨i, -, -, taken⟩
    · exact retires.congr (by rw [step, after, socketAccept, same]) id
    simp only [step, after, socketAccept, taken]
    refine retires.call rfl rfl ?_ ?_
    · exact retires.retiring i
    · exact id
  | read now handle size => exact retires.progress (socketRead_progress valid now handle size)
  | write now handle input => exact retires.progress (socketWrite_progress valid now handle input)
  | shutdown now handle how => exact retires.progress (socketShutdown_progress valid now handle how)

/-- After every run timers can end the detached slots. -/
theorem retires_run (disciplined : Disciplined driver .initial events) :
    Retires (run driver .initial events).stack := by
  induction events using List.reverseRecOn with
  | nil => exact ⟨fun _ => .default, fun _ linked => by cases linked⟩
  | append_singleton events event ih =>
    obtain ⟨earlier, granted, -⟩ := disciplined_append.mp disciplined
    obtain ⟨history, invariant⟩ := invariant_run earlier
    rw [run_concat]
    exact retires_step driver invariant (ih earlier) granted

end Tracked

open Tracked

/-- A connection that lost its last holder is in a state that the timers end, and
while the interface is up, one poll does end it once the user timeout is over,
whether or not the driver takes what is sent. -/
theorem detached_freed (driver : Nat → Bool) (events : List StackEvent)
    (disciplined : Disciplined driver .initial events) (index : Fin socketCapacity)
    (detached : ((run driver .initial events).stack.socket index).detached = true) :
    let stack := (run driver .initial events).stack
    ((stack.socket index).state = .finWait1 ∨ (stack.socket index).state = .finWait2 ∨
        (stack.socket index).state = .closing ∨ (stack.socket index).state = .timeWait ∨
        (stack.socket index).state = .lastAck ∧ (stack.socket index).finAcked = false) ∧
      ∀ answers now, stack.interface.flags &&& interfaceUp ≠ 0 →
        tcpUserTimeout ≤ now - (stack.socket index).timers.stateSince →
        Gone index (stack.poll answers now none) := by
  obtain ⟨history, invariant⟩ := invariant_run disciplined
  have retires := retires_run disciplined
  generalize (run driver .initial events).stack = stack at invariant retires detached ⊢
  have states := (retires.retiring index detached).2
  have connected : isConnection (stack.socket index).state = true := by
    rcases states with state | state | state | state | ⟨state, -⟩ <;> rw [state] <;> rfl
  refine ⟨states, fun answers now up expired => ?_⟩
  refine poll_gone (fun index => (invariant.slots index).valid) (retires.retiring index) detached
    (fun waiting position => ?_) (retires.awake index connected) up expired
  have slot := invariant.slots index
  have flags := slot.flags
  rw [FlagsAgree, waiting] at flags
  obtain ⟨-, -, empty⟩ := slot.acknowledged (by simp [waiting]) flags.2.2.2.1
  simpa [pieces] using empty position

/-- A peer connects; the connection is accepted and closed at once. -/
def abandoning : List StackEvent :=
  .start (some {}) :: listening ++ connecting 0x4d494b50 ++ [.accept (some 0), .close 0 (some 1)]

/-- The connection is gone once its time is over. -/
theorem detached_freed_abandoning :
    Gone 1 ((run (fun _ => false) .initial abandoning).stack.poll (fun _ => false)
      tcpUserTimeout none) := by
  refine (detached_freed (fun _ => false) abandoning ?_ 1 ?_).2 (fun _ => false) tcpUserTimeout
    ?_ ?_ <;> decide +kernel

/-- The interface is switched off: no poll does anything. -/
theorem detached_disabled :
    let disabling := abandoning ++ [.ioctl 0x8914 ⟨[0x65, 0x74, 0x68, 0x30, 0], [0, 0]⟩]
    let stack := (run (fun _ => true) .initial disabling).stack
    Disciplined (fun _ => true) .initial disabling ∧ (stack.socket 1).detached = true ∧
      tcpUserTimeout ≤ tcpUserTimeout - (stack.socket 1).timers.stateSince ∧
      ((stack.poll (fun _ => true) tcpUserTimeout none).socket 1).state ≠ .free := by
  decide +kernel

end Mikos.Network
