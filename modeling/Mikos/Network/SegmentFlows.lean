import Mikos.Network.Flows

/-!
# Segments of one flow

The routines that take a segment from the peer of a slot, and those that send one to it.
-/

namespace Mikos.Network
open Library
namespace Stack
variable {driver : Nat → Bool} {stack first second third : Stack}
  {i j : Fin socketCapacity}

/-- A routine that changes of its slot only what the transport sees. -/
structure Tunes (index : Fin socketCapacity) (before after : Stack) : Prop
    extends Spares index before after where
  own : Adjusts (before.socket index) (after.socket index)

namespace Tunes

theorem rest (i : Fin socketCapacity) (rests : Rests first second) : Tunes i first second :=
  ⟨.rest i rests, by
    rw [socket, socket, rests.sockets]
    exact .refl _⟩

theorem refl (i : Fin socketCapacity) (stack : Stack) : Tunes i stack stack := .rest i .refl

theorem trans (left : Tunes i first second) (right : Tunes i second third) : Tunes i first third :=
  ⟨left.toSpares.trans right.toSpares, left.own.trans right.own⟩

theorem works (tunes : Tunes i first second) (valid : Valid (first.socket i))
    (inUse : (first.socket i).state ≠ .free) : Works i first second :=
  ⟨tunes.toSpares, .develops (tunes.own.develops valid inUse)⟩

theorem setSocket (adjusts : Adjusts (stack.socket i) value) :
    Tunes i stack (stack.setSocket i value) :=
  ⟨.setSocket i stack value, by
    rw [socket_setSocket_self]
    exact adjusts⟩

section
variable (i : Fin socketCapacity) (stack : Stack)

theorem countDuplicate (ack : UInt32) : Tunes i stack (countDuplicate stack i ack) := by
  simp only [Stack.countDuplicate]
  split
  · refine trans (.setSocket .tune) ⟨.requeue fun j apart place => ?_, .refl _⟩
    simp only [pendingAt, setSocket_transmissions]
    cases stack.transmissions place with
    | none => rfl
    | some entry =>
      dsimp only
      split
      next mine => simp [Option.filter, mine.1, apart.symm]
      · rfl
  · exact .setSocket .tune

theorem acknowledgeTransmissions (ack : UInt32) :
    Tunes i stack (acknowledgeTransmissions stack i ack) := by
  simp only [Stack.acknowledgeTransmissions]
  split
  · exact .refl i stack
  generalize stack.sampledTimers i ack = timers
  refine trans (.setSocket .tune) ⟨.requeue fun j apart place => ?_, .refl _⟩
  simp only [pendingAt, setSocket_transmissions, StackInvariant.acknowledged_of_ne apart]

theorem updateWindow (view : TcpView) : Tunes i stack (updateWindow stack i view) := by
  simp only [Stack.updateWindow]
  split
  · exact .setSocket .tune
  · exact .refl i stack

theorem handleAcknowledgement (view : TcpView) (length : Nat) :
    Tunes i stack (handleAcknowledgement stack i view length) := by
  simp only [Stack.handleAcknowledgement]
  split
  · refine trans (trans ?_ (.acknowledgeTransmissions i _ _)) (.updateWindow i _ view)
    split
    · exact .countDuplicate i stack _
    · exact .setSocket .tune
  · exact .refl i stack

end
end Tunes

namespace Works

/-- The acknowledgement of our end of stream; the slot stays in use unless the
routine tells otherwise. -/
theorem handleFinAcknowledged (valid : Valid (stack.socket i))
    (linked : isConnection (stack.socket i).state = true) (alive : (stack.socket i).state ≠ .reset)
    (active : (stack.socket i).state ≠ .timeWait) (ack : UInt32) :
    Works i stack (handleFinAcknowledged stack i ack).1 ∧
      ((handleFinAcknowledged stack i ack).2 = false →
        ((handleFinAcknowledged stack i ack).1.socket i).state ≠ .free) := by
  have inUse := ne_free_of_connection linked
  have flags := valid.flags
  simp only [Stack.handleFinAcknowledged]
  split
  next acknowledged =>
    have state := flags.finished linked alive active acknowledged.1
    rw [FlagsAgree] at flags
    split
    next closed =>
      split
      next first =>
        refine ⟨?_, fun _ => ?_⟩
        · rw [Stack.enterTimeWait, setSocket_setSocket, socket_setSocket_self]
          refine .setSocket (.advance linked (.inl rfl) rfl ?_ (by simp [isSynchronized]) ?_)
          · rcases state with state | state | state | state <;> rw [state] at flags <;>
              simp_all [FlagsAgree]
          · intro retiring detached
            exact ⟨(retiring detached).1, .inr (.inr (.inr (.inl rfl)))⟩
        · simp [Stack.enterTimeWait]
      rename_i passive
      have last : (stack.socket i).state = .lastAck := by
        rcases state with state | state | state | state <;> rw [state] at flags <;> simp_all
      split
      next detached =>
        refine ⟨releaseFrom (.setSocket i stack _) linked ?_ fun references more => ?_, by simp⟩
        · rw [socket_setSocket_self]
          exact linked
        rw [socket_setSocket_self] at more ⊢
        refine .advance linked (.inl linked) rfl ?_ valid.quiet fun retiring gone => ?_
        · rw [last] at flags
          simpa [FlagsAgree, last] using flags
        · exact absurd (retiring gone).1 more
      rename_i held
      refine ⟨.setSocket (.advance linked (.inl linked) rfl ?_ valid.quiet ?_), fun _ => ?_⟩
      · rw [last] at flags
        simpa [FlagsAgree, last] using flags
      · exact fun _ gone => absurd gone held
      · rwa [socket_setSocket_self]
    rename_i unclosed
    split
    next first =>
      rw [first] at flags
      refine ⟨?_, fun _ => ?_⟩
      · rw [setSocket_setSocket]
        refine .setSocket (.advance linked (.inl rfl) rfl ?_ (by simp [isSynchronized]) ?_)
        · simp [FlagsAgree, flags, acknowledged.1]
        · intro retiring detached
          exact ⟨(retiring detached).1, .inr (.inl rfl)⟩
      · simp
    rename_i later
    have second : (stack.socket i).state = .finWait2 := by
      rcases state with state | state | state | state <;> rw [state] at flags <;> simp_all
    refine ⟨.setSocket (.advance linked (.inl linked) rfl ?_ valid.quiet ?_), fun _ => ?_⟩
    · rw [second] at flags
      simp [FlagsAgree, second, flags]
    · exact fun retiring gone => ⟨(retiring gone).1, .inr (.inl second)⟩
    · rwa [socket_setSocket_self]
  · exact ⟨.refl valid, fun _ => inUse⟩

theorem received {sockets : SocketTable} (valid : Valid (stack.socket i))
    (synced : isSynchronized (stack.socket i).state = true)
    (others : ∀ other ≠ i, sockets.slots other = stack.sockets.slots other)
    (stored : SocketTable.StoreApart i stack.sockets sockets)
    (received : Received (stack.socket i) (sockets.slots i)) :
    Works i stack { stack with sockets } :=
  ⟨⟨others, fun _ _ => rfl, stored, rfl, rfl⟩, .develops (.received valid synced received)⟩

section
variable (valid : Valid (stack.socket i))
include valid

section
variable (inUse : (stack.socket i).state ≠ .free)
include inUse

theorem receive (sequence : UInt32) (data : List UInt8) (finish : Bool) :
    let after := { stack with
      sockets := (stack.sockets.receive (some i) sequence data finish).2 }
    Works i stack after ∧ (after.socket i).state ≠ .free ∧
      ((stack.socket i).receiveClosed = false → (after.socket i).receiveClosed = true →
        (after.socket i).finAcked = true → (after.socket i).state = .timeWait) := by
  have stored := SocketTable.StoreApart.receive stack.sockets i sequence data finish
  rcases stack.sockets.receive_cases (some i) sequence data finish with
    same | ⟨_, same, alive, linked, complete, -, taken⟩
  · rw [same]
    refine ⟨.refl valid, inUse, fun unclosed closed _ => ?_⟩
    rw [show (stack.socket i).receiveClosed = true from closed] at unclosed
    cases unclosed
  cases same
  have synced := isSynchronized_of_connection linked complete alive
  refine ⟨received valid synced taken.others stored taken.received, ?_, ?_⟩
  · exact ne_free_of_synchronized (taken.received.isSynchronized synced)
  · exact taken.received.timeWait valid.flags synced

theorem noteFinished (ended : wasClosed = false → (stack.socket i).receiveClosed = true →
      (stack.socket i).finAcked = true → (stack.socket i).state = .timeWait) :
    Works i stack (stack.noteFinished i wasClosed) ∧
      ((stack.noteFinished i wasClosed).socket i).state = (stack.socket i).state := by
  simp only [Stack.noteFinished]
  split
  next ends =>
    have timeWait := ended ends.1 ends.2.1 ends.2.2
    refine ⟨.adjust valid inUse ?_, ?_⟩
    · exact ⟨rfl, timeWait.symm, rfl, rfl, rfl, rfl, rfl, rfl, rfl, .inl rfl⟩
    · rw [Stack.enterTimeWait, socket_setSocket_self]
      exact timeWait.symm
  · exact ⟨.refl valid, rfl⟩

theorem handlePayload (view : TcpView) : Works i stack (handlePayload driver stack i view) := by
  simp only [Stack.handlePayload]
  split
  · obtain ⟨taken, inUse, ended⟩ := receive valid inUse view.tcp.sequence view.payload
      (flagged view tcpFin)
    obtain ⟨noted, state⟩ := noteFinished taken.valid inUse ended
    refine (taken.trans noted).trans (.adjustFlush noted.valid (by rwa [state]) ?_)
    refine ⟨rfl, rfl, rfl, rfl, rfl, rfl, rfl, rfl, rfl, ?_⟩
    split
    · exact .inr rfl
    · exact .inl rfl
  · exact .refl valid

end

theorem handleSegment (linked : isConnection (stack.socket i).state = true)
    (alive : (stack.socket i).state ≠ .reset) (active : (stack.socket i).state ≠ .timeWait)
    (view : TcpView) : Works i stack (handleSegment driver stack i view) := by
  have inUse := ne_free_of_connection linked
  simp only [Stack.handleSegment]
  split
  · exact .refl valid
  split
  · exact .challengeAck valid inUse
  generalize view.payload.length + (flagged view tcpFin).toNat = length
  have tunes := Tunes.handleAcknowledgement i stack view length
  have acknowledged := tunes.works valid inUse
  obtain ⟨finished, kept⟩ := handleFinAcknowledged acknowledged.valid
    (by rwa [tunes.own.state]) (by rwa [tunes.own.state]) (by rwa [tunes.own.state])
    view.tcp.acknowledgement
  split
  · exact acknowledged.trans finished
  rename_i going
  have taken : Works i _ (Stack.handlePayload driver _ i view) :=
    handlePayload finished.valid (kept (by simpa using going)) view
  have whole := (acknowledged.trans finished).trans taken
  split
  next closing =>
    exact whole.trans
      (.sendFin taken.valid (taken.valid.flags.unsent closing.1 closing.2) closing.1)
  · exact whole

theorem handleHandshake (halfOpen : (stack.socket i).state = .synReceived) (view : TcpView) :
    Works i stack (handleHandshake driver stack i view) := by
  simp only [Stack.handleHandshake]
  split
  · exact .sent valid
  split
  · exact .refl valid
  split
  · exact .refl valid
  rename_i established
  rcases stack.sockets.establish_cases (some i) view.tcp.acknowledgement with
    ⟨refused, -⟩ | ⟨_, same, already, -⟩ | ⟨_, same, -, -, moved⟩
  · exact absurd refused established
  · cases same
    rw [show (stack.sockets.slots i).state = .synReceived from halfOpen] at already
    simp at already
  cases same
  rw [moved]
  have flags := valid.flags
  rw [FlagsAgree, halfOpen] at flags
  have stored : Works i stack (stack.setSocket i
      { stack.socket i with
        state := .established
        sendUnacknowledged := view.tcp.acknowledgement }) := by
    refine .setSocket (.advance (by rw [halfOpen]; rfl) (.inl rfl) rfl ?_
      (by simp [isSynchronized]) fun retiring detached => ?_)
    · exact flags
    · have ending := (retiring detached).2
      rw [halfOpen] at ending
      simp at ending
  refine stored.trans (.handleSegment stored.valid ?_ ?_ ?_ view) <;>
    rw [socket_setSocket_self] <;> simp [isConnection]

theorem handleConnection (linked : isConnection (stack.socket i).state = true) (view : TcpView) :
    Works i stack (handleConnection driver stack i view) := by
  have inUse := ne_free_of_connection linked
  simp only [Stack.handleConnection]
  split
  · exact .refl valid
  rename_i alive
  split
  · exact .handleReset valid linked _
  split
  next waiting =>
    split
    · have restarted : Works i stack (stack.setSocket i
          { stack.socket i with timers.stateSince := stack.now }) :=
        .adjust valid inUse .tune
      refine restarted.trans (.challengeAck restarted.valid ?_)
      rwa [socket_setSocket_self]
    · exact .refl valid
  rename_i active
  split
  next halfOpen => exact .handleHandshake valid halfOpen view
  · split
    · exact .challengeAck valid inUse
    · exact .handleSegment valid linked alive active view

end
end Works

/-! ### Sending -/

namespace Tunes
section
variable (driver : Nat → Bool) (i : Fin socketCapacity)

theorem sent (stack : Stack) (owner : SocketHandle) (value : SocketSlot) (flags : UInt8)
    (payload : List UInt8) (sequence : UInt32) :
    Tunes i stack (sendSegment driver stack owner value flags payload sequence).2 :=
  .rest i sendSegment_rests

theorem queueTransmission (stack : Stack)
    (flags : UInt8) (payload : List UInt8) (sequence : UInt32) :
    Tunes i stack (queueTransmission driver stack i flags payload sequence).2 := by
  simp only [Stack.queueTransmission]
  split
  · exact .refl i stack
  split
  · exact .refl i stack
  rename_i position found
  have vacant : stack.transmissions position = none := by simpa using List.find?_some found
  split
  · refine (sent driver i stack _ _ _ _ _).trans ⟨.requeue fun j apart place => ?_, .refl _⟩
    by_cases same : place = position
    · subst same
      simp [pendingAt, vacant, Option.filter, apart.symm]
    · simp [pendingAt, same]
  · exact sent driver i stack _ _ _ _ _

theorem writeLoop (input : List UInt8) (available fuel : Nat) (stack : Stack) (written : Nat) :
    Tunes i stack (writeLoop driver i input available fuel stack written).2 := by
  induction fuel generalizing stack written with
  | zero => exact .refl i stack
  | succ fuel ih =>
    simp only [Stack.writeLoop]
    split
    · have queued := queueTransmission driver i stack (tcpAck ||| tcpPsh)
      split
      · exact ((queued _ _).trans (.setSocket .tune)).trans (ih _ _)
      · exact queued _ _
    · exact .refl i stack

end

theorem restartIdle (i : Fin socketCapacity) (stack : Stack) :
    Tunes i stack (stack.restartIdle i) := by
  simp only [Stack.restartIdle]
  split
  · exact .setSocket .tune
  · exact .refl i stack

theorem awaitWindow (i : Fin socketCapacity) (stack : Stack) :
    Tunes i stack (stack.awaitWindow i) := by
  simp only [Stack.awaitWindow]
  split
  · exact .setSocket .tune
  · exact .refl i stack

theorem answerRequest (driver : Nat → Bool) (i : Fin socketCapacity) (stack : Stack)
    (view : TcpView) : Tunes i stack (answerRequest driver stack i view) := by
  simp only [Stack.answerRequest]
  have offered : Tunes i stack (stack.setSocket i
      (stack.offeredSocket (stack.socket i) view)) := .setSocket .tune
  refine (offered.trans (sent driver i _ _ _ _ _ _)).trans (.setSocket ?_)
  rw [sendSegment_socket, socket_setSocket_self]
  exact .tune

/-- The oldest segment of a connection is sent again, in the place it has. -/
theorem retransmit (driver : Nat → Bool) (stack : Stack)
    (queued : stack.transmissions position = some (key, pending)) (mine : key.handle = some i) :
    Tunes i stack (retransmit driver stack position i key pending) := by
  simp only [Stack.retransmit]
  generalize (if (sendSegment driver stack _ _ _ _ _).1 then _ else _ : TransmitSegment) = entry
  generalize slows : (if (sendSegment driver stack _ _ _ _ _).1 = true ∧
    pending.fastRetry = false ∧ (stack.socket i).flow.peerWindow ≠ 0 then _ else _ : Stack) =
    slowed
  have sent : Tunes i stack (sendSegment driver stack (some i) (stack.socket i)
      pending.flags (pending.data.take (min pending.data.length
        (max 1 (stack.socket i).flow.peerWindow).toNat)) key.sequence).2 :=
    sent driver i stack _ _ _ _ _
  have tuned : Tunes i stack slowed ∧ slowed.transmissions = stack.transmissions := by
    rw [← slows]
    split
    · refine ⟨sent.trans (.setSocket ?_), by simp⟩
      rw [sendSegment_socket]
      exact .tune
    · exact ⟨sent, by simp⟩
  refine tuned.1.trans ⟨⟨fun _ _ => rfl, fun j apart => funext fun place => ?_,
    fun _ _ => rfl, rfl, rfl⟩, .refl _⟩
  rw [pendingAt, pendingAt, tuned.2]
  by_cases same : place = position
  · subst same
    simp [queued, mine, Option.filter, apart.symm]
  · simp [same]

end Tunes
end Stack
end Mikos.Network
