import Mikos.Network.StackSteps

/-!
# Incoming segments keep the invariant

An acknowledgement moves the start of a flight before the flags of its end of
stream are updated, so the invariant of the slot is broken between the two.
`Acknowledging` is what holds there.  With it the treatment of a segment follows
the stack: acknowledgement, end of our stream, payload, end of the peer's stream.
-/

namespace Mikos.Network
open Library Stack

/-- The stack while it takes in an acknowledgement for a connection: all but the
acknowledgement of our end of stream is up to date. -/
structure Acknowledging (history : List Transmission)
    (accounts : Fin socketCapacity → Account) (stack : Stack)
    (index : Fin socketCapacity) (ack : UInt32) : Prop where
  base : ∃ before, StackInvariant history accounts before ∧ Touches index before stack
  synchronized : isSynchronized (stack.socket index).state = true
  flags : FlagsAgree (stack.socket index)
  owned : Owned (accounts index).holders (stack.socket index)
  empty : (stack.socket index).accepted = false → (accounts index).accepted = []
  positive : (stack.socket index).flow.peerMss ≠ 0
  recorded : Recorded (accounts index) (stack.socket index)
    (stack.sentBy index (accounts index).begun)
  flight : ∃ acked, Flight (accounts index) (stack.socket index) (stack.pieces index) acked ∧
    ((stack.socket index).finAcked = true → acked = (accounts index).accepted.length + 1) ∧
    (acked = (accounts index).accepted.length + 1 → ack ≠ (stack.socket index).sendNext →
      (stack.socket index).finAcked = true) ∧
    (ack = (stack.socket index).sendNext → acked =
      (accounts index).accepted.length + (stack.socket index).finSent.toNat)

namespace Acknowledging
variable {driver : Nat → Bool} {history : List Transmission}
  {accounts : Fin socketCapacity → Account} {stack after : Stack} {i : Fin socketCapacity}
  {ack : UInt32}

section
variable (invariant : StackInvariant history accounts stack)
  (synced : isSynchronized (stack.socket i).state = true)
include invariant synced

theorem ofInvariant
    (current : ack = (stack.socket i).sendNext → (stack.socket i).sendUnacknowledged = ack) :
    Acknowledging history accounts stack i ack := by
  have slot := invariant.slots i
  obtain ⟨acked, flight, finished⟩ := slot.flight synced
  refine ⟨⟨stack, invariant, .refl i stack⟩, synced, slot.flags, slot.owned,
    slot.accepted_nil synced, slot.positive, invariant.records i,
    acked, flight, finished.mp, fun all _ => finished.mpr all, fun same => ?_⟩
  exact flight.unacknowledged_eq_next.mp ((current same).trans same)

theorem acknowledge (reached : 0 ≤ serialDistance ack (stack.socket i).sendUnacknowledged)
    (behind : serialDistance ack (stack.socket i).sendNext ≤ 0) :
    Acknowledging history accounts (acknowledgeTransmissions stack i ack) i ack := by
  have slot := invariant.slots i
  rcases StackInvariant.acknowledgeTransmissions_cases stack i ack with
    ⟨old, same⟩ | ⟨ahead, touches, log, tuned, pieces⟩
  · rw [same]
    have exact_ : ack = (stack.socket i).sendUnacknowledged := serialDistance_eq_zero.mp (by omega)
    exact ofInvariant invariant synced fun _ => exact_.symm
  obtain ⟨acked, flight, finished⟩ := slot.flight synced
  obtain ⟨count, -, moved⟩ := flight.acknowledge ahead behind
  have bound := moved.bound
  have meets := moved.unacknowledged_eq_next
  have fin := (stack.socket i).finSent.toNat_le
  dsimp only at bound meets
  have still : isSynchronized ((acknowledgeTransmissions stack i ack).socket i).state = true := by
    rwa [tuned.state]
  refine ⟨⟨stack, invariant, touches⟩, still, tuned.flags slot.flags,
    slot.owned.moved synced still tuned.accepted tuned.detached tuned.references
      tuned.listener (by rw [tuned.state]; exact slot.owned.waiting synced),
    ?_, ?_, ?_, acked + count, ?_, ?_, ?_, ?_⟩
  · rw [tuned.accepted]
    exact slot.accepted_nil synced
  · exact tuned.positive slot.positive
  · rw [sentBy, log]
    exact (invariant.records i).congr (by rw [tuned.state]; exact id)
      (by rw [tuned.finSent]; exact id)
  · rw [pieces]
    exact moved.congr tuned.sendNext tuned.sendUnacknowledged tuned.finSent
  · rw [tuned.finAcked]
    intro done
    have := finished.mp done
    omega
  · rw [tuned.sendNext]
    intro all apart
    exact absurd (meets.mpr (by omega)) apart
  · rw [tuned.sendNext, tuned.finSent]
    exact meets.mp

end

theorem tune (pending : Acknowledging history accounts stack i ack)
    (tuned : Tuned (stack.socket i) value) :
    Acknowledging history accounts (stack.setSocket i value) i ack := by
  obtain ⟨before, invariant, touches⟩ := pending.base
  obtain ⟨acked, flight, done, missing, current⟩ := pending.flight
  refine ⟨⟨before, invariant, touches.trans (.setSocket i stack value)⟩, ?_, ?_, ?_, ?_, ?_,
    ?_, acked, ?_, ?_, ?_, ?_⟩ <;> simp only [socket_setSocket_self, setSocket_pieces,
      setSocket_sentBy]
  · rw [tuned.state]
    exact pending.synchronized
  · exact tuned.flags pending.flags
  · exact tuned.owned (ne_free_of_synchronized pending.synchronized) pending.owned
  · rw [tuned.accepted]
    exact pending.empty
  · exact tuned.positive pending.positive
  · exact pending.recorded.congr (by rw [tuned.state]; exact id) (by rw [tuned.finSent]; exact id)
  · exact flight.congr tuned.sendNext tuned.sendUnacknowledged tuned.finSent
  · rwa [tuned.finAcked]
  · rwa [tuned.sendNext, tuned.finAcked]
  · rwa [tuned.sendNext, tuned.finSent]

theorem updateWindow (pending : Acknowledging history accounts stack i ack) (view : TcpView) :
    Acknowledging history accounts (stack.updateWindow i view) i ack := by
  simp only [Stack.updateWindow]
  split
  · exact pending.tune (by constructor <;> simp)
  · exact pending

theorem handleAcknowledgement (invariant : StackInvariant history accounts stack)
    (synced : isSynchronized (stack.socket i).state = true) (view : TcpView)
    (behind : serialDistance view.tcp.acknowledgement (stack.socket i).sendNext ≤ 0)
    (length : Nat) :
    Acknowledging history accounts (handleAcknowledgement stack i view length) i
      view.tcp.acknowledgement := by
  have inUse := ne_free_of_synchronized synced
  simp only [Stack.handleAcknowledgement]
  split
  next reached =>
    refine updateWindow ?_ view
    split
    · obtain ⟨counted, tuned⟩ :=
        invariant.countDuplicate inUse view.tcp.acknowledgement
      exact acknowledge counted (by rwa [tuned.state]) (by rwa [tuned.sendUnacknowledged])
        (by rwa [tuned.sendNext])
    have tuned : Tuned (stack.socket i)
        { stack.socket i with flow.duplicateAcks := 0 } := by constructor <;> simp
    have counted := invariant.tune inUse tuned
    exact acknowledge counted (by simpa using synced) (by simpa using reached)
      (by simpa using behind)
  rename_i old
  refine ofInvariant invariant synced fun current => ?_
  obtain ⟨acked, flight, -⟩ := (invariant.slots i).flight synced
  have nonnegative := flight.serialDistance_nonneg
  rw [current] at old
  exact absurd nonnegative old

section
variable (pending : Acknowledging history accounts stack i ack)
include pending

theorem settle (slot : SlotInvariant (accounts i) value (stack.pieces i))
    (opened : isSendOpen value.state = true → isSendOpen (stack.socket i).state = true)
    (finSent : value.finSent = true → (stack.socket i).finSent = true) :
    StackInvariant history accounts (stack.setSocket i value) := by
  obtain ⟨before, invariant, touches⟩ := pending.base
  refine invariant.touch (touches.trans (.setSocket i stack value)) (fun _ _ => rfl) rfl ?_ ?_
  · simpa using slot
  · rw [socket_setSocket_self, setSocket_sentBy]
    exact pending.recorded.congr opened finSent

theorem unfinished (old : ¬ ((stack.socket i).finSent = true ∧ ack = (stack.socket i).sendNext)) :
    StackInvariant history accounts stack := by
  obtain ⟨before, invariant, touches⟩ := pending.base
  obtain ⟨acked, flight, done, missing, -⟩ := pending.flight
  refine invariant.touch touches (fun _ _ => rfl) rfl (.ofFlight pending.synchronized
    pending.flags pending.owned pending.empty flight ⟨done, fun all => ?_⟩ pending.positive)
    pending.recorded
  refine missing all fun same => old ⟨?_, same⟩
  have bound := flight.bound
  cases sent : (stack.socket i).finSent with
  | true => rfl
  | false =>
    rw [sent, Bool.toNat_false] at bound
    omega

/-- Our end of stream is acknowledged: the slot moves on to a state that agrees
with that. -/
theorem finished (sent : (stack.socket i).finSent = true)
    (current : ack = (stack.socket i).sendNext) (still : isSynchronized value.state = true)
    (flags : FlagsAgree value) (opened : isSendOpen value.state = false)
    (taken : value.accepted = (stack.socket i).accepted)
    (detached : value.detached = (stack.socket i).detached)
    (references : value.references = (stack.socket i).references)
    (listener : value.listener = (stack.socket i).listener)
    (next : value.sendNext = (stack.socket i).sendNext)
    (unacknowledged : value.sendUnacknowledged = (stack.socket i).sendUnacknowledged)
    (finSent : value.finSent = (stack.socket i).finSent) (finAcked : value.finAcked = true)
    (pos : value.flow.peerMss = (stack.socket i).flow.peerMss) :
    StackInvariant history accounts (stack.setSocket i value) := by
  obtain ⟨acked, flight, -, -, all⟩ := pending.flight
  have all := all current
  rw [sent, Bool.toNat_true] at all
  refine pending.settle (.ofFlight still flags (pending.owned.moved pending.synchronized still
    taken detached references listener ?_) (by rw [taken]; exact pending.empty)
    (flight.congr next unacknowledged finSent) (by simp [finAcked, all])
    (by rw [pos]; exact pending.positive)) (by simp [opened]) (by rw [finSent]; exact id)
  intro unaccepted
  have waiting := pending.owned.waiting pending.synchronized unaccepted
  have flags := pending.flags
  rw [FlagsAgree] at flags
  rcases waiting with state | state <;> simp [state, sent] at flags

theorem handleFinAcknowledged :
    StackInvariant history accounts (stack.handleFinAcknowledged i ack).1 ∧
      ((stack.handleFinAcknowledged i ack).2 = false →
        isSynchronized ((stack.handleFinAcknowledged i ack).1.socket i).state = true) := by
  have flags := pending.flags
  have synced := pending.synchronized
  rw [FlagsAgree] at flags
  simp only [Stack.handleFinAcknowledged]
  split
  next acked =>
    have requested : (stack.socket i).sendClosed = true := by
      cases state : (stack.socket i).state <;> simp_all [isSynchronized]
    have closed : isSendOpen (stack.socket i).state = false := by
      cases state : (stack.socket i).state <;> simp_all [isSendOpen]
    split
    next received =>
      split
      next active =>
        simp only [Stack.enterTimeWait, socket_setSocket_self, setSocket_setSocket]
        refine ⟨pending.finished acked.1 acked.2 rfl ?_ rfl rfl rfl rfl rfl rfl rfl rfl rfl rfl,
          fun _ => rfl⟩
        simp [FlagsAgree, requested, received, active, acked.1]
      rename_i passive
      have lastAck : (stack.socket i).state = .lastAck := by
        cases state : (stack.socket i).state <;> simp_all [isSynchronized]
      split
      next detached =>
        refine ⟨?_, by simp⟩
        obtain ⟨before, invariant, touches⟩ := pending.base
        obtain ⟨positions, flight, -, -, all⟩ := pending.flight
        have all := all acked.2
        have tiles := flight.tiles
        rw [List.drop_eq_nil_of_le (by omega)] at tiles
        have owned := (owned_iff synced).mp pending.owned
        have kept : (accounts i).holders = 0 ∧ (stack.socket i).references = 1 := by
          rw [if_pos detached] at owned
          split at owned
          · exact owned
          · exact ⟨owned.1, owned.2.1⟩
        refine invariant.freeConnection (touches.trans (.setSocket i stack _)) ?_
          pending.recorded ?_ kept.1 ?_
        · exact tiles.eq_none
        · simp [lastAck, isConnection]
        · simpa using kept.2
      rename_i attached
      rw [socket_setSocket_self]
      refine ⟨pending.finished acked.1 acked.2 synced ?_ closed rfl rfl rfl rfl rfl rfl
        rfl rfl rfl, fun _ => synced⟩
      rw [FlagsAgree]
      simp_all
    rename_i receiving
    split
    next state =>
      rw [setSocket_setSocket, socket_setSocket_self]
      refine ⟨pending.finished acked.1 acked.2 rfl ?_ rfl rfl rfl rfl rfl rfl rfl rfl rfl rfl,
        fun _ => rfl⟩
      simp_all [FlagsAgree]
    rename_i state
    rw [socket_setSocket_self]
    refine ⟨pending.finished acked.1 acked.2 synced ?_ closed rfl rfl rfl rfl rfl rfl
      rfl rfl rfl, fun _ => synced⟩
    rw [FlagsAgree]
    cases state : (stack.socket i).state <;> simp_all [isSynchronized]
  next old => exact ⟨pending.unfinished old, fun _ => synced⟩

end
end Acknowledging

namespace StackInvariant
variable {driver : Nat → Bool} {history : List Transmission}
  {accounts : Fin socketCapacity → Account} {stack : Stack} {i : Fin socketCapacity}

theorem received (invariant : StackInvariant history accounts stack) {sockets : SocketTable}
    (synced : isSynchronized (stack.socket i).state = true)
    (others : ∀ other ≠ i, sockets.slots other = stack.sockets.slots other)
    (received : Received (stack.socket i) (sockets.slots i)) :
    StackInvariant history accounts { stack with sockets } := by
  refine invariant.touch ⟨others, fun _ _ => rfl, ⟨[], by simp, by simp⟩, id⟩ (fun _ _ => rfl)
    rfl ((invariant.slots i).received synced received) ?_
  exact (invariant.records i).received (invariant.slots i).flags synced received

theorem flushAcknowledgement_state (driver : Nat → Bool) (stack : Stack) (i : Fin socketCapacity) :
    ((Stack.flushAcknowledgement driver stack i).socket i).state = (stack.socket i).state := by
  simp only [Stack.flushAcknowledgement]
  split
  · rfl
  split <;> simp

theorem receive_received (table : SocketTable) (i : Fin socketCapacity) (sequence : UInt32)
    (data : List UInt8) (finish : Bool) :
    Received (table.slots i) ((table.receive (some i) sequence data finish).2.slots i) ∧
      ∀ j ≠ i, (table.receive (some i) sequence data finish).2.slots j = table.slots j := by
  rcases table.receive_cases (some i) sequence data finish with
    same | ⟨_, same, -, -, -, -, taken⟩
  · rw [same]
    exact ⟨.refl _, fun _ _ => rfl⟩
  · cases same
    exact ⟨taken.received, taken.others⟩

section
variable (invariant : StackInvariant history accounts stack)
include invariant

theorem noteFinished (wasClosed : Bool) (synced : isSynchronized (stack.socket i).state = true)
    (ended : wasClosed = false → (stack.socket i).receiveClosed = true →
      (stack.socket i).finAcked = true → (stack.socket i).state = .timeWait) :
    StackInvariant history accounts (stack.noteFinished i wasClosed) ∧
      isSynchronized ((stack.noteFinished i wasClosed).socket i).state = true := by
  simp only [Stack.noteFinished]
  split
  next ends =>
    have timeWait := ended ends.1 ends.2.1 ends.2.2
    refine ⟨invariant.tune (ne_free_of_synchronized synced) ?_, ?_⟩
    · constructor <;> simp [timeWait]
    · simp [Stack.enterTimeWait, isSynchronized]
  · exact ⟨invariant, synced⟩

theorem handlePayload (synced : isSynchronized (stack.socket i).state = true) (view : TcpView) :
    StackInvariant history accounts (handlePayload driver stack i view) ∧
      isSynchronized ((handlePayload driver stack i view).socket i).state = true := by
  simp only [Stack.handlePayload]
  split
  · obtain ⟨taken, others⟩ := receive_received stack.sockets i view.tcp.sequence view.payload
      (flagged view tcpFin)
    have ended := (invariant.received synced others taken).noteFinished
      (stack.socket i).receiveClosed (taken.isSynchronized synced)
      (taken.timeWait (invariant.slots i).flags synced)
    generalize Stack.noteFinished _ i _ = after at ended
    refine ⟨(ended.1.tune (ne_free_of_synchronized ended.2) ?_).flushAcknowledgement i, ?_⟩
    · constructor <;> simp [ended.2]
    · rw [flushAcknowledgement_state, socket_setSocket_self]
      exact ended.2
  · exact ⟨invariant, synced⟩

theorem handleSegment (synced : isSynchronized (stack.socket i).state = true) (view : TcpView) :
    StackInvariant history accounts (handleSegment driver stack i view) := by
  simp only [Stack.handleSegment]
  split
  · exact invariant
  split
  · exact invariant.challengeAck (ne_free_of_synchronized synced)
  rename_i acceptable
  simp only [not_or, Int.not_lt] at acceptable
  have finished := (Acknowledging.handleAcknowledgement invariant synced view
    acceptable.2 (view.payload.length + (flagged view tcpFin).toNat)).handleFinAcknowledged
  generalize Stack.handleFinAcknowledged _ i _ = result at finished
  split
  · exact finished.1
  rename_i remains
  have still := finished.2 (by simpa using remains)
  obtain ⟨taken, synced⟩ : _ ∧ _ := finished.1.handlePayload still view
  split
  next unsent =>
    exact taken.sendFin synced unsent.1 ((taken.slots i).finAcked_false synced unsent.2)
  · exact taken

/-! ## Frames and polls -/

theorem establish (halfOpen : (stack.socket i).state = .synReceived) :
    StackInvariant history accounts (stack.setSocket i
        { stack.socket i with
          state := .established
          sendUnacknowledged := (stack.socket i).sendNext }) := by
  have slot := invariant.slots i
  have flags := slot.flags
  have owned := slot.owned
  have sending := slot.sending
  rw [FlagsAgree, halfOpen] at flags
  rw [Owned, halfOpen] at owned
  rw [Sending, if_neg (by simp [halfOpen, isSynchronized])] at sending
  obtain ⟨unheld, last, unaccepted, attached, listener⟩ := owned
  obtain ⟨none, begun⟩ := sending
  obtain ⟨next, nothing⟩ := begun halfOpen
  have flight : Flight (accounts i)
      { stack.socket i with
        state := .established
        sendUnacknowledged := (stack.socket i).sendNext } (stack.pieces i) 0 := by
    refine ⟨?_, ?_, Nat.zero_le _, ?_, ?_⟩
    · simp [next, nothing, flags.2.2.1]
    · simp [next]
    · simp [flags.2.2.1]
    · rw [nothing]
      exact .empty _ none
  refine invariant.store (fun _ _ => rfl) rfl ?_ ?_
  · refine .ofFlight rfl flags ?_ (fun _ => nothing) flight ?_ slot.positive
    · rw [owned_iff rfl, if_neg (by simp [unaccepted])]
      exact ⟨unheld, last, attached, listener, .inl rfl⟩
    · simp [flags.2.2.2.1]
  · exact (invariant.records i).congr (fun _ => by simp [halfOpen, isSendOpen]) id

theorem handleHandshake (halfOpen : (stack.socket i).state = .synReceived) (view : TcpView) :
    StackInvariant history accounts (handleHandshake driver stack i view) := by
  simp only [Stack.handleHandshake]
  split
  · exact invariant.sendControl driver i _ _ (by decide) _
  split
  · exact invariant
  rcases stack.sockets.establish_cases (some i) view.tcp.acknowledgement with
    ⟨refused, -⟩ | ⟨_, same, already, -⟩ | ⟨_, same, -, exact_, established⟩
  · rw [if_pos refused]
    exact invariant
  · cases same
    have already : (stack.socket i).state = .established ∨
        (stack.socket i).state = .closeWait := already
    simp [halfOpen] at already
  cases same
  rw [established, if_neg (by simp)]
  rw [exact_]
  exact (invariant.establish halfOpen).handleSegment (by simp [isSynchronized]) view

theorem handleConnection (linked : isConnection (stack.socket i).state = true) (view : TcpView) :
    StackInvariant history accounts (handleConnection driver stack i view) := by
  have inUse : (stack.socket i).state ≠ .free := by
    intro free
    simp [free, isConnection] at linked
  simp only [Stack.handleConnection]
  split
  · exact invariant
  rename_i alive
  split
  · exact invariant.handleReset linked _
  split
  · split
    · exact challengeAck (invariant.tune inUse (by constructor <;> simp)) (by simpa using inUse)
    · exact invariant
  split
  next halfOpen => exact invariant.handleHandshake halfOpen view
  rename_i complete
  split
  · exact invariant.challengeAck inUse
  · exact invariant.handleSegment (isSynchronized_of_connection linked complete alive) view

theorem handleTcp (fresh : Fresh accounts stack) (frame : List UInt8) :
    StackInvariant history accounts (handleTcp driver stack frame) := by
  simp only [Stack.handleTcp]
  split
  · exact invariant
  rename_i view parsed
  split
  · exact invariant.handleUnconnected fresh (parseTcp_mss parsed) _ _
  rename_i i found
  have matched := List.find?_some found
  simp only [Bool.and_eq_true] at matched
  exact invariant.handleConnection matched.1.1 view

theorem sendReply (frame : List UInt8) (reply : Reply) :
    StackInvariant history accounts (stack.sendReply driver frame reply).2 :=
  invariant.logForeign rfl rfl rfl fun record mem => by
    cases List.mem_singleton.mp mem
    exact ⟨trivial, fun _ => rfl⟩

theorem handle (fresh : Fresh accounts stack) (frame : List UInt8) :
    StackInvariant history accounts (handle driver stack frame).2 := by
  unfold Stack.handle
  split
  · exact invariant.sendReply _ _
  split
  · exact invariant.sendReply _ _
  · exact invariant.handleTcp fresh frame

theorem record (reply : Reply) : StackInvariant history accounts (record reply stack) := by
  cases reply with
  | none => exact invariant
  | arp
  | echo => exact invariant.congr rfl rfl rfl

end
end StackInvariant
end Mikos.Network
