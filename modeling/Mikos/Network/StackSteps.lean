import Mikos.Network.StackInvariant

/-!
# The routines of the stack keep its invariant

One lemma for each routine, in the order of the stack's source.
-/

namespace Mikos.Network
open Library Stack List

/-- A connection that is not accepted, or detached, is kept by the stack alone. -/
theorem SlotInvariant.unheld {pieces : Fin transmitCapacity → Option (UInt32 × List UInt8)}
    (invariant : SlotInvariant account value pieces) (linked : isConnection value.state = true)
    (kept : value.accepted = false ∨ value.detached = true) :
    account.holders = 0 ∧ value.references = 1 := by
  have owned := invariant.owned
  rw [Owned] at owned
  cases state : value.state <;> simp_all [isConnection] <;> grind

/-- A connection past its handshake that was not aborted is synchronized. -/
theorem isSynchronized_of_connection (linked : isConnection state = true)
    (complete : state ≠ .synReceived) (alive : state ≠ .reset) : isSynchronized state = true := by
  cases state <;> simp_all [isConnection, isSynchronized]

theorem ne_free_of_synchronized (synced : isSynchronized state = true) : state ≠ .free := by
  rintro rfl
  cases synced

namespace StackInvariant
variable {driver : Nat → Bool} {history : List Transmission}
  {accounts : Fin socketCapacity → Account} {stack : Stack} {i : Fin socketCapacity}

/-! ## Ending a connection -/

theorem failConnection (invariant : StackInvariant history accounts stack)
    (linked : isConnection (stack.socket i).state = true) :
    StackInvariant history accounts (failConnection driver stack i) := by
  have slot := invariant.slots i
  have recorded := invariant.records i
  simp only [Stack.failConnection]
  split
  · exact invariant
  generalize announced : (if (stack.socket i).state ≠ .synReceived then
    (sendSegment driver (stack.clearTransmissions (some i)) (some i)
      (stack.socket i) (tcpRst ||| tcpAck) [] (stack.socket i).sendNext).2
    else stack.clearTransmissions (some i)) = after
  have touches : Touches i stack after := by
    subst announced
    split
    · exact (Touches.clearTransmissions i stack).trans (.sendSegment ..)
    · exact .clearTransmissions i stack
  have pieces : ∀ place, after.pieces i place = none := by
    subst announced
    intro place
    split
    · simpa using pieces_clearTransmissions place
    · exact pieces_clearTransmissions place
  have socket : after.socket i = stack.socket i := by
    subst announced
    split
    · simp [Stack.clearTransmissions, Stack.socket]
    · rfl
  have recorded : Recorded (accounts i) (stack.socket i) (after.sentBy i (accounts i).begun) := by
    subst announced
    split
    · exact recorded_sendControl (invariant.begun i) recorded _ (by decide) _
    · exact recorded
  split
  next kept =>
    obtain ⟨unheld, last⟩ := slot.unheld linked kept
    exact invariant.freeConnection touches pieces recorded (by rwa [socket]) unheld
      (by rwa [socket])
  next held =>
    simp only [not_or, Bool.not_eq_false, Bool.not_eq_true] at held
    exact invariant.abortConnection touches pieces socket recorded linked held.1 held.2 _

/-- The sequence number of our end of stream follows the last accepted byte, and
all before it is acknowledged. -/
theorem sendFin_located {pieces : Fin transmitCapacity → Option (UInt32 × List UInt8)}
    (slot : SlotInvariant account value pieces) (synced : isSynchronized value.state = true)
    (unacked : value.finAcked = false)
    (ready : value.finSent = false → value.sendUnacknowledged = value.sendNext) :
    (if value.finSent then value.sendNext - 1 else value.sendNext) =
        account.first + UInt32.ofNat account.accepted.length ∧
      value.sendUnacknowledged = account.first + UInt32.ofNat account.accepted.length := by
  obtain ⟨acked, flight, finished⟩ := slot.flight synced
  have all : acked = account.accepted.length := by
    cases sent : value.finSent with
    | true =>
      have drained := flight.drained sent
      have bound := flight.bound
      simp only [sent, Bool.toNat_true] at bound
      simp only [unacked, Bool.false_eq_true, false_iff] at finished
      omega
    | false => simpa [sent] using flight.unacknowledged_eq_next.mp (ready sent)
  rw [flight.unacknowledged, all, flight.next]
  cases sent : value.finSent with
  | true =>
    simp only [if_true, Bool.toNat_true, and_true]
    rw [← offset_add]
    exact UInt32.add_sub_cancel _ _
  | false => simp

theorem sendFin (invariant : StackInvariant history accounts stack)
    (synced : isSynchronized (stack.socket i).state = true)
    (requested : (stack.socket i).sendClosed = true) (unacked : (stack.socket i).finAcked = false) :
    StackInvariant history accounts (sendFin driver stack i) := by
  have slot := invariant.slots i
  have closed : isSendOpen (stack.socket i).state = false := by
    have flags := slot.flags
    rw [FlagsAgree] at flags
    cases state : (stack.socket i).state <;> simp_all [isSendOpen, isSynchronized]
  simp only [Stack.sendFin]
  split
  · exact invariant
  rename_i proceed
  have ready : (stack.socket i).finSent = false →
      (stack.socket i).sendUnacknowledged = (stack.socket i).sendNext := by
    intro unsent
    by_contra outstanding
    exact proceed ⟨unsent, .inl outstanding⟩
  obtain ⟨located, acknowledged⟩ := sendFin_located slot synced unacked ready
  rw [located]
  have handed := handed driver i stack (stack.socket i) (tcpFin ||| tcpAck) []
    ((accounts i).first + UInt32.ofNat (accounts i).accepted.length)
  generalize Stack.sendSegment driver stack (some i) (stack.socket i) (tcpFin ||| tcpAck) []
    ((accounts i).first + UInt32.ofNat (accounts i).accepted.length) = sent at handed
  have log := handed.log _ (invariant.begun i)
  have recorded : Recorded (accounts i) (stack.socket i) (sent.2.sentBy i (accounts i).begun) := by
    rcases log with ⟨-, same⟩ | ⟨segment, ofSocket, -, ofPayload, ofSequence, appended⟩
    · rw [same]
      exact invariant.records i
    · rw [appended]
      exact (invariant.records i).sendFinish ofPayload ofSequence
        (by rw [ofSocket, ofSequence, acknowledged]) closed
  have announced : StackInvariant history accounts sent.2 :=
    invariant.touch handed.touches (fun _ _ => rfl) rfl
      (by rwa [handed.socket, handed.pieces]) (by rwa [handed.socket])
  have inUse := ne_free_of_synchronized synced
  split
  next taken =>
    refine announced.store (fun _ _ => rfl) rfl ?_ ?_
    · rw [handed.pieces]
      obtain ⟨acked, flight, finished⟩ := slot.flight synced
      cases already : (stack.socket i).finSent with
      | true => exact slot.tuned (by constructor <;> simp [already]) inUse
      | false =>
        obtain ⟨extended, all⟩ := flight.finish already (ready already)
        refine .ofFlight synced ?_ ?_ ?_ (extended.congr rfl rfl rfl) ?_ slot.positive
        · have flags := slot.flags
          rw [FlagsAgree] at flags ⊢
          cases state : (stack.socket i).state <;> simp_all [isSendOpen, isSynchronized]
        · exact slot.owned.moved synced synced rfl rfl rfl rfl (slot.owned.waiting synced)
        · exact slot.accepted_nil synced
        · simp [unacked, all]
    refine { recorded with finished := fun _ => ?_ }
    rcases log with ⟨refused, -⟩ | ⟨segment, -, ofFlags, -, -, appended⟩
    · rw [taken] at refused
      cases refused
    · refine ⟨(segment, sent.1), ?_, taken, ?_⟩
      · simp [appended]
      · rw [ofFlags]
        decide
  next refused =>
    exact announced.tune (by rwa [handed.socket]) (by rw [handed.socket]; constructor <;> simp)

theorem sendFin_state (driver : Nat → Bool) (stack : Stack) (i : Fin socketCapacity) :
    ((Stack.sendFin driver stack i).socket i).state = (stack.socket i).state := by
  simp only [Stack.sendFin]
  split
  · rfl
  · generalize (if (stack.socket i).finSent then (stack.socket i).sendNext - 1
      else (stack.socket i).sendNext) = sequence
    split <;> rw [socket_setSocket_self]

section
variable (invariant : StackInvariant history accounts stack)
include invariant

theorem requestFin (synced : isSynchronized (stack.socket i).state = true)
    (taken : (stack.socket i).accepted = true) :
    StackInvariant history accounts (requestFin driver stack i) := by
  have slot := invariant.slots i
  have flags := slot.flags
  simp only [Stack.requestFin]
  split
  · exact invariant
  rename_i unclosed
  have unclosed : (stack.socket i).sendClosed = false := by simpa using unclosed
  have state : (stack.socket i).state = .established ∨ (stack.socket i).state = .closeWait := by
    rw [FlagsAgree] at flags
    cases state : (stack.socket i).state <;> simp_all [isSynchronized]
  refine sendFin ?_ ?_ ?_ ?_
  · refine invariant.store (fun _ _ => rfl) rfl ?_ ?_
    · refine slot.moved synced ?_ ?_ rfl rfl rfl rfl ?_ rfl rfl rfl rfl rfl
      · split <;> rfl
      · rw [FlagsAgree] at flags
        rcases state with state | state <;> simp_all [FlagsAgree]
      · simp [taken]
    · refine (invariant.records i).congr ?_ id
      split <;> simp [isSendOpen]
  · rw [socket_setSocket_self]
    split <;> rfl
  · rw [socket_setSocket_self]
  · rw [socket_setSocket_self]
    rw [FlagsAgree] at flags
    rcases state with state | state <;> rw [state] at flags <;> exact flags.2.2.2.1

/-! ## Timers -/

theorem flushHandshake (halfOpen : (stack.socket i).state = .synReceived) :
    StackInvariant history accounts (flushHandshake driver stack i) := by
  simp only [Stack.flushHandshake]
  split
  · exact invariant.failConnection (by simp [halfOpen, isConnection])
  split
  · have announced := invariant.sendControl driver i (stack.socket i)
      (tcpSyn ||| tcpAck) (by decide) ((stack.socket i).sendNext - 1)
    split
    · exact announced.tune (by simp [halfOpen]) (by constructor <;> simp)
    · exact announced.tune (by simp [halfOpen]) (by constructor <;> simp)
  · exact invariant

theorem queryWindow (inUse : (stack.socket i).state ≠ .free) :
    StackInvariant history accounts (queryWindow driver stack i) := by
  simp only [Stack.queryWindow]
  split
  · have announced := invariant.sendControl driver i (stack.socket i) tcpAck (by decide)
      ((stack.socket i).sendUnacknowledged - 1)
    split
    · exact announced.tune (by simpa using inUse) (by constructor <;> simp)
    · exact announced.tune (by simpa using inUse) (by constructor <;> simp)
  · exact invariant

theorem flushTimer (i : Fin socketCapacity) :
    StackInvariant history accounts (flushTimer driver stack i) := by
  have slot := invariant.slots i
  have flags := slot.flags
  simp only [Stack.flushTimer]
  split
  · exact invariant
  rename_i alive
  simp only [not_or, Bool.not_eq_false] at alive
  split
  next timeWait =>
    have synced : isSynchronized (stack.socket i).state = true := by
      rw [timeWait]
      rfl
    rw [FlagsAgree, timeWait] at flags
    split
    · split
      next detached =>
        obtain ⟨unheld, last⟩ := slot.unheld alive.1 (.inr detached)
        exact invariant.freeConnection (.refl i stack)
          (slot.pieces_none_of_finAcked synced flags.2.2.2.1)
          (invariant.records i) alive.1 unheld last
      refine invariant.store (fun _ _ => rfl) rfl ?_ ?_
      · refine slot.moved synced rfl flags rfl rfl rfl rfl (fun unaccepted => ?_)
          rfl rfl rfl rfl rfl
        have waiting := slot.owned.waiting synced unaccepted
        simp [timeWait] at waiting
      · exact (invariant.records i).congr (by simp [isSendOpen]) id
    · exact invariant
  rename_i ended
  split
  next halfOpen => exact invariant.flushHandshake halfOpen
  rename_i complete
  have synced := isSynchronized_of_connection alive.1 complete alive.2
  split
  · exact invariant.failConnection alive.1
  split
  next due =>
    refine queryWindow (invariant.sendFin synced due.1 due.2.1) ?_
    rw [sendFin_state]
    exact ne_free_of_synchronized synced
  · exact invariant.queryWindow (ne_free_of_synchronized synced)

theorem flushTimers : StackInvariant history accounts (flushTimers driver stack) :=
  List.foldlRecOn _ _ invariant fun _ kept i _ => kept.flushTimer i

/-! ## Retransmission -/

section
variable (queued : stack.transmissions place = some (key, pending)) (owner : key.handle = some i)
include queued owner

theorem synchronized_of_queued :
    stack.pieces i place = some (key.sequence, pending.data) ∧
      isSynchronized (stack.socket i).state = true := by
  have piece : stack.pieces i place = some (key.sequence, pending.data) := by
    simp [pieces, pendingAt, queued, owner]
  refine ⟨piece, ?_⟩
  by_contra idle
  rw [(invariant.slots i).pieces_none (by simpa using idle)] at piece
  cases piece

/-- The start of a queued segment carries accepted bytes, and is not new. -/
theorem queued_carries {segment : Segment}
    (oldest : key.sequence = (stack.socket i).sendUnacknowledged) (count : Nat)
    (socket : segment.socket = stack.socket i) (payload : segment.payload = pending.data.take count)
    (sequence : segment.sequence = key.sequence) :
    segment.isFirst = false ∧ CarriesAccepted (accounts i) segment := by
  obtain ⟨piece, synced⟩ := invariant.synchronized_of_queued queued owner
  obtain ⟨acked, flight, -⟩ := (invariant.slots i).flight synced
  obtain ⟨offset, located, nonempty, inside, sliced⟩ := flight.tiles.slice piece
  rw [length_drop] at inside
  have pos : 0 < pending.data.length := length_pos_iff.mpr nonempty
  constructor
  · have outstanding : (stack.socket i).sendUnacknowledged ≠ (stack.socket i).sendNext := by
      rw [ne_eq, flight.unacknowledged_eq_next]
      omega
    simp [Segment.isFirst, sequence, socket, oldest, outstanding]
  refine ⟨acked + offset, ?_, ?_, ?_⟩
  · rw [sequence, located, flight.unacknowledged, offset_add]
  · rw [payload, length_take]
    omega
  · rw [payload, length_take]
    rw [drop_drop] at sliced
    nth_rewrite 1 [sliced]
    rw [take_take]

theorem retransmit (oldest : key.sequence = (stack.socket i).sendUnacknowledged) :
    StackInvariant history accounts (retransmit driver stack place i key pending) := by
  obtain ⟨piece, synced⟩ := invariant.synchronized_of_queued queued owner
  simp only [Stack.retransmit]
  generalize min pending.data.length (max 1 (stack.socket i).flow.peerWindow).toNat = count
  have handed := handed driver i stack (stack.socket i) pending.flags
    (pending.data.take count) key.sequence
  generalize Stack.sendSegment driver stack (some i) (stack.socket i) pending.flags
    (pending.data.take count) key.sequence = sent at handed
  have recorded : Recorded (accounts i) (stack.socket i) (sent.2.sentBy i (accounts i).begun) := by
    rcases handed.log _ (invariant.begun i) with
      ⟨-, same⟩ | ⟨segment, ofSocket, ofFlags, ofPayload, ofSequence, appended⟩
    · rw [same]
      exact invariant.records i
    rw [appended]
    obtain ⟨repeated, carries⟩ :=
      invariant.queued_carries queued owner oldest count ofSocket ofPayload ofSequence
    refine (invariant.records i).resend (by simp [repeated]) (fun _ _ => carries)
      (by simp [repeated]) ?_
    rw [ofFlags]
    exact (invariant.queue place _ queued).2
  have announced : StackInvariant history accounts sent.2 :=
    invariant.touch handed.touches (fun _ _ => rfl) rfl
      (by rw [handed.socket, handed.pieces]; exact invariant.slots i)
      (by rwa [handed.socket])
  have slowed : StackInvariant history accounts
      (if sent.1 ∧ pending.fastRetry = false ∧ (stack.socket i).flow.peerWindow ≠ 0 then
        sent.2.setSocket i { stack.socket i with flow := congestionTimeout (stack.socket i) }
      else sent.2) := by
    split
    · refine announced.tune ?_ ?_
      · rw [handed.socket]
        exact ne_free_of_synchronized synced
      · rw [handed.socket]
        constructor <;> simp [congestionTimeout]
    · exact announced
  have transmissions : (if sent.1 ∧ pending.fastRetry = false ∧
      (stack.socket i).flow.peerWindow ≠ 0 then
        sent.2.setSocket i { stack.socket i with flow := congestionTimeout (stack.socket i) }
      else sent.2).transmissions = stack.transmissions := by
    split
    · exact handed.transmissions
    · exact handed.transmissions
  refine slowed.retime rfl rfl fun j => ?_
  rw [transmissions]
  by_cases same : j = place
  · subst same
    simp only [Function.update_self, queued, Option.map_some]
    split <;> rfl
  · simp only [Function.update_of_ne same]

end

end

theorem flushRetransmissionFrom (positions : List (Fin transmitCapacity))
    (invariant : StackInvariant history accounts stack) :
    StackInvariant history accounts (flushRetransmissionFrom driver positions stack) := by
  induction positions with
  | nil => exact invariant
  | cons place rest ih =>
    rw [Stack.flushRetransmissionFrom]
    split
    · exact ih
    rename_i key pending queued
    have named := (invariant.queue place _ queued).1
    obtain ⟨i, owner⟩ := Option.ne_none_iff_exists'.mp named
    obtain ⟨-, synced⟩ := invariant.synchronized_of_queued queued owner
    have resolved : stack.sockets.slot key.handle = some (stack.socket i) :=
      SocketTable.slot_eq_some.mpr ⟨i, owner, ne_free_of_synchronized synced, rfl⟩
    rw [resolved, owner]
    simp only
    split
    next aborted =>
      rw [aborted] at synced
      cases synced
    split
    · exact ih
    next due =>
      simp only [not_or, ne_eq, not_not] at due
      exact invariant.retransmit queued owner due.1

section
variable (invariant : StackInvariant history accounts stack)
include invariant

theorem flushRetransmission : StackInvariant history accounts (flushRetransmission driver stack) :=
  flushRetransmissionFrom _ invariant

/-! ## Acknowledgements and challenges -/

theorem flushAcknowledgement (i : Fin socketCapacity) :
    StackInvariant history accounts (flushAcknowledgement driver stack i) := by
  simp only [Stack.flushAcknowledgement]
  split
  · exact invariant
  rename_i due
  simp only [not_or] at due
  have announced := invariant.sendControl driver i (stack.socket i) tcpAck (by decide)
    (stack.socket i).sendNext
  split
  · refine announced.tune ?_ (by constructor <;> simp)
    rw [sendSegment_socket]
    intro free
    simp [free, isConnection] at due
  · exact announced

theorem allowControlReply :
    StackInvariant history accounts stack.allowControlReply.2 ∧
      stack.allowControlReply.2.sockets = stack.sockets := by
  simp only [Stack.allowControlReply]
  split <;> split <;> exact ⟨invariant.congr rfl rfl rfl, rfl⟩

theorem challengeAck (inUse : (stack.socket i).state ≠ .free) :
    StackInvariant history accounts (challengeAck driver stack i) := by
  obtain ⟨allowed, same⟩ := invariant.allowControlReply
  simp only [Stack.challengeAck]
  split
  · refine flushAcknowledgement (allowed.tune ?_ (by constructor <;> simp)) i
    rwa [socket, same]
  · exact allowed

/-- Frames that no slot sends may be handed to the driver at any time. -/
theorem logForeign {after : Stack} (sockets : after.sockets = stack.sockets)
    (transmissions : after.transmissions = stack.transmissions) {records : List Transmission}
    (log : after.transmitted = stack.transmitted ++ records)
    (foreign : ∀ record ∈ records, record.Attributed ∧ ∀ i, Transmission.sentBy i record = none) :
    StackInvariant history accounts after := by
  have pieces : after.pieces = stack.pieces := by
    funext i place
    rw [Stack.pieces, Stack.pieces, pendingAt, pendingAt, transmissions]
  refine ⟨invariant.grown.trans ⟨records, log.symm⟩, fun record mem => ?_, ?_,
    fun i => ?_, fun i => ?_, fun i => ?_⟩
  · rw [log] at mem
    rcases mem_append.mp mem with earlier | new
    · exact invariant.attributed record earlier
    · exact (foreign record new).1
  · rw [QueueValid, transmissions]
    exact invariant.queue
  · rw [log, length_append]
    exact (invariant.begun i).trans (Nat.le_add_right _ _)
  · rw [pieces, socket, sockets]
    exact invariant.slots i
  · rw [sentBy_append log (invariant.begun i), filterMap_eq_nil_iff.mpr, append_nil,
      socket, sockets]
    · exact invariant.records i
    · exact fun record mem => (foreign record mem).2 i

theorem sendStray (driver : Nat → Bool) (value : SocketSlot) {flags : UInt8}
    (noFin : flags &&& tcpFin = 0) (sequence : UInt32) :
    StackInvariant history accounts (sendSegment driver stack none value flags [] sequence).2 := by
  rcases sendSegment_cases driver stack none value flags [] sequence with
    dropped | ⟨segment, owner, -, ofFlags, ofPayload, -, log⟩
  · rw [dropped]
    exact invariant
  · refine invariant.logForeign (by simp) (by simp) log fun record mem => ?_
    cases mem_singleton.mp mem
    exact ⟨fun _ => ⟨ofPayload, ofFlags ▸ noFin⟩, by simp [Transmission.sentBy, owner]⟩

theorem rejectSegment (view : TcpView) (localEnd remoteEnd : Endpoint) :
    StackInvariant history accounts (rejectSegment driver stack view localEnd remoteEnd) := by
  obtain ⟨allowed, -⟩ := invariant.allowControlReply
  simp only [Stack.rejectSegment]
  split
  · split
    · exact allowed.sendStray driver _ (by decide) _
    · exact allowed.sendStray driver _ (by decide) _
  · exact allowed

end

/-! ## Connection requests -/

/-- Free slots have the account of whoever gets them next. -/
def Fresh (accounts : Fin socketCapacity → Account) (stack : Stack) : Prop :=
  ∀ index, (stack.socket index).state = .free →
    (accounts index).first = stack.nextSequence + 1 ∧ (accounts index).accepted = [] ∧
      stack.sentBy index (accounts index).begun = []

theorem offeredMss_ne_zero {offered : Option UInt16} (valid : offered ≠ some 0) :
    (min (offered.getD 536).toUInt32 (UInt32.ofNat transmitSegmentCapacity)).toUInt16 ≠ 0 := by
  have pos : offered.getD 536 ≠ 0 := by
    cases offered with
    | none => decide
    | some size => simpa using valid
  generalize offered.getD 536 = size at pos
  have pos : size.toNat ≠ 0 := fun zero => pos (UInt16.toNat_inj.mp zero)
  intro zero
  have zero := congrArg UInt16.toNat zero
  rw [UInt32.toNat_toUInt16,
    show ∀ left right : UInt32, min left right = if left ≤ right then left else right from
      fun _ _ => rfl] at zero
  split at zero
  · rw [UInt16.toNat_toUInt32] at zero
    have := size.toNat_lt
    simp at zero
    omega
  · simp [transmitSegmentCapacity] at zero

section
variable (invariant : StackInvariant history accounts stack)
include invariant

theorem answerRequest {view : TcpView} (valid : view.options.maximumSegmentSize ≠ some 0)
    (inUse : (stack.socket i).state ≠ .free) :
    StackInvariant history accounts (answerRequest driver stack i view) := by
  have tuned : Tuned (stack.socket i) (stack.offeredSocket (stack.socket i) view) := by
    constructor <;> simp only [offeredSocket]
    case quiet => exact fun _ empty => empty
    case positive => exact fun _ => offeredMss_ne_zero valid
  simp only [Stack.answerRequest]
  refine ((invariant.tune inUse tuned).sendControl driver i _ (tcpSyn ||| tcpAck) (by decide)
    _).tune ?_ ?_
  · rw [sendSegment_socket, socket_setSocket_self, tuned.state]
    exact inUse
  · rw [sendSegment_socket, socket_setSocket_self]
    constructor <;> simp

theorem beginConnection (fresh : Fresh accounts stack) (named : listenerHandle ≠ none)
    (free : (stack.socket i).state = .free) (localEnd remoteEnd : Endpoint)
    (remoteMac : MacAddress) (remoteSequence : UInt32) :
    StackInvariant history accounts (stack.setSocket i
        { stack.socket i with
          state := .synReceived
          type := .stream
          localEnd
          remoteEnd
          remoteMac
          sendNext := stack.nextSequence + 1
          sendUnacknowledged := stack.nextSequence
          flow.windowSequence := remoteSequence
          flow.windowAcknowledgement := stack.nextSequence
          receiveNext := remoteSequence + 1
          references := 1
          listener := listenerHandle }) := by
  have slot := invariant.slots i
  have owned := slot.owned
  rw [Owned, free] at owned
  obtain ⟨first, nothing, unsent⟩ := fresh i free
  refine invariant.store (fun _ _ => rfl) rfl ?_ ?_
  · rw [owned.1]
    refine ⟨?_, ?_, ?_, fun _ => rfl, (by decide : (536 : UInt16) ≠ 0)⟩
    · simp [FlagsAgree]
    · simp [Owned, owned.2, named, invalidSocket]
    · rw [Sending, if_neg (by simp [isSynchronized])]
      refine ⟨fun place => slot.pieces_none ?_ place, fun _ => ⟨first.symm, nothing⟩⟩
      rw [free]
      rfl
  · rw [unsent, owned.1]
    exact .none nothing rfl

theorem advanceSequence (nextSequence : UInt32) :
    StackInvariant history accounts { stack with nextSequence } :=
  invariant.congr rfl rfl rfl

theorem handleUnconnected (fresh : Fresh accounts stack)
    (valid : view.options.maximumSegmentSize ≠ some 0) (localEnd remoteEnd : Endpoint) :
    StackInvariant history accounts (handleUnconnected driver stack view localEnd remoteEnd) := by
  simp only [Stack.handleUnconnected]
  split
  · exact invariant
  split
  · exact invariant.rejectSegment view localEnd remoteEnd
  split
  · exact invariant
  rcases stack.sockets.beginConnection_cases (stack.sockets.listener localEnd) localEnd remoteEnd
    view.ethernet.source view.tcp.sequence stack.nextSequence with
    ⟨refused, -⟩ | ⟨i, found, waiting, -, named⟩ | ⟨listener, i, named, vacant, -, started⟩
  · split
    next success _ => exact absurd success refused
    · exact invariant
  · rw [found]
    refine (invariant.advanceSequence _).answerRequest valid ?_
    have owned := (invariant.slots i).owned
    intro free
    simp only [socket] at free owned
    rw [Owned, free] at owned
    simp only [SocketTable.backlogged, Bool.and_eq_true, decide_eq_true_eq] at waiting
    exact named (waiting.1.symm.trans (congrArg SocketSlot.listener owned.1))
  rw [started]
  have chosen : stack.sockets.listener localEnd ≠ none := by simp [named]
  have begun := invariant.beginConnection fresh chosen (SocketTable.allocate_free vacant) localEnd
    remoteEnd
    view.ethernet.source view.tcp.sequence
  refine (begun.advanceSequence _).answerRequest valid ?_
  simp [socket, setSocket]

/-! ## Segments of a connection -/

theorem handleReset (linked : isConnection (stack.socket i).state = true) (sequence : UInt32) :
    StackInvariant history accounts (handleReset driver stack i sequence) := by
  have inUse : (stack.socket i).state ≠ .free := by
    intro free
    simp [free, isConnection] at linked
  simp only [Stack.handleReset]
  split
  · exact invariant
  split
  · have touches := Touches.clearTransmissions i stack
    split
    next kept =>
      obtain ⟨unheld, last⟩ := (invariant.slots i).unheld linked kept.symm
      exact invariant.freeConnection touches pieces_clearTransmissions (invariant.records i)
        linked unheld last
    rename_i held
    simp only [not_or, Bool.not_eq_false, Bool.not_eq_true] at held
    exact invariant.abortConnection touches pieces_clearTransmissions rfl
      (invariant.records i) linked held.2 held.1 _
  split
  · exact invariant.challengeAck inUse
  · exact invariant

theorem countDuplicate (inUse : (stack.socket i).state ≠ .free) (ack : UInt32) :
    StackInvariant history accounts (countDuplicate stack i ack) ∧
      Tuned (stack.socket i) ((countDuplicate stack i ack).socket i) := by
  simp only [Stack.countDuplicate]
  split
  · refine ⟨(invariant.tune inUse ?_).retime rfl rfl fun place => ?_, ?_⟩
    · constructor <;> simp
    · dsimp only
      rw [setSocket_transmissions]
      cases stack.transmissions place with
      | none => rfl
      | some entry =>
        dsimp only
        split <;> rfl
    · constructor <;> simp [socket, setSocket]
  · refine ⟨invariant.tune inUse (by constructor <;> simp), ?_⟩
    rw [socket_setSocket_self]
    constructor <;> simp

end

theorem congestionAcknowledged_peerMss (flow : FlowControl) (newlyAcked : UInt32) :
    (congestionAcknowledged flow newlyAcked).peerMss = flow.peerMss := by
  simp only [congestionAcknowledged]
  split
  · rfl
  split
  · rfl
  split <;> rfl

/-- Acknowledging an entry of a connection trims its piece, keeps its flags and
leaves the entries of others alone. -/
theorem acknowledgeEntry_cases (i : Fin socketCapacity) (ack : UInt32)
    (delay retryAt : UInt64) (entry : TransmitKey × TransmitSegment) :
    (entry.1.handle ≠ some i ∧ acknowledgeEntry i ack delay retryAt entry = some entry) ∨
      (entry.1.handle = some i ∧
        (acknowledgeEntry i ack delay retryAt entry).map
            (fun kept => (kept.1.handle, kept.2.flags)) =
          (acknowledgeEntry i ack delay retryAt entry).map
            (fun _ => (entry.1.handle, entry.2.flags)) ∧
        (acknowledgeEntry i ack delay retryAt entry).map
            (fun kept => (kept.1.sequence, kept.2.data)) =
          trimPiece ack (entry.1.sequence, entry.2.data)) := by
  by_cases same : entry.1.handle = some i
  · refine .inr ⟨same, ?_, ?_⟩
    · simp only [acknowledgeEntry, if_pos same, acknowledgePending]
      split
      · rfl
      split <;> rfl
    · simp only [acknowledgeEntry, if_pos same, acknowledgePending, trimPiece]
      split
      · rfl
      split <;> rfl
  · exact .inl ⟨same, by simp only [acknowledgeEntry, if_neg same]⟩

theorem acknowledged_of_ne (apart : j ≠ i) (ack : UInt32) (delay retryAt : UInt64)
    (queued : Option (TransmitKey × TransmitSegment)) :
    (queued.bind (acknowledgeEntry i ack delay retryAt)).filter (·.1.handle = some j) =
      queued.filter (·.1.handle = some j) := by
  cases queued with
  | none => rfl
  | some entry =>
    rcases acknowledgeEntry_cases i ack delay retryAt entry with ⟨-, same⟩ | ⟨owner, kept, -⟩
    · rw [Option.bind_some, same]
    rw [Option.bind_some]
    cases left : acknowledgeEntry i ack delay retryAt entry with
    | none => simp [Option.filter, owner, apart.symm]
    | some later =>
      simp only [left, Option.map_some, Option.some.injEq, Prod.mk.injEq] at kept
      simp [Option.filter, kept.1, owner, apart.symm]

/-- Acknowledging moves the start of the flight and trims the queued segments. -/
theorem acknowledgeTransmissions_cases (stack : Stack) (i : Fin socketCapacity) (ack : UInt32) :
    let after := acknowledgeTransmissions stack i ack
    (serialDistance ack (stack.socket i).sendUnacknowledged ≤ 0 ∧ after = stack) ∨
      (0 < serialDistance ack (stack.socket i).sendUnacknowledged ∧
        Touches i stack after ∧ after.transmitted = stack.transmitted ∧
        Tuned { stack.socket i with sendUnacknowledged := ack } (after.socket i) ∧
        after.pieces i = fun place => (stack.pieces i place).bind (trimPiece ack)) := by
  by_cases old : serialDistance ack (stack.socket i).sendUnacknowledged ≤ 0
  · exact .inl ⟨old, by simp only [acknowledgeTransmissions, if_pos old]⟩
  refine .inr ⟨by omega, ?_⟩
  simp only [acknowledgeTransmissions, if_neg old]
  generalize stack.sampledTimers i ack = timers
  refine ⟨⟨?_, ?_, ⟨[], by simp, by simp⟩, ?_⟩, rfl, ?_, ?_⟩
  · exact fun other apart => socket_setSocket_of_ne apart _
  · intro other apart
    funext place
    simp only [pieces, pendingAt, acknowledged_of_ne apart]
  · intro valid place entry found
    cases earlier : stack.transmissions place with
    | none => simp [earlier] at found
    | some before =>
      have valid := valid place before earlier
      rcases acknowledgeEntry_cases i ack timers.rto (stack.now + timers.rto) before with
        ⟨-, same⟩ | ⟨owner, kept, -⟩
      · simp only [earlier, Option.bind_some, same, Option.some.injEq] at found
        rwa [← found]
      · simp only [earlier, Option.bind_some] at found
        simp only [found, Option.map_some, Option.some.injEq, Prod.mk.injEq] at kept
        rwa [kept.1, kept.2]
  · constructor <;> simp [socket, setSocket, congestionAcknowledged_peerMss]
  funext place
  simp only [pieces, pendingAt]
  cases stack.transmissions place with
  | none => rfl
  | some entry =>
    rcases acknowledgeEntry_cases i ack timers.rto (stack.now + timers.rto) entry with
      ⟨other, same⟩ | ⟨owner, kept, trimmed⟩
    · simp [Option.filter, same, other]
    rw [Option.bind_some]
    cases left : acknowledgeEntry i ack timers.rto (stack.now + timers.rto) entry with
    | none =>
      rw [left] at trimmed
      simpa [Option.filter, owner] using trimmed
    | some later =>
      rw [left] at trimmed kept
      simp only [Option.map_some, Option.some.injEq, Prod.mk.injEq] at kept
      simpa [Option.filter, kept.1, owner] using trimmed

end StackInvariant
end Mikos.Network
