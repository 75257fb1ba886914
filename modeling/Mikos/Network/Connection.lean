import Mikos.Library.Tiling
import Mikos.Network.SocketFrame
import Mikos.Network.Stack

/-!
# What holds of one slot

The invariant of a single slot of a running stack.  It relates the slot, the
queued segments that carry its handle and the frames it handed to the driver to
an account of its present user: how many handles callers hold, the sequence
number of the first byte of the stream, and the bytes that writes accepted.  The
account is kept beside the run; the stack itself stores none of it.
-/

namespace Mikos.Network
open Library List

/-- The account of the present user of a slot.  `begun` is the number of frames
that had been handed to the driver when the user got the slot; `offers` lists
the inputs of all writes, each with the number of bytes accepted before it. -/
structure Account where
  holders : Nat := 0
  begun : Nat := 0
  first : UInt32 := 0
  accepted : List UInt8 := []
  offers : List (Nat × List UInt8) := []
  deriving DecidableEq, Repr

/-- States of a connection that completed its handshake and was not aborted,
including the one it is left in when it has ended. -/
def isSynchronized : SocketState → Bool
  | .established | .closeWait | .finWait1 | .finWait2 | .closing | .lastAck
  | .timeWait | .closed => true
  | _ => false

/-- The flags a state implies. -/
def FlagsAgree (value : SocketSlot) : Prop :=
  match value.state with
  | .free | .control | .created | .bound | .listening | .synReceived | .established =>
    value.sendClosed = false ∧ value.receiveClosed = false ∧ value.finSent = false ∧
      value.finAcked = false ∧ value.activeClose = false
  | .closeWait =>
    value.sendClosed = false ∧ value.receiveClosed = true ∧ value.finSent = false ∧
      value.finAcked = false ∧ value.activeClose = false
  | .finWait1 =>
    value.sendClosed = true ∧ value.receiveClosed = false ∧ value.finAcked = false ∧
      value.activeClose = true
  | .finWait2 =>
    value.sendClosed = true ∧ value.receiveClosed = false ∧ value.finSent = true ∧
      value.finAcked = true ∧ value.activeClose = true
  | .closing =>
    value.sendClosed = true ∧ value.receiveClosed = true ∧ value.finAcked = false ∧
      value.activeClose = true
  | .lastAck =>
    value.sendClosed = true ∧ value.receiveClosed = true ∧ value.activeClose = false
  | .timeWait | .closed =>
    value.sendClosed = true ∧ value.receiveClosed = true ∧ value.finSent = true ∧
      value.finAcked = true ∧ value.activeClose = true
  | .reset => value.receiveClosed = false

/-- Who keeps the slot in use.  A slot opened by a caller and an accepted
connection belong to the holders of their handle.  The one reference of a
connection that was not accepted yet, or that lost its last holder, belongs to
the stack. -/
def Owned (holders : Nat) (value : SocketSlot) : Prop :=
  match value.state with
  | .free => value = {} ∧ holders = 0
  | .control | .created | .bound | .listening =>
    value.references.toNat = holders ∧ 0 < holders ∧ value.accepted = false ∧
      value.detached = false ∧ value.listener = invalidSocket
  | .synReceived =>
    holders = 0 ∧ value.references = 1 ∧ value.accepted = false ∧
      value.detached = false ∧ value.listener ≠ invalidSocket
  | _ =>
    if value.accepted then
      if value.detached then holders = 0 ∧ value.references = 1
      else value.references.toNat = holders ∧ 0 < holders
    else
      holders = 0 ∧ value.references = 1 ∧ value.detached = false ∧
        value.listener ≠ invalidSocket ∧
        (value.state = .established ∨ value.state = .closeWait)

/-- The send side of a stream of which the first `acked` positions are
acknowledged.  The end of stream takes the position after the last byte. -/
structure Flight (account : Account) (value : SocketSlot)
    (pieces : Fin transmitCapacity → Option (UInt32 × List UInt8)) (acked : Nat) : Prop where
  next : value.sendNext =
    account.first + UInt32.ofNat (account.accepted.length + value.finSent.toNat)
  unacknowledged : value.sendUnacknowledged = account.first + UInt32.ofNat acked
  bound : acked ≤ account.accepted.length + value.finSent.toNat
  drained : value.finSent = true → account.accepted.length ≤ acked
  tiles : Tiles transmitSegmentCapacity pieces value.sendUnacknowledged
    (account.accepted.drop acked)

/-- The send side in each state. -/
def Sending (account : Account) (value : SocketSlot)
    (pieces : Fin transmitCapacity → Option (UInt32 × List UInt8)) : Prop :=
  if isSynchronized value.state then
    (value.accepted = false → account.accepted = []) ∧
      ∃ acked, Flight account value pieces acked ∧
        (value.finAcked = true ↔ acked = account.accepted.length + 1)
  else
    (∀ position, pieces position = none) ∧
      (value.state = .synReceived → value.sendNext = account.first ∧ account.accepted = [])

structure SlotInvariant (account : Account) (value : SocketSlot)
    (pieces : Fin transmitCapacity → Option (UInt32 × List UInt8)) : Prop where
  flags : FlagsAgree value
  owned : Owned account.holders value
  sending : Sending account value pieces
  quiet : isSynchronized value.state = false → value.receiveBuffer = []
  positive : value.flow.peerMss ≠ 0

/-- Changes of a slot that its invariant does not see. -/
structure Tuned (before after : SocketSlot) : Prop where
  state : after.state = before.state
  references : after.references = before.references
  listener : after.listener = before.listener
  accepted : after.accepted = before.accepted
  detached : after.detached = before.detached
  sendNext : after.sendNext = before.sendNext
  sendUnacknowledged : after.sendUnacknowledged = before.sendUnacknowledged
  receiveClosed : after.receiveClosed = before.receiveClosed
  sendClosed : after.sendClosed = before.sendClosed
  finSent : after.finSent = before.finSent
  finAcked : after.finAcked = before.finAcked
  activeClose : after.activeClose = before.activeClose
  quiet : isSynchronized before.state = false → before.receiveBuffer = [] →
    after.receiveBuffer = []
  positive : before.flow.peerMss ≠ 0 → after.flow.peerMss ≠ 0

namespace Flight
variable {account : Account} {value after : SocketSlot}
  {pieces : Fin transmitCapacity → Option (UInt32 × List UInt8)} {acked : Nat}

section
variable (flight : Flight account value pieces acked)
include flight

theorem congr (next : after.sendNext = value.sendNext)
    (unacknowledged : after.sendUnacknowledged = value.sendUnacknowledged)
    (finSent : after.finSent = value.finSent) : Flight account after pieces acked where
  next := by rw [next, finSent, flight.next]
  unacknowledged := by rw [unacknowledged, flight.unacknowledged]
  bound := by rw [finSent]; exact flight.bound
  drained := by rw [finSent]; exact flight.drained
  tiles := by rw [unacknowledged]; exact flight.tiles

theorem length_le :
    account.accepted.length ≤ acked + transmitSegmentCapacity * transmitCapacity := by
  have bound := flight.tiles.length_le
  rw [length_drop, Fintype.card_fin] at bound
  omega

theorem unacknowledged_eq_next :
    value.sendUnacknowledged = value.sendNext ↔
      acked = account.accepted.length + value.finSent.toNat := by
  have length := flight.length_le
  have bound := flight.bound
  have fin := value.finSent.toNat_le
  rw [flight.unacknowledged, flight.next]
  constructor
  · intro same
    have difference := toNat_offset_sub account.first bound (by
      simp only [transmitSegmentCapacity, transmitCapacity] at length
      omega)
    rw [same, UInt32.sub_self] at difference
    simp only [UInt32.toNat_zero] at difference
    omega
  · rintro rfl
    rfl

theorem serialDistance_nonneg : 0 ≤ serialDistance value.sendNext value.sendUnacknowledged := by
  have length := flight.length_le
  have bound := flight.bound
  have fin := value.finSent.toNat_le
  simp only [transmitSegmentCapacity, transmitCapacity] at length
  rw [flight.next, flight.unacknowledged,
    serialDistance_offset account.first _ _ (by omega) (by omega)]
  omega

/-- An acknowledgement of new positions trims what is queued. -/
theorem acknowledge {ack} (ahead : 0 < serialDistance ack value.sendUnacknowledged)
    (behind : serialDistance ack value.sendNext ≤ 0) :
    ∃ count, ack = account.first + UInt32.ofNat (acked + count) ∧
      Flight account { value with sendUnacknowledged := ack }
        (fun i => (pieces i).bind (trimPiece ack)) (acked + count) := by
  have length := flight.length_le
  have bound := flight.bound
  have fin := value.finSent.toNat_le
  simp only [transmitSegmentCapacity, transmitCapacity] at length
  have located : ack = account.first +
      UInt32.ofNat (acked + (ack - value.sendUnacknowledged).toNat) := by
    rw [← offset_add, ← flight.unacknowledged, add_ofNat_difference]
  have small : (ack - value.sendUnacknowledged).toNat < 2 ^ 31 := by
    rw [serialDistance_eq] at ahead
    split at ahead
    next small => exact small
    · have := (ack - value.sendUnacknowledged).toNat_lt; omega
  generalize (ack - value.sendUnacknowledged).toNat = count at located small
  have inside : acked + count ≤ account.accepted.length + value.finSent.toNat := by
    rw [located, flight.next, serialDistance_offset account.first _ _ (by omega) (by omega)]
      at behind
    omega
  refine ⟨count, located, flight.next, located, inside, fun sent => ?_, ?_⟩
  · have := flight.drained sent
    omega
  have moved : ack = value.sendUnacknowledged + UInt32.ofNat count := by
    rw [flight.unacknowledged, offset_add, located]
  cases sent : value.finSent with
  | true =>
    have drained := flight.drained sent
    have tiles := flight.tiles
    rw [drop_eq_nil_of_le drained] at tiles
    rw [drop_eq_nil_of_le (by omega)]
    exact .empty _ fun i => by simp [tiles.eq_none i]
  | false =>
    simp only [sent, Bool.toNat_false, Nat.add_zero] at inside
    have trimmed := flight.tiles.trim count (by rw [length_drop]; omega)
      (by rw [length_drop]; omega)
    rwa [← moved, drop_drop] at trimmed

/-- A segment with the next bytes of the stream joins the queue. -/
theorem append (unfinished : value.finSent = false) (vacant : pieces i = none)
    (nonempty : data ≠ []) (short : data.length ≤ transmitSegmentCapacity) :
    Flight { account with accepted := account.accepted ++ data }
      { value with sendNext := value.sendNext + UInt32.ofNat data.length }
      (Function.update pieces i (some (value.sendNext, data))) acked := by
  have bound := flight.bound
  have next := flight.next
  simp only [unfinished, Bool.toNat_false, Nat.add_zero] at bound next
  refine ⟨?_, flight.unacknowledged, ?_, ?_, ?_⟩
  · simp only [unfinished, Bool.toNat_false, Nat.add_zero, length_append]
    rw [next, offset_add]
  · simp only [length_append]
    omega
  · simp [unfinished]
  have tiles := flight.tiles.append vacant nonempty short
  have located : value.sendUnacknowledged +
      UInt32.ofNat (account.accepted.drop acked).length = value.sendNext := by
    rw [flight.unacknowledged, offset_add, length_drop, Nat.add_sub_cancel' bound, next]
  rw [located] at tiles
  simpa [drop_append_of_le_length bound] using tiles

theorem finish (unfinished : value.finSent = false)
    (idle : value.sendUnacknowledged = value.sendNext) :
    Flight account { value with sendNext := value.sendNext + 1, finSent := true } pieces acked ∧
      acked = account.accepted.length := by
  have all : acked = account.accepted.length := by
    simpa [unfinished] using flight.unacknowledged_eq_next.mp idle
  have next := flight.next
  simp only [unfinished, Bool.toNat_false, Nat.add_zero] at next
  refine ⟨⟨?_, flight.unacknowledged, ?_, fun _ => all.ge, flight.tiles⟩, all⟩
  · simp only [Bool.toNat_true]
    rw [next, ← offset_add]
    rfl
  · simp only [Bool.toNat_true]
    omega

end
end Flight

namespace Tuned
variable {value after : SocketSlot}

theorem flags (tuned : Tuned value after) (flags : FlagsAgree value) : FlagsAgree after := by
  simpa only [FlagsAgree, tuned.state, tuned.sendClosed, tuned.receiveClosed, tuned.finSent,
    tuned.finAcked, tuned.activeClose] using flags

theorem owned (tuned : Tuned value after) (inUse : value.state ≠ .free)
    (owned : Owned holders value) : Owned holders after := by
  rw [Owned] at owned ⊢
  rw [tuned.state, tuned.references, tuned.accepted, tuned.detached, tuned.listener]
  cases state : value.state with
  | free => exact absurd state inUse
  | _ => simpa only [state] using owned

end Tuned

namespace SlotInvariant
variable {account : Account} {value after : SocketSlot}
  {pieces : Fin transmitCapacity → Option (UInt32 × List UInt8)}

theorem tuned (invariant : SlotInvariant account value pieces) (tuned : Tuned value after)
    (inUse : value.state ≠ .free) : SlotInvariant account after pieces := by
  obtain ⟨flags, owned, sending, quiet, pos⟩ := invariant
  refine ⟨tuned.flags flags, tuned.owned inUse owned, ?_, fun idle => ?_, tuned.positive pos⟩
  · rw [Sending] at sending ⊢
    rw [tuned.state, tuned.accepted, tuned.finAcked, tuned.sendNext]
    split
    next synced =>
      rw [if_pos synced] at sending
      obtain ⟨empty, acked, flight, finished⟩ := sending
      exact ⟨empty, acked,
        flight.congr tuned.sendNext tuned.sendUnacknowledged tuned.finSent, finished⟩
    next idle =>
      rw [if_neg idle] at sending
      exact sending
  · rw [tuned.state] at idle
    exact tuned.quiet idle (quiet idle)

theorem freed (unheld : account.holders = 0) (empty : ∀ i, pieces i = none) :
    SlotInvariant account {} pieces where
  flags := by simp [FlagsAgree]
  owned := by simp [Owned, unheld]
  sending := by simp [Sending, isSynchronized, empty]
  quiet _ := rfl
  positive := by decide

section
variable (invariant : SlotInvariant account value pieces)
include invariant

theorem pieces_none (idle : isSynchronized value.state = false) (i : Fin transmitCapacity) :
    pieces i = none := by
  have sending := invariant.sending
  rw [Sending, if_neg (by simp [idle])] at sending
  exact sending.1 i

theorem pieces_none_of_unaccepted (unaccepted : value.accepted = false) (i : Fin transmitCapacity) :
    pieces i = none := by
  have sending := invariant.sending
  rw [Sending] at sending
  split at sending
  · obtain ⟨empty, acked, flight, -⟩ := sending
    have tiles := flight.tiles
    rw [empty unaccepted, drop_nil] at tiles
    exact tiles.eq_none i
  · exact sending.1 i

section
variable (synced : isSynchronized value.state = true)
include synced

theorem flight :
    ∃ acked, Flight account value pieces acked ∧
      (value.finAcked = true ↔ acked = account.accepted.length + 1) := by
  have sending := invariant.sending
  rw [Sending, if_pos synced] at sending
  exact sending.2

theorem accepted_nil (unaccepted : value.accepted = false) : account.accepted = [] := by
  have sending := invariant.sending
  rw [Sending, if_pos synced] at sending
  exact sending.1 unaccepted

theorem finAcked_false (unsent : value.finSent = false) : value.finAcked = false := by
  obtain ⟨acked, flight, finished⟩ := invariant.flight synced
  have bound := flight.bound
  rw [unsent, Bool.toNat_false] at bound
  by_contra acknowledged
  have := finished.mp (by simpa using acknowledged)
  omega

theorem pieces_none_of_finAcked (acknowledged : value.finAcked = true) (i : Fin transmitCapacity) :
    pieces i = none := by
  obtain ⟨acked, flight, finished⟩ := invariant.flight synced
  have tiles := flight.tiles
  rw [drop_eq_nil_of_le (by have := finished.mp acknowledged; omega)] at tiles
  exact tiles.eq_none i

end
end
end SlotInvariant

theorem owned_iff (synced : isSynchronized value.state = true) : Owned holders value ↔
      if value.accepted then
        if value.detached then holders = 0 ∧ value.references = 1
        else value.references.toNat = holders ∧ 0 < holders
      else
        holders = 0 ∧ value.references = 1 ∧ value.detached = false ∧
          value.listener ≠ invalidSocket ∧
          (value.state = .established ∨ value.state = .closeWait) := by
  rw [Owned]
  cases state : value.state with
  | free | control | created | bound | listening | synReceived | reset =>
    simp [state, isSynchronized] at synced
  | _ => rfl

namespace Owned
variable {holders : Nat} {value after : SocketSlot}

theorem waiting (owned : Owned holders value) (synced : isSynchronized value.state = true)
    (unaccepted : value.accepted = false) :
    value.state = .established ∨ value.state = .closeWait := by
  rw [owned_iff synced, if_neg (by simp [unaccepted])] at owned
  exact owned.2.2.2.2

theorem moved (owned : Owned holders value) (synced : isSynchronized value.state = true)
    (still : isSynchronized after.state = true) (taken : after.accepted = value.accepted)
    (detached : after.detached = value.detached) (references : after.references = value.references)
    (listener : after.listener = value.listener)
    (waiting : value.accepted = false → after.state = .established ∨ after.state = .closeWait) :
    Owned holders after := by
  rw [owned_iff synced] at owned
  rw [owned_iff still, taken, detached, references, listener]
  split
  next held => rwa [if_pos held] at owned
  next unheld =>
    rw [if_neg unheld] at owned
    exact ⟨owned.1, owned.2.1, owned.2.2.1, owned.2.2.2.1, waiting (by simpa using unheld)⟩

end Owned

namespace SlotInvariant
variable {account : Account} {value after : SocketSlot}
  {pieces : Fin transmitCapacity → Option (UInt32 × List UInt8)}

/-- The invariant of a connection whose handshake is complete, from its parts. -/
theorem ofFlight (synced : isSynchronized value.state = true) (flags : FlagsAgree value)
    (owned : Owned account.holders value) (empty : value.accepted = false → account.accepted = [])
    (flight : Flight account value pieces acked)
    (finished : value.finAcked = true ↔ acked = account.accepted.length + 1)
    (positive : value.flow.peerMss ≠ 0) : SlotInvariant account value pieces where
  flags := flags
  owned := owned
  sending := by
    rw [Sending, if_pos synced]
    exact ⟨empty, acked, flight, finished⟩
  quiet idle := by
    rw [synced] at idle
    cases idle
  positive := positive

section
variable (invariant : SlotInvariant account value pieces)
include invariant

section
variable (synced : isSynchronized value.state = true)
include synced

theorem moved (still : isSynchronized after.state = true) (flags : FlagsAgree after)
    (taken : after.accepted = value.accepted) (detached : after.detached = value.detached)
    (references : after.references = value.references) (listener : after.listener = value.listener)
    (waiting : value.accepted = false → after.state = .established ∨ after.state = .closeWait)
    (next : after.sendNext = value.sendNext)
    (unacknowledged : after.sendUnacknowledged = value.sendUnacknowledged)
    (finSent : after.finSent = value.finSent) (finAcked : after.finAcked = value.finAcked)
    (pos : after.flow.peerMss = value.flow.peerMss) : SlotInvariant account after pieces := by
  obtain ⟨-, owned, sending, -, mss⟩ := invariant
  rw [Sending, if_pos synced] at sending
  obtain ⟨empty, acked, flight, finished⟩ := sending
  exact .ofFlight still flags (owned.moved synced still taken detached references listener waiting)
    (by rwa [taken]) (flight.congr next unacknowledged finSent) (by rwa [finAcked])
    (by rwa [pos])

theorem extended (taken : value.accepted = true) (unfinished : value.finSent = false)
    (unacked : value.finAcked = false) (vacant : pieces i = none) (nonempty : data ≠ [])
    (short : data.length ≤ transmitSegmentCapacity) :
    SlotInvariant { account with accepted := account.accepted ++ data }
      { value with sendNext := value.sendNext + UInt32.ofNat data.length }
      (Function.update pieces i (some (value.sendNext, data))) := by
  obtain ⟨acked, flight, -⟩ := invariant.flight synced
  have bound := flight.bound
  simp only [unfinished, Bool.toNat_false, Nat.add_zero] at bound
  have owned := (owned_iff synced).mp invariant.owned
  refine .ofFlight synced invariant.flags ((owned_iff (by exact synced)).mpr owned)
    (by simp [taken]) (flight.append unfinished vacant nonempty short) ?_ invariant.positive
  simp only [unacked, length_append]
  refine iff_of_false Bool.false_ne_true ?_
  omega

theorem received (received : Received value after) : SlotInvariant account after pieces := by
  have flags := invariant.flags
  have owned := (owned_iff synced).mp invariant.owned
  cases received with
  | data buffer next =>
    exact invariant.moved synced synced flags rfl rfl rfl rfl
      (fun unaccepted => by simp_all) rfl rfl rfl rfl rfl
  | finish buffer next unclosed =>
    have open_ : value.state = .established ∨ value.state = .finWait1 ∨
        value.state = .finWait2 := by
      rw [FlagsAgree] at flags
      cases state : value.state <;> simp_all [isSynchronized]
    refine invariant.moved synced ?_ ?_ rfl rfl rfl rfl ?_ rfl rfl rfl rfl rfl
    · rcases open_ with state | state | state <;>
        simp [state, SocketTable.finishedState, isSynchronized]
    · rw [FlagsAgree] at flags
      rcases open_ with state | state | state <;> rw [state] at flags <;>
        simp_all [SocketTable.finishedState, FlagsAgree]
    · intro unaccepted
      rcases open_ with state | state | state <;> simp_all [SocketTable.finishedState]

end

theorem aborted (taken : value.accepted = true) (attached : value.detached = false)
    (failure : SocketResult) (empty : ∀ i, rest i = none) : SlotInvariant account
      { value with
        receiveBuffer := []
        state := .reset
        failure
        receiveClosed := false
        flow.persistWaiting := false } rest where
  flags := rfl
  owned := by
    have owned := invariant.owned
    rw [Owned] at owned ⊢
    cases state : value.state <;> simp_all
  sending := by
    rw [Sending, if_neg (by simp [isSynchronized])]
    exact ⟨empty, by simp⟩
  quiet _ := rfl
  positive := invariant.positive

end
end SlotInvariant

namespace Received
variable {before after : SocketSlot}

theorem isSynchronized (received : Received before after)
    (synced : isSynchronized before.state = true) : Network.isSynchronized after.state = true := by
  cases received with
  | data buffer next => exact synced
  | finish buffer next unclosed =>
    cases state : before.state <;> simp_all [SocketTable.finishedState, Network.isSynchronized]

theorem timeWait (received : Received before after) (flags : FlagsAgree before)
    (synced : Network.isSynchronized before.state = true) (unclosed : before.receiveClosed = false)
    (closed : after.receiveClosed = true) (acked : after.finAcked = true) :
    after.state = .timeWait := by
  cases received with
  | data buffer next =>
    rw [unclosed] at closed
    cases closed
  | finish buffer next _ =>
    rw [FlagsAgree] at flags
    cases state : before.state <;> simp_all [SocketTable.finishedState, Network.isSynchronized]

end Received

/-! ## Frames handed to the driver -/

/-- A segment with data that the stack sends for the first time. -/
def Segment.isFirst (segment : Segment) : Bool :=
  segment.payload ≠ [] && segment.sequence = segment.socket.sendNext

/-- A segment carries the accepted bytes that belong to its sequence number. -/
def CarriesAccepted (account : Account) (segment : Segment) : Prop :=
  ∃ offset, segment.sequence = account.first + UInt32.ofNat offset ∧
    offset + segment.payload.length ≤ account.accepted.length ∧
    segment.payload = (account.accepted.drop offset).take segment.payload.length

/-- A segment carries bytes that a write offered for its sequence number. -/
def CarriesOffered (account : Account) (segment : Segment) : Prop :=
  ∃ offer ∈ account.offers, ∃ skipped,
    segment.sequence = account.first + UInt32.ofNat (offer.1 + skipped) ∧
    segment.payload = (offer.2.drop skipped).take segment.payload.length

/-- States before the end of our stream is requested. -/
def isSendOpen : SocketState → Bool
  | .synReceived | .established | .closeWait => true
  | _ => false

/-- Segments of one user of a slot, each with the driver's answer.  Data is what
writes accepted for its sequence number, or what a write offered when the driver
refused to take it; what the driver took for the first time is all that writes
accepted; and the end of stream follows the last accepted byte, sent when all
of them are acknowledged. -/
structure Recorded (account : Account) (value : SocketSlot) (sent : List (Segment × Bool)) :
    Prop where
  data : ∀ record ∈ sent, record.1.payload ≠ [] →
    (record.2 = false ∧ record.1.isFirst = true ∧ CarriesOffered account record.1) ∨
      CarriesAccepted account record.1
  firsts : (sent.filter fun record => record.2 && record.1.isFirst).flatMap
    (fun record => record.1.payload) = account.accepted
  finish : ∀ record ∈ sent, record.1.flags &&& tcpFin ≠ 0 →
    record.1.sequence = account.first + UInt32.ofNat account.accepted.length ∧
      record.1.socket.sendUnacknowledged = record.1.sequence
  unfinished : isSendOpen value.state = true → ∀ record ∈ sent, record.1.flags &&& tcpFin = 0
  finished : value.finSent = true →
    ∃ record ∈ sent, record.2 = true ∧ record.1.flags &&& tcpFin ≠ 0

namespace Recorded
variable {account : Account} {value after : SocketSlot} {sent : List (Segment × Bool)}
  {segment : Segment} {answer : Bool}

theorem none (nothing : account.accepted = []) (unfinished : value.finSent = false) :
    Recorded account value [] where
  data := by simp
  firsts := by simp [nothing]
  finish := by simp
  unfinished := by simp
  finished finSent := by
    rw [unfinished] at finSent
    cases finSent

section
variable (recorded : Recorded account value sent)
include recorded

theorem congr (state : isSendOpen after.state = true → isSendOpen value.state = true)
    (finSent : after.finSent = true → value.finSent = true) : Recorded account after sent :=
  { recorded with
    unfinished := fun opened => recorded.unfinished (state opened)
    finished := fun finished => recorded.finished (finSent finished) }

theorem received (flags : FlagsAgree value) (synced : isSynchronized value.state = true)
    (received : Received value after) : Recorded account after sent := by
  cases received with
  | data buffer next => exact recorded.congr id id
  | finish buffer next unclosed =>
    refine recorded.congr ?_ id
    rw [FlagsAgree] at flags
    cases state : value.state <;> simp_all [SocketTable.finishedState, isSendOpen, isSynchronized]

/-- Record a segment.  The account grows by its data when the driver took it for
the first time, which happens only before the end of the stream is requested. -/
theorem append (grown : extra = if answer && segment.isFirst then segment.payload else [])
    (growing : extra ≠ [] → isSendOpen value.state = true)
    (carries : segment.payload ≠ [] → answer = true ∨ segment.isFirst = false →
      CarriesAccepted { account with accepted := account.accepted ++ extra } segment)
    (offered : answer = false → segment.isFirst = true → CarriesOffered account segment)
    (noFin : isSendOpen value.state = true → segment.flags &&& tcpFin = 0)
    (finish : segment.flags &&& tcpFin ≠ 0 →
      segment.sequence = account.first + UInt32.ofNat account.accepted.length ∧
        segment.socket.sendUnacknowledged = segment.sequence) :
    Recorded { account with accepted := account.accepted ++ extra } value
      (sent ++ [(segment, answer)]) where
  data record mem nonempty := by
    rcases mem_append.mp mem with earlier | last
    · rcases recorded.data record earlier nonempty with refused | ⟨offset, located, inside, same⟩
      · exact .inl refused
      refine .inr ⟨offset, located, ?_, ?_⟩
      · simp only [length_append]
        omega
      · rw [drop_append_of_le_length (by omega),
          take_append_of_le_length (by rw [length_drop]; omega)]
        exact same
    cases mem_singleton.mp last
    cases answer with
    | true => exact .inr (carries nonempty (.inl rfl))
    | false =>
      by_cases first : segment.isFirst = true
      · exact .inl ⟨rfl, first, offered rfl first⟩
      · exact .inr (carries nonempty (.inr (by simpa using first)))
  firsts := by
    rw [filter_append, flatMap_append, recorded.firsts, grown]
    cases taken : answer && segment.isFirst <;> simp [taken]
  finish record mem ends := by
    have same : isSendOpen value.state = false → extra = [] := by
      intro closed
      by_contra nonempty
      rw [growing nonempty] at closed
      cases closed
    cases opened : isSendOpen value.state with
    | true =>
      rcases mem_append.mp mem with earlier | last
      · exact absurd (recorded.unfinished opened record earlier) ends
      · cases mem_singleton.mp last
        exact absurd (noFin opened) ends
    | false =>
      rw [same opened, append_nil]
      rcases mem_append.mp mem with earlier | last
      · exact recorded.finish record earlier ends
      · cases mem_singleton.mp last
        exact finish ends
  unfinished opened record mem := by
    rcases mem_append.mp mem with earlier | last
    · exact recorded.unfinished opened record earlier
    · cases mem_singleton.mp last
      exact noFin opened
  finished finSent := by
    obtain ⟨record, mem, taken⟩ := recorded.finished finSent
    exact ⟨record, mem_append_left _ mem, taken⟩

theorem extend (opened : isSendOpen value.state = true) (first : segment.isFirst = true)
    (located : segment.sequence = account.first + UInt32.ofNat account.accepted.length)
    (noFin : segment.flags &&& tcpFin = 0) :
    Recorded { account with accepted := account.accepted ++ segment.payload } value
      (sent ++ [(segment, true)]) := by
  refine recorded.append (by simp [first]) (fun _ => opened) (fun _ _ => ?_)
    (fun refused => by cases refused) (fun _ => noFin) (fun ends => absurd noFin ends)
  exact ⟨account.accepted.length, located, by simp, by simp⟩

theorem resend (repeated : (answer && segment.isFirst) = false)
    (carries : segment.payload ≠ [] → segment.isFirst = false → CarriesAccepted account segment)
    (offered : segment.isFirst = true → CarriesOffered account segment)
    (noFin : segment.flags &&& tcpFin = 0) :
    Recorded account value (sent ++ [(segment, answer)]) := by
  have appended : Recorded { account with accepted := account.accepted ++ [] } value
      (sent ++ [(segment, answer)]) := by
    refine recorded.append (by simp [repeated]) (by simp) (fun nonempty taken => ?_)
      (fun _ => offered) (fun _ => noFin) (fun ends => absurd noFin ends)
    simp only [append_nil]
    refine carries nonempty ?_
    rcases taken with taken | first
    · simpa [taken] using repeated
    · exact first
  simpa using appended

theorem control (empty : segment.payload = []) (noFin : segment.flags &&& tcpFin = 0) :
    Recorded account value (sent ++ [(segment, answer)]) :=
  recorded.resend (by simp [Segment.isFirst, empty]) (fun nonempty => absurd empty nonempty)
    (by simp [Segment.isFirst, empty]) noFin

theorem sendFinish (empty : segment.payload = [])
    (located : segment.sequence = account.first + UInt32.ofNat account.accepted.length)
    (acknowledged : segment.socket.sendUnacknowledged = segment.sequence)
    (requested : isSendOpen value.state = false) :
    Recorded account value (sent ++ [(segment, answer)]) := by
  have appended : Recorded { account with accepted := account.accepted ++ [] } value
      (sent ++ [(segment, answer)]) :=
    recorded.append (by simp [Segment.isFirst, empty]) (by simp)
      (fun nonempty => absurd empty nonempty) (by simp [Segment.isFirst, empty])
      (by simp [requested]) (fun _ => ⟨located, acknowledged⟩)
  simpa using appended

end
end Recorded
end Mikos.Network
