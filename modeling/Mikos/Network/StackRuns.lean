import Mikos.Network.StackWrites

/-!
# Runs of the stack

A run is a sequence of calls and polls, starting from a stack that was just
constructed.  Beside the stack a run keeps the account of the present user of
every slot.  The invariant holds in every state that is reached as long as
callers command a connection only through a handle they hold.
-/

namespace Mikos.Network
open Library Stack List

/-- A stack with the accounts of its slots. -/
structure Tracked where
  stack : Stack := {}
  accounts : Fin socketCapacity → Account := fun _ => {}

/-- The handle of a call that takes part in the ownership of a slot or in the
sending of its connection. -/
def StackEvent.commanded : StackEvent → SocketHandle
  | .retain handle | .close _ handle | .write _ handle _ | .shutdown _ handle _ => handle
  | _ => invalidSocket

namespace Tracked

/-- The stack as it is constructed. -/
def initial : Tracked := {}

/-- The accounts at the start of an event.  A slot that is free has had its user;
the next one starts behind everything sent so far, at the next initial sequence
number. -/
def renewed (tracked : Tracked) (index : Fin socketCapacity) : Account :=
  if (tracked.stack.socket index).state = .free then
    { begun := tracked.stack.transmitted.length, first := tracked.stack.nextSequence + 1 }
  else
    tracked.accounts index

variable (driver : Nat → Bool)

def step (tracked : Tracked) (event : StackEvent) : Tracked where
  stack := tracked.stack.after driver event
  accounts index := event.credit driver tracked.stack index (tracked.renewed index)

def run (tracked : Tracked) (events : List StackEvent) : Tracked :=
  events.foldl (step driver) tracked

/-- A commanding call names a slot that is free, or one its caller holds. -/
def Permits (tracked : Tracked) (event : StackEvent) : Prop :=
  ∀ index, event.commanded = some index →
    (tracked.stack.socket index).state = .free ∨ 0 < (tracked.accounts index).holders
deriving Decidable

/-- Every event of a run is permitted where it happens. -/
def Disciplined : Tracked → List StackEvent → Prop
  | _, [] => True
  | tracked, event :: rest => tracked.Permits event ∧ Disciplined (tracked.step driver event) rest

instance decidableDisciplined : (tracked : Tracked) → (events : List StackEvent) →
    Decidable (Disciplined driver tracked events)
  | _, [] => inferInstanceAs (Decidable True)
  | tracked, event :: rest =>
    have := decidableDisciplined (tracked.step driver event) rest
    inferInstanceAs (Decidable (tracked.Permits event ∧ _))

variable {driver} {tracked : Tracked} {history : List Transmission}

@[simp] theorem run_concat (events : List StackEvent) (event : StackEvent) :
    tracked.run driver (events ++ [event]) = (tracked.run driver events).step driver event := by
  simp [run]

theorem disciplined_append : Disciplined driver tracked (events ++ later) ↔
      Disciplined driver tracked events ∧ Disciplined driver (tracked.run driver events) later := by
  induction events generalizing tracked with
  | nil => simp [Disciplined, run]
  | cons first rest ih => simp [Disciplined, ih, run, and_assoc]

/-! ## One event -/

theorem renew (invariant : StackInvariant history tracked.accounts tracked.stack) :
    StackInvariant tracked.stack.transmitted tracked.renewed tracked.stack ∧
      StackInvariant.Fresh tracked.renewed tracked.stack := by
  have nothing : tracked.stack.sentBy = fun i begun =>
      (tracked.stack.transmitted.drop begun).filterMap (Transmission.sentBy i) := rfl
  refine ⟨⟨prefix_rfl, invariant.attributed, invariant.queue, fun i => ?_,
    fun i => ?_, fun i => ?_⟩, fun i free => ?_⟩
  · rw [renewed]
    split
    · exact le_rfl
    · exact invariant.begun i
  · have slot := invariant.slots i
    rw [renewed]
    split
    next free =>
      have owned := slot.owned
      rw [Owned, free] at owned
      rw [owned.1]
      exact .freed rfl (slot.pieces_none (by rw [free]; rfl))
    · exact slot
  · rw [renewed]
    split
    next free =>
      have flags := (invariant.slots i).flags
      rw [FlagsAgree, free] at flags
      simp only [nothing, drop_length, filterMap_nil]
      exact .none rfl flags.2.2.1
    · exact invariant.records i
  · rw [renewed, if_pos free]
    simp [nothing]

theorem Permits.held (granted : tracked.Permits event) (i : Fin socketCapacity)
    (commanded : event.commanded = some i) (inUse : (tracked.stack.socket i).state ≠ .free) :
    0 < (tracked.renewed i).holders := by
  rw [renewed, if_neg inUse]
  exact (granted i commanded).resolve_left inUse

theorem invariant_step (driver : Nat → Bool)
    (invariant : StackInvariant history tracked.accounts tracked.stack)
    (granted : tracked.Permits event) :
    StackInvariant tracked.stack.transmitted (tracked.step driver event).accounts
      (tracked.step driver event).stack := by
  obtain ⟨invariant, fresh⟩ := renew invariant
  have held := granted.held
  cases event with
  | start device =>
    simp only [step, Stack.after, initializeStack]
    split
    · exact invariant
    · cases device with
      | none => exact invariant
      | some mac => exact invariant.congr rfl rfl rfl
  | poll now frame => exact invariant.poll fresh now frame
  | ioctl request value =>
    simp only [step, Stack.after, Stack.ioctl]
    split
    · exact invariant
    · exact invariant.congr rfl rfl rfl
  | «open» type => exact invariant.socketOpen driver type
  | retain handle => exact invariant.socketRetain driver held
  | close now handle => exact invariant.socketClose now held
  | bind handle localEnd => exact invariant.socketBind handle localEnd
  | listen handle backlog => exact invariant.socketListen handle backlog
  | accept handle => exact invariant.socketAccept driver handle
  | read now handle size => exact invariant.socketRead now handle size
  | write now handle input => exact invariant.socketWrite now input held
  | shutdown now handle how => exact invariant.socketShutdown now held how

theorem begun_step (driver : Nat → Bool)
    (invariant : StackInvariant history tracked.accounts tracked.stack) (event : StackEvent)
    (i : Fin socketCapacity) :
    ((tracked.step driver event).accounts i).begun ≤ tracked.stack.transmitted.length := by
  have begun := (renew invariant).1.begun i
  have same : ((tracked.step driver event).accounts i).begun = (tracked.renewed i).begun := by
    cases event <;> simp only [step, StackEvent.credit] <;> split <;> rfl
  rwa [same]

/-! ## Whole runs -/

theorem invariant_initial : StackInvariant [] (fun _ => {}) ({} : Stack) where
  grown := nil_prefix
  attributed := by simp
  queue := by simp [QueueValid]
  begun _ := Nat.zero_le _
  slots _ := .freed rfl fun _ => rfl
  records _ := .none rfl rfl

/-- The invariant holds wherever a disciplined run leads. -/
theorem invariant_run (disciplined : Disciplined driver .initial events) :
    ∃ history, StackInvariant history (run driver .initial events).accounts
      (run driver .initial events).stack := by
  induction events using List.reverseRecOn with
  | nil => exact ⟨[], invariant_initial⟩
  | append_singleton events event ih =>
    obtain ⟨earlier, granted, -⟩ := disciplined_append.mp disciplined
    obtain ⟨history, invariant⟩ := ih earlier
    rw [run_concat]
    exact ⟨_, invariant_step driver invariant granted⟩

/-- A segment of a slot was sent in some event, by the slot's user at the time. -/
theorem sentBy_run {segment : Segment} (disciplined : Disciplined driver .initial events)
    (sent : (run driver .initial events).stack.transmitted[place]? = some (.segment segment reply))
    (owner : segment.owner = some i) : ∃ earlier, earlier <+: events ∧
      ((run driver .initial earlier).accounts i).begun ≤ place ∧
      place < (run driver .initial earlier).stack.transmitted.length ∧
      (segment, reply) ∈ (run driver .initial earlier).stack.sentBy i
        ((run driver .initial earlier).accounts i).begun := by
  induction events using List.reverseRecOn with
  | nil => cases sent
  | append_singleton events event ih =>
    obtain ⟨earlier, granted, -⟩ := disciplined_append.mp disciplined
    obtain ⟨history, invariant⟩ := invariant_run earlier
    have next := invariant_step driver invariant granted
    obtain ⟨records, log⟩ := next.grown
    by_cases old : place < (run driver .initial events).stack.transmitted.length
    · rw [run_concat, ← log, List.getElem?_append_left old] at sent
      obtain ⟨before, isPrefix, found⟩ := ih earlier sent
      exact ⟨before, isPrefix.trans (prefix_append ..), found⟩
    have begun := begun_step driver invariant event i
    refine ⟨events ++ [event], prefix_rfl, ?_, ?_, ?_⟩
    · rw [run_concat]
      omega
    · exact (List.getElem?_eq_some_iff.mp sent).1
    rw [sentBy]
    refine mem_filterMap.mpr ⟨.segment segment reply, ?_, ?_⟩
    · rw [run_concat] at sent ⊢
      rw [← Nat.add_sub_cancel' (begun.trans (Nat.le_of_not_lt old)), ← List.getElem?_drop] at sent
      exact mem_of_getElem? sent
    · rw [Transmission.sentBy, if_pos owner]

end Tracked

/-! ## What the stack promises -/

open Tracked

/-- What a segment carries, judged by the account of the slot's user when it was
handed to the driver: accepted bytes of that user at their sequence number, or
bytes offered for it when the driver refused to take them; and an end of stream
only behind all accepted bytes, when all of them are acknowledged. -/
structure Faithful (account : Account) (segment : Segment) (answer : Bool) : Prop where
  data : segment.payload ≠ [] →
    (answer = false ∧ segment.isFirst = true ∧ CarriesOffered account segment) ∨
      CarriesAccepted account segment
  finish : segment.flags &&& tcpFin ≠ 0 →
    segment.sequence = account.first + UInt32.ofNat account.accepted.length ∧
      segment.socket.sendUnacknowledged = segment.sequence

/-- In a state reached by a disciplined run: the queued segments of a connection
tile its unacknowledged bytes, and carry them; no queued segment names a free
slot; every segment ever handed to the driver was faithful to the account of its
user; and exactly the first transmissions that the driver took have consumed
sequence numbers. -/
theorem send_stream_integrity (driver : Nat → Bool) (events : List StackEvent)
    (disciplined : Disciplined driver .initial events) :
    (∀ index,
      let value := (run driver .initial events).stack.socket index
      isConnection value.state = true → value.state ≠ .synReceived → value.state ≠ .reset →
        ∃ acked, Flight ((run driver .initial events).accounts index) value
          ((run driver .initial events).stack.pieces index) acked) ∧
    (∀ position entry, (run driver .initial events).stack.transmissions position = some entry →
      ∃ index, entry.1.handle = some index ∧
        ((run driver .initial events).stack.socket index).state ≠ .free) ∧
    (∀ position segment answer,
      (run driver .initial events).stack.transmitted[position]? = some (.segment segment answer) →
      (segment.owner = invalidSocket → segment.payload = [] ∧ segment.flags &&& tcpFin = 0) ∧
      ∀ index, segment.owner = some index → ∃ earlier, earlier <+: events ∧
        ((run driver .initial earlier).accounts index).begun ≤ position ∧
        position < (run driver .initial earlier).stack.transmitted.length ∧
        Faithful ((run driver .initial earlier).accounts index) segment answer) ∧
    ∀ index,
      let account := (run driver .initial events).accounts index
      let sent := (run driver .initial events).stack.sentBy index account.begun
      (sent.filter fun record => record.2 && record.1.isFirst).flatMap
          (fun record => record.1.payload) = account.accepted ∧
        (((run driver .initial events).stack.socket index).finSent = true →
          ∃ record ∈ sent, record.2 = true ∧ record.1.flags &&& tcpFin ≠ 0) := by
  obtain ⟨history, invariant⟩ := invariant_run disciplined
  refine ⟨fun index connected complete alive => ?_, fun position entry queued => ?_,
    fun position segment answer sent => ⟨?_, fun index owner => ?_⟩, fun index => ?_⟩
  · obtain ⟨acked, flight, -⟩ := (invariant.slots index).flight
      (isSynchronized_of_connection connected complete alive)
    exact ⟨acked, flight⟩
  · obtain ⟨named, -⟩ := invariant.queue position entry queued
    obtain ⟨index, named⟩ := Option.ne_none_iff_exists'.mp named
    refine ⟨index, named, fun free => ?_⟩
    have none := (invariant.slots index).pieces_none (by rw [free]; rfl) position
    simp [Stack.pieces, pendingAt, queued, named, Option.filter] at none
  · exact invariant.attributed _ (mem_of_getElem? sent)
  · obtain ⟨earlier, isPrefix, begun, reached, member⟩ := sentBy_run disciplined sent owner
    obtain ⟨later, rfl⟩ := isPrefix
    obtain ⟨_, invariant⟩ := invariant_run (disciplined_append.mp disciplined).1
    have records := invariant.records index
    exact ⟨earlier, prefix_append .., begun, reached,
      ⟨records.data _ member, records.finish _ member⟩⟩
  · exact ⟨(invariant.records index).firsts, (invariant.records index).finished⟩

/-- A segment of the peer at 10.0.2.2:4000 for our port 80, without data. -/
def peerFrame (flags : UInt8) (sequence acknowledgement : UInt32) : List UInt8 :=
  Segment.frame
    { owner := invalidSocket
      socket :=
        { localEnd := ⟨⟨#v[10, 0, 2, 2]⟩, 4000⟩
          remoteEnd := ⟨⟨#v[10, 0, 2, 15]⟩, 80⟩
          receiveNext := acknowledgement }
      mac := {}
      identification := 0
      flags
      payload := []
      sequence }

/-- Slot 0 listens on port 80. -/
def listening : List StackEvent :=
  [.open .stream, .bind (some 0) ⟨⟨#v[10, 0, 2, 15]⟩, 80⟩, .listen (some 0) 1]

/-- The peer connects, and gets slot 1; our first byte has number `first`. -/
def connecting (first : UInt32) : List StackEvent :=
  [.poll 0 (some (peerFrame tcpSyn 1000 0)), .poll 0 (some (peerFrame tcpAck 1001 first))]

/-- A served connection: a write that is acknowledged in part, another one, and a
request to end the stream. -/
def serving : List StackEvent :=
  .start (some {}) :: listening ++ connecting 0x4d494b50 ++
    [.accept (some 0), .write 0 (some 1) [1, 2, 3], .write 0 (some 1) [4, 5],
      .poll 0 (some (peerFrame tcpAck 1001 (0x4d494b50 + 2))), .shutdown 0 (some 1) 1]

/-- The driver refuses the second write. -/
theorem send_stream_integrity_serving :
    ∃ acked,
      Flight ((run (fun call => call ≠ 2) .initial serving).accounts 1)
        ((run (fun call => call ≠ 2) .initial serving).stack.socket 1)
        ((run (fun call => call ≠ 2) .initial serving).stack.pieces 1) acked := by
  refine (send_stream_integrity (fun call => call ≠ 2) serving ?_).1 1 ?_ ?_ ?_ <;>
    decide +kernel

/-- A caller keeps using a handle it closed: it writes to a connection that
nobody accepted, and the listener is closed. -/
def intruding : List StackEvent :=
  .start (some {}) :: listening ++ [.open .stream, .close 0 (some 1)] ++
    connecting 0x4d494b50 ++ [.write 0 (some 1) [7], .close 0 (some 0)]

/-- Without the discipline, a segment can stay in the queue for a free slot. -/
theorem send_stream_intruding :
    ((run (fun _ => true) .initial intruding).stack.transmissions 0).map
        (fun entry => entry.1.handle) = some (some 1) ∧
      ((run (fun _ => true) .initial intruding).stack.socket 1).state = .free := by
  decide +kernel

/-- The flags of a slot agree with its state, and an acknowledged end of stream
leaves nothing in flight. -/
structure StateConsistent (stack : Stack) (index : Fin socketCapacity) : Prop where
  established : (stack.socket index).state = .established →
    (stack.socket index).sendClosed = false ∧ (stack.socket index).receiveClosed = false
  closeWait : (stack.socket index).state = .closeWait →
    (stack.socket index).receiveClosed = true ∧ (stack.socket index).sendClosed = false
  finWait1 : (stack.socket index).state = .finWait1 →
    (stack.socket index).sendClosed = true ∧ (stack.socket index).receiveClosed = false ∧
      (stack.socket index).finAcked = false
  finWait2 : (stack.socket index).state = .finWait2 →
    (stack.socket index).sendClosed = true ∧ (stack.socket index).finAcked = true ∧
      (stack.socket index).receiveClosed = false
  closing : (stack.socket index).state = .closing →
    (stack.socket index).sendClosed = true ∧ (stack.socket index).receiveClosed = true ∧
      (stack.socket index).activeClose = true ∧ (stack.socket index).finAcked = false
  lastAck : (stack.socket index).state = .lastAck →
    (stack.socket index).sendClosed = true ∧ (stack.socket index).receiveClosed = true ∧
      (stack.socket index).activeClose = false
  timeWait : (stack.socket index).state = .timeWait →
    (stack.socket index).finAcked = true ∧ (stack.socket index).receiveClosed = true
  acknowledged : (stack.socket index).state ≠ .reset → (stack.socket index).finAcked = true →
    (stack.socket index).finSent = true ∧
      (stack.socket index).sendUnacknowledged = (stack.socket index).sendNext ∧
      ∀ position, stack.pendingAt index position = none

/-- An acknowledged end of stream was sent, and nothing is behind it or queued. -/
theorem SlotInvariant.acknowledged {pieces : Fin transmitCapacity → Option (UInt32 × List UInt8)}
    (invariant : SlotInvariant account value pieces) (alive : value.state ≠ .reset)
    (acknowledged : value.finAcked = true) :
    value.finSent = true ∧ value.sendUnacknowledged = value.sendNext ∧ ∀ i, pieces i = none := by
  have synced : isSynchronized value.state = true := by
    have flags := invariant.flags
    rw [FlagsAgree] at flags
    cases state : value.state <;> simp_all [isSynchronized]
  obtain ⟨acked, flight, finished⟩ := invariant.flight synced
  have all := finished.mp acknowledged
  have bound := flight.bound
  have sent : value.finSent = true := by
    cases sent : value.finSent with
    | true => rfl
    | false =>
      rw [sent, Bool.toNat_false] at bound
      omega
  refine ⟨sent, flight.unacknowledged_eq_next.mpr ?_,
    invariant.pieces_none_of_finAcked synced acknowledged⟩
  rw [all, sent, Bool.toNat_true]

/-- In every state reached by a disciplined run, every slot is consistent. -/
theorem connection_state_consistency (driver : Nat → Bool) (events : List StackEvent)
    (disciplined : Disciplined driver .initial events) (index : Fin socketCapacity) :
    StateConsistent (run driver .initial events).stack index := by
  obtain ⟨history, invariant⟩ := invariant_run disciplined
  have slot := invariant.slots index
  have flags := slot.flags
  rw [FlagsAgree] at flags
  refine ⟨?_, ?_, ?_, ?_, ?_, ?_, ?_, fun alive acknowledged => ?_⟩
  iterate 7
    intro state
    rw [state] at flags
    simp [flags]
  obtain ⟨sent, caughtUp, empty⟩ := slot.acknowledged alive acknowledged
  exact ⟨sent, caughtUp, fun position => by simpa [pieces] using empty position⟩

/-- The driver refuses a later frame of the served connection. -/
theorem connection_state_consistency_serving :
    StateConsistent (run (fun call => call ≠ 3) .initial serving).stack 1 :=
  connection_state_consistency (fun call => call ≠ 3) serving (by decide +kernel) 1

/-- As before, but the caller first gets more bytes through than separate two
initial sequence numbers; the next connection in the slot ends its stream. -/
def outliving : List StackEvent :=
  .start (some {}) :: listening ++ [.open .stream, .close 0 (some 1)] ++
    connecting 0x4d494b50 ++
    ((List.range 17).flatMap fun round =>
      [.write 0 (some 1) (List.replicate 4096 0),
        .poll 0 (some (peerFrame tcpAck 1001 (0x4d494b50 + 4096 * UInt32.ofNat (round + 1))))]) ++
    [.write 0 (some 1) [7], .close 0 (some 0)] ++
    listening ++ connecting (0x4d494b50 + 0x10001) ++
    [.accept (some 0), .shutdown 0 (some 1) 1,
      .poll 0 (some (peerFrame tcpAck 1001 (0x4d494b50 + 0x10002)))]

/-- Without the discipline, a queued segment can outlive an acknowledged end of
stream. -/
theorem connection_state_outliving :
    ¬ StateConsistent (run (fun _ => true) .initial outliving).stack 1 := by
  intro consistent
  have acknowledged : ((run (fun _ => true) .initial outliving).stack.socket 1).state ≠ .reset ∧
      ((run (fun _ => true) .initial outliving).stack.socket 1).finAcked = true ∧
      (run (fun _ => true) .initial outliving).stack.pendingAt 1 0 ≠ none := by
    decide +kernel
  exact acknowledged.2.2
    ((consistent.acknowledged acknowledged.1 acknowledged.2.1).2.2 0)

end Mikos.Network
