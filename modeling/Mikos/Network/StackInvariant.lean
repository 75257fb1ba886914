import Mikos.Network.Connection

/-!
# The invariant of the stack

All slots keep their invariant at once.  Almost every routine of the stack works
on one socket; `Touches` says so, and the invariant of the whole stack then
follows from the invariant of that socket.  The routines are treated in the
order of the stack's source: sending, queued data, ending a connection, timers,
incoming segments.
-/

namespace Mikos.Network
open Library Function List

/-- The segment of a transmission with its answer, if a slot sent it. -/
def Transmission.sentBy (index : Fin socketCapacity) : Transmission → Option (Segment × Bool)
  | .reply _ _ => none
  | .segment value accepted =>
    if value.owner = some index then some (value, accepted) else none

/-- Data and ends of streams are sent by slots. -/
def Transmission.Attributed : Transmission → Prop
  | .reply _ _ => True
  | .segment value _ =>
    value.owner = invalidSocket → value.payload = [] ∧ value.flags &&& tcpFin = 0

namespace Stack

/-- The queued data of a connection by transmission slot. -/
def pieces (stack : Stack) (index : Fin socketCapacity) (position : Fin transmitCapacity) :
    Option (UInt32 × List UInt8) :=
  (stack.pendingAt index position).map fun entry => (entry.1.sequence, entry.2.data)

/-- What a slot handed to the driver since a point of the log. -/
def sentBy (stack : Stack) (index : Fin socketCapacity) (begun : Nat) : List (Segment × Bool) :=
  (stack.transmitted.drop begun).filterMap (Transmission.sentBy index)

/-- Queued segments name a slot and never end a stream. -/
def QueueValid (stack : Stack) : Prop :=
  ∀ position entry, stack.transmissions position = some entry →
    entry.1.handle ≠ invalidSocket ∧ entry.2.flags &&& tcpFin = 0

variable {driver : Nat → Bool} {stack first second third : Stack}
  {i j : Fin socketCapacity}

/-! ## Views of an updated stack -/

@[simp] theorem socket_setSocket_self (value : SocketSlot) :
    (stack.setSocket i value).socket i = value := by
  simp [setSocket, socket]

theorem socket_setSocket_of_ne (apart : j ≠ i) (value : SocketSlot) :
    (stack.setSocket i value).socket j = stack.socket j :=
  SocketTable.setSlot_slots_of_ne apart value

@[simp] theorem setSocket_setSocket (left right : SocketSlot) :
    (stack.setSocket i left).setSocket i right = stack.setSocket i right := by
  simp [setSocket]

section
variable (value : SocketSlot)

@[simp] theorem setSocket_transmissions :
    (stack.setSocket i value).transmissions = stack.transmissions := rfl

@[simp] theorem setSocket_transmitted :
    (stack.setSocket i value).transmitted = stack.transmitted := rfl

@[simp] theorem setSocket_pieces : (stack.setSocket i value).pieces = stack.pieces := rfl

@[simp] theorem setSocket_sentBy : (stack.setSocket i value).sentBy = stack.sentBy := rfl

end

section Send
variable (driver) (stack) (owner : SocketHandle) (value : SocketSlot) (flags : UInt8)
  (payload : List UInt8) (sequence : UInt32)

@[simp] theorem sendSegment_sockets :
    (sendSegment driver stack owner value flags payload sequence).2.sockets = stack.sockets := by
  simp only [sendSegment]
  split <;> rfl

@[simp] theorem sendSegment_socket (i : Fin socketCapacity) :
    (sendSegment driver stack owner value flags payload sequence).2.socket i = stack.socket i := by
  simp [socket]

@[simp] theorem sendSegment_transmissions :
    (sendSegment driver stack owner value flags payload sequence).2.transmissions =
      stack.transmissions := by
  simp only [sendSegment]
  split <;> rfl

@[simp] theorem sendSegment_pieces :
    (sendSegment driver stack owner value flags payload sequence).2.pieces = stack.pieces := by
  funext i position
  simp [pieces, pendingAt]

@[simp] theorem sendSegment_nextSequence :
    (sendSegment driver stack owner value flags payload sequence).2.nextSequence =
      stack.nextSequence := by
  simp only [sendSegment]
  split <;> rfl

@[simp] theorem sendSegment_now :
    (sendSegment driver stack owner value flags payload sequence).2.now = stack.now := by
  simp only [sendSegment]
  split <;> rfl

/-- A segment that fits the buffer is handed to the driver, whose answer is
returned; any other is dropped. -/
theorem sendSegment_cases :
    sendSegment driver stack owner value flags payload sequence = (false, stack) ∨
      ∃ segment, segment.owner = owner ∧ segment.socket = value ∧ segment.flags = flags ∧
        segment.payload = payload ∧ segment.sequence = sequence ∧
        (sendSegment driver stack owner value flags payload sequence).2.transmitted =
          stack.transmitted ++
            [.segment segment (sendSegment driver stack owner value flags payload sequence).1] := by
  simp only [sendSegment]
  split
  · exact .inl rfl
  · exact .inr ⟨_, rfl, rfl, rfl, rfl, rfl, rfl⟩

end Send

/-- Store a segment in the queue. -/
def enqueue (stack : Stack) (position : Fin transmitCapacity) (key : TransmitKey)
    (pending : TransmitSegment) : Stack :=
  { stack with
    transmissions := update stack.transmissions position (some (key, pending)) }

/-! ## Routines that work on one socket -/

/-- All that changed belongs to one slot. -/
structure Touches (index : Fin socketCapacity) (before after : Stack) : Prop where
  sockets : ∀ other ≠ index, after.socket other = before.socket other
  pieces : ∀ other ≠ index, after.pieces other = before.pieces other
  log : ∃ records, after.transmitted = before.transmitted ++ records ∧
    ∀ record ∈ records, record.Attributed ∧
      ∀ other ≠ index, Transmission.sentBy other record = none
  queue : before.QueueValid → after.QueueValid

namespace Touches

theorem refl (i : Fin socketCapacity) (stack : Stack) : Touches i stack stack :=
  ⟨fun _ _ => rfl, fun _ _ => rfl, ⟨[], by simp, by simp⟩, id⟩

theorem trans (left : Touches i first second) (right : Touches i second third) :
    Touches i first third := by
  obtain ⟨earlier, earlierLog, earlierOwned⟩ := left.log
  obtain ⟨later, laterLog, laterOwned⟩ := right.log
  refine ⟨fun j apart => ?_, fun j apart => ?_, ⟨earlier ++ later, ?_, ?_⟩,
    right.queue ∘ left.queue⟩
  · rw [right.sockets j apart, left.sockets j apart]
  · rw [right.pieces j apart, left.pieces j apart]
  · rw [laterLog, earlierLog, append_assoc]
  · intro record mem
    rcases mem_append.mp mem with mem | mem
    · exact earlierOwned record mem
    · exact laterOwned record mem

theorem setSocket (i : Fin socketCapacity) (stack : Stack) (value : SocketSlot) :
    Touches i stack (stack.setSocket i value) :=
  ⟨fun _ apart => socket_setSocket_of_ne apart value, fun _ _ => rfl, ⟨[], by simp, by simp⟩, id⟩

theorem sendSegment (driver : Nat → Bool) (i : Fin socketCapacity) (stack : Stack)
    (value : SocketSlot) (flags : UInt8) (payload : List UInt8) (sequence : UInt32) :
    Touches i stack (sendSegment driver stack (some i) value flags payload sequence).2 where
  sockets j _ := by simp
  pieces j _ := by simp
  log := by
    rcases sendSegment_cases driver stack (some i) value flags payload sequence with
      dropped | ⟨segment, owner, -, -, -, -, log⟩
    · exact ⟨[], by simp [dropped], by simp⟩
    refine ⟨_, log, ?_⟩
    intro record mem
    cases mem_singleton.mp mem
    refine ⟨fun stray => ?_, fun j apart => ?_⟩
    · rw [owner] at stray
      cases stray
    · rw [Transmission.sentBy, owner, if_neg]
      simpa using apart.symm
  queue valid := by simpa [QueueValid] using valid

theorem clearTransmissions (i : Fin socketCapacity) (stack : Stack) :
    Touches i stack (stack.clearTransmissions (some i)) where
  sockets _ _ := rfl
  pieces j apart := by
    funext position
    simp only [Stack.pieces, pendingAt, Stack.clearTransmissions, Option.filter_filter]
    congr 2
    funext entry
    by_cases same : entry.1.handle = some j
    · simp [same, apart]
    · simp [same]
  log := ⟨[], by simp [Stack.clearTransmissions], by simp⟩
  queue valid position entry found := by
    simp only [Stack.clearTransmissions, Option.filter_eq_some_iff] at found
    exact valid position entry found.1

theorem enqueue (vacant : stack.transmissions position = none)
    (noFin : pending.flags &&& tcpFin = 0) (sequence : UInt32) :
    Touches i stack (stack.enqueue position ⟨some i, sequence⟩ pending) where
  sockets _ _ := rfl
  pieces j apart := by
    funext place
    by_cases same : place = position
    · subst same
      simp [Stack.pieces, pendingAt, Stack.enqueue, vacant, Option.filter, apart.symm]
    · simp [Stack.pieces, pendingAt, Stack.enqueue, same]
  log := ⟨[], by simp [Stack.enqueue], by simp⟩
  queue valid place entry found := by
    by_cases same : place = position
    · subst same
      simp only [Stack.enqueue, update_self, Option.some.injEq] at found
      subst found
      exact ⟨by simp [invalidSocket], noFin⟩
    · simp only [Stack.enqueue, update_of_ne same] at found
      exact valid place entry found

end Touches

theorem pieces_enqueue (position : Fin transmitCapacity) (sequence : UInt32)
    (pending : TransmitSegment) :
    (stack.enqueue position ⟨some i, sequence⟩ pending).pieces i =
      update (stack.pieces i) position (some (sequence, pending.data)) := by
  funext place
  by_cases same : place = position
  · subst same
    simp [pieces, pendingAt, enqueue, Option.filter]
  · simp [pieces, pendingAt, enqueue, same]

theorem pieces_clearTransmissions (position : Fin transmitCapacity) :
    (stack.clearTransmissions (some i)).pieces i position = none := by
  simp only [pieces, pendingAt, clearTransmissions, Option.filter_filter, Option.map_eq_none_iff]
  rw [Option.filter_eq_none_iff]
  simp

theorem sentBy_append (log : second.transmitted = first.transmitted ++ records)
    (bound : begun ≤ first.transmitted.length) : second.sentBy i begun =
      first.sentBy i begun ++ records.filterMap (Transmission.sentBy i) := by
  rw [sentBy, log, drop_append_of_le_length bound, filterMap_append]
  rfl

theorem Touches.sentBy (touches : Touches i first second) (apart : j ≠ i)
    (bound : begun ≤ first.transmitted.length) : second.sentBy j begun = first.sentBy j begun := by
  obtain ⟨records, log, owned⟩ := touches.log
  rw [sentBy_append log bound, filterMap_eq_nil_iff.mpr, append_nil]
  exact fun record mem => (owned record mem).2 j apart

/-- A socket handed a segment to the driver: nothing but the log changed.  A
segment that does not fit the buffer is refused without a trace. -/
structure Handed (index : Fin socketCapacity) (before : Stack) (value : SocketSlot)
    (flags : UInt8) (payload : List UInt8) (sequence : UInt32) (sent : Bool × Stack) : Prop where
  touches : Touches index before sent.2
  sockets : sent.2.sockets = before.sockets
  transmissions : sent.2.transmissions = before.transmissions
  log : ∀ begun ≤ before.transmitted.length,
    (sent.1 = false ∧ sent.2.sentBy index begun = before.sentBy index begun) ∨
      ∃ segment : Segment, segment.socket = value ∧ segment.flags = flags ∧
        segment.payload = payload ∧ segment.sequence = sequence ∧
        sent.2.sentBy index begun = before.sentBy index begun ++ [(segment, sent.1)]

namespace Handed
variable {value : SocketSlot} {flags : UInt8} {payload : List UInt8} {sequence : UInt32}
  {sent : Bool × Stack}

theorem socket (handed : Handed i stack value flags payload sequence sent)
    (j : Fin socketCapacity) : sent.2.socket j = stack.socket j := by
  rw [Stack.socket, Stack.socket, handed.sockets]

theorem pieces (handed : Handed i stack value flags payload sequence sent) :
    sent.2.pieces = stack.pieces := by
  funext j position
  rw [Stack.pieces, Stack.pieces, pendingAt, pendingAt, handed.transmissions]

end Handed

theorem handed (driver : Nat → Bool) (i : Fin socketCapacity) (stack : Stack)
    (value : SocketSlot) (flags : UInt8) (payload : List UInt8) (sequence : UInt32) :
    Handed i stack value flags payload sequence
      (sendSegment driver stack (some i) value flags payload sequence) where
  touches := .sendSegment driver i stack value flags payload sequence
  sockets := by simp
  transmissions := by simp
  log begun bound := by
    rcases sendSegment_cases driver stack (some i) value flags payload sequence with
      none | ⟨segment, owner, ofSocket, ofFlags, ofPayload, ofSequence, log⟩
    · rw [none]
      exact .inl ⟨rfl, rfl⟩
    · refine .inr ⟨segment, ofSocket, ofFlags, ofPayload, ofSequence, ?_⟩
      rw [sentBy_append log bound]
      simp [Transmission.sentBy, owner]

theorem recorded_sendControl (bound : begun ≤ stack.transmitted.length)
    (recorded : Recorded account present (stack.sentBy i begun)) (value : SocketSlot)
    (noFin : flags &&& tcpFin = 0) (sequence : UInt32) : Recorded account present
      ((sendSegment driver stack (some i) value flags [] sequence).2.sentBy i begun) := by
  rcases (handed driver i stack value flags [] sequence).log begun bound with
    ⟨-, same⟩ | ⟨segment, -, ofFlags, ofPayload, -, appended⟩
  · rwa [same]
  · rw [appended]
    exact recorded.control ofPayload (ofFlags ▸ noFin)

theorem release_touches (inUse : (stack.socket i).state ≠ .free)
    (notListening : (stack.socket i).state ≠ .listening) (last : (stack.socket i).references = 1) :
    Touches i stack (stack.release (some i)) ∧ (stack.release (some i)).socket i = {} := by
  have freed := (SocketTable.release_last inUse last).2
  refine ⟨⟨fun j apart => ?_, fun _ _ => rfl, ⟨[], by simp [release], by simp⟩, id⟩, freed.self⟩
  have kept := freed.others j apart
  rw [if_neg fun listening => notListening listening.1] at kept
  exact kept

/-- Store back a socket and drop its stored segments. -/
def abort (stack : Stack) (index : Fin socketCapacity) (value : SocketSlot) : Stack :=
  { stack with sockets := (stack.sockets.clearReassembly (some index)).setSlot index value }

@[simp] theorem socket_abort (value : SocketSlot) : (stack.abort i value).socket i = value := by
  simp [abort, socket]

theorem Touches.abort (i : Fin socketCapacity) (stack : Stack) (value : SocketSlot) :
    Touches i stack (stack.abort i value) :=
  ⟨fun _ apart => SocketTable.setSlot_slots_of_ne apart value, fun _ _ => rfl,
    ⟨[], by simp [Stack.abort], by simp⟩, id⟩

theorem reset_eq (inUse : (stack.socket i).state ≠ .free)
    (complete : (stack.socket i).state ≠ .synReceived) (failure : SocketResult) :
    { stack with sockets := stack.sockets.reset (some i) failure } =
      stack.abort i
        { stack.socket i with
          receiveBuffer := []
          state := .reset
          failure
          receiveClosed := false
          flow.persistWaiting := false } := by
  have resolved : stack.sockets.slot (some i) = some (stack.socket i) :=
    SocketTable.slot_eq_some.mpr ⟨i, rfl, inUse, rfl⟩
  simp only [SocketTable.reset, resolved, if_neg complete]
  rfl

end Stack

/-! ## The invariant -/

/-- Every slot agrees with the account of its present user; the frames of `history`
have been handed to the driver. -/
structure StackInvariant (history : List Transmission) (accounts : Fin socketCapacity → Account)
    (stack : Stack) : Prop where
  grown : history <+: stack.transmitted
  attributed : ∀ record ∈ stack.transmitted, record.Attributed
  queue : stack.QueueValid
  begun : ∀ index, (accounts index).begun ≤ stack.transmitted.length
  slots : ∀ index, SlotInvariant (accounts index) (stack.socket index) (stack.pieces index)
  records : ∀ index, Recorded (accounts index) (stack.socket index)
    (stack.sentBy index (accounts index).begun)

namespace StackInvariant
open Stack
variable {driver : Nat → Bool} {history : List Transmission}
  {accounts later : Fin socketCapacity → Account} {stack after : Stack} {i : Fin socketCapacity}

section
variable (invariant : StackInvariant history accounts stack)
include invariant

/-- A routine that works on one socket keeps the invariant when that socket does;
it may also change the socket's account. -/
theorem touch (touches : Touches i stack after) (others : ∀ j ≠ i, later j = accounts j)
    (begun : (later i).begun = (accounts i).begun)
    (slot : SlotInvariant (later i) (after.socket i) (after.pieces i))
    (recorded : Recorded (later i) (after.socket i) (after.sentBy i (accounts i).begun)) :
    StackInvariant history later after := by
  obtain ⟨records, log, owned⟩ := touches.log
  refine ⟨invariant.grown.trans ⟨records, log.symm⟩, fun record mem => ?_,
    touches.queue invariant.queue, fun j => ?_, fun j => ?_, fun j => ?_⟩
  · rw [log] at mem
    rcases mem_append.mp mem with earlier | new
    · exact invariant.attributed record earlier
    · exact (owned record new).1
  · rw [log, length_append]
    have bound := invariant.begun j
    by_cases same : j = i
    · subst same
      omega
    · rw [others j same]
      omega
  · by_cases same : j = i
    · subst same
      exact slot
    · rw [others j same, touches.sockets j same, touches.pieces j same]
      exact invariant.slots j
  by_cases same : j = i
  · subst same
    rwa [begun]
  · rw [others j same, touches.sockets j same, touches.sentBy same (invariant.begun j)]
    exact invariant.records j

/-- A segment without data that does not end the stream may always be sent. -/
theorem sendControl (driver : Nat → Bool) (i : Fin socketCapacity) (value : SocketSlot)
    (flags : UInt8) (noFin : flags &&& tcpFin = 0) (sequence : UInt32) :
    StackInvariant history accounts
      (sendSegment driver stack (some i) value flags [] sequence).2 := by
  refine invariant.touch (.sendSegment driver i stack value flags [] sequence)
    (fun _ _ => rfl) rfl (by simpa using invariant.slots i) ?_
  rw [sendSegment_socket]
  exact recorded_sendControl (invariant.begun i) (invariant.records i) value noFin sequence

theorem store (others : ∀ j ≠ i, later j = accounts j)
    (begun : (later i).begun = (accounts i).begun)
    (slot : SlotInvariant (later i) value (stack.pieces i))
    (recorded : Recorded (later i) value (stack.sentBy i (accounts i).begun)) :
    StackInvariant history later (stack.setSocket i value) :=
  invariant.touch (.setSocket i stack value) others begun
    (by rwa [socket_setSocket_self]) (by rwa [socket_setSocket_self])

theorem tune (inUse : (stack.socket i).state ≠ .free) (tuned : Tuned (stack.socket i) value) :
    StackInvariant history accounts (stack.setSocket i value) := by
  refine invariant.store (fun _ _ => rfl) rfl ((invariant.slots i).tuned tuned inUse) ?_
  exact (invariant.records i).congr (by rw [tuned.state]; exact id)
    (by rw [tuned.finSent]; exact id)

/-- Fields that no slot sees, and timers of queued segments, may change freely. -/
theorem retime (sockets : after.sockets = stack.sockets)
    (transmitted : after.transmitted = stack.transmitted)
    (same : ∀ position, (after.transmissions position).map
        (fun entry => (entry.1, entry.2.flags, entry.2.data)) =
      (stack.transmissions position).map fun entry => (entry.1, entry.2.flags, entry.2.data)) :
    StackInvariant history accounts after := by
  have pieces : after.pieces = stack.pieces := by
    funext i position
    have same := same position
    simp only [Stack.pieces, pendingAt]
    cases new : after.transmissions position <;> cases old : stack.transmissions position <;>
      simp_all [Option.filter]
  refine ⟨?_, ?_, fun position entry found => ?_, fun i => ?_, fun i => ?_, fun i => ?_⟩
  · rw [transmitted]
    exact invariant.grown
  · rw [transmitted]
    exact invariant.attributed
  · have same := same position
    rw [found] at same
    cases old : stack.transmissions position with
    | none => simp [old] at same
    | some earlier =>
      simp only [old, Option.map_some, Option.some.injEq, Prod.mk.injEq] at same
      have valid := invariant.queue position earlier old
      rwa [← same.1, ← same.2.1] at valid
  · rw [transmitted]
    exact invariant.begun i
  · rw [pieces, socket, sockets]
    exact invariant.slots i
  · rw [sentBy, transmitted, socket, sockets]
    exact invariant.records i

theorem congr (sockets : after.sockets = stack.sockets)
    (transmissions : after.transmissions = stack.transmissions)
    (transmitted : after.transmitted = stack.transmitted) : StackInvariant history accounts after :=
  invariant.retime sockets transmitted fun position => by rw [transmissions]

/-! ## Ending a connection -/

variable (touches : Touches i stack after)
  (pieces : ∀ position, after.pieces i position = none)
include touches pieces

theorem freeConnection
    (recorded : Recorded (accounts i) present (after.sentBy i (accounts i).begun))
    (linked : isConnection (after.socket i).state = true)
    (unheld : (accounts i).holders = 0) (last : (after.socket i).references = 1) :
    StackInvariant history accounts (after.release (some i)) := by
  have inUse : (after.socket i).state ≠ .free := by
    intro free
    simp [free, isConnection] at linked
  have notListening : (after.socket i).state ≠ .listening := by
    intro listening
    simp [listening, isConnection] at linked
  obtain ⟨released, freed⟩ := release_touches inUse notListening last
  refine invariant.touch (touches.trans released) (fun _ _ => rfl) rfl ?_ ?_
  · rw [freed]
    exact .freed unheld pieces
  · rw [freed]
    exact recorded.congr (by simp [isSendOpen]) (by simp)

theorem abortConnection (socket : after.socket i = stack.socket i)
    (recorded : Recorded (accounts i) (stack.socket i) (after.sentBy i (accounts i).begun))
    (linked : isConnection (stack.socket i).state = true) (taken : (stack.socket i).accepted = true)
    (attached : (stack.socket i).detached = false) (failure : SocketResult) :
    StackInvariant history accounts
      { after with sockets := after.sockets.reset (some i) failure } := by
  have slot := invariant.slots i
  have halfOpen : (after.socket i).state ≠ .synReceived := by
    rw [socket]
    intro halfOpen
    have owned := slot.owned
    simp [Owned, halfOpen, taken] at owned
  have inUse : (after.socket i).state ≠ .free := by
    rw [socket]
    intro free
    simp [free, isConnection] at linked
  have reset := reset_eq inUse halfOpen failure
  rw [socket] at reset
  refine invariant.touch (touches.trans (reset ▸ .abort i after _)) (fun _ _ => rfl) rfl ?_ ?_
  · have value := congrArg (fun stack => stack.socket i) reset
    rw [value, socket_abort]
    exact slot.aborted taken attached failure pieces
  · have value := congrArg (fun stack => stack.socket i) reset
    rw [value, socket_abort]
    exact recorded.congr (by simp [isSendOpen]) id

end
end StackInvariant
end Mikos.Network
