import Mathlib.Data.List.Infix
import Mikos.Network.SocketFrame

/-!
# Integrity of the receive stream

A peer stream `S` starts at sequence number `origin`.  Every segment handed to
the table is a true slice of `S`, in any order, with any duplication and
overlap.  The invariant relates the bytes already read, the receive buffer and
the reassembly store to `S`; each table operation preserves it, so it holds
after every interleaving of `read` and `receive`.
-/

namespace Mikos.Network
open Library List SocketTable
variable {stream : List UInt8} {origin : UInt32}

/-- A segment of the peer stream: it starts at some offset, carries the bytes
found there, and is marked final only when it reaches the end. -/
def TrueSlice (stream : List UInt8) (origin sequence : UInt32) (data : List UInt8)
    (finish : Bool) : Prop :=
  ∃ offset, sequence = origin + UInt32.ofNat offset ∧ offset + data.length ≤ stream.length ∧
    data <+: stream.drop offset ∧
    (finish = true → offset + data.length = stream.length)

namespace TrueSlice
variable {sequence : UInt32} {data : List UInt8} {finish : Bool}

theorem drop (slice : TrueSlice stream origin sequence data finish) (count : Nat)
    (bounded : count ≤ data.length) :
    TrueSlice stream origin (sequence + UInt32.ofNat count) (data.drop count) finish := by
  obtain ⟨offset, rfl, inside, isPrefix, final⟩ := slice
  refine ⟨offset + count, offset_add origin offset count, ?_, ?_, ?_⟩
  · simp only [length_drop]
    omega
  · rw [← drop_drop]
    exact List.IsPrefix.drop isPrefix count
  · intro finished
    have reached := final finished
    simp only [length_drop]
    omega

theorem take (slice : TrueSlice stream origin sequence data finish) (count : Nat) :
    TrueSlice stream origin sequence (data.take (min data.length count))
      (finish && decide (data.length < count)) := by
  obtain ⟨offset, rfl, inside, isPrefix, final⟩ := slice
  refine ⟨offset, rfl, ?_, ( take_prefix _ _).trans isPrefix, ?_⟩
  · simp only [length_take]
    omega
  intro finished
  simp only [Bool.and_eq_true, decide_eq_true_eq] at finished
  have reached := final finished.1
  simp only [length_take]
  omega

end TrueSlice

/-- The receive side of one slot agrees with the peer stream: what was read so
far together with the buffer is a prefix of the stream that ends right before
the next expected sequence number. -/
structure SlotAgrees (stream : List UInt8) (origin : UInt32) (delivered : List UInt8)
    (value : SocketSlot) : Prop where
  isPrefix : delivered ++ value.receiveBuffer <+: stream
  next : value.receiveNext =
    origin + UInt32.ofNat (delivered ++ value.receiveBuffer).length +
      (if value.receiveClosed then 1 else 0)
  bounded : value.receiveBuffer.length ≤ socketReceiveCapacity
  complete : value.receiveClosed = true → delivered ++ value.receiveBuffer = stream
  readable : value.readClosed = false
  live : value.state = .established ∨ value.state = .closeWait

/-- Every stored segment of a handle is a slice of the stream. -/
def StoreAgrees (stream : List UInt8) (origin : UInt32) (table : SocketTable)
    (index : Fin socketCapacity) : Prop :=
  ∀ position key segment, table.reassembly position = some (key, segment) →
    key.handle = some index →
    TrueSlice stream origin key.sequence segment.data segment.finish

/-- The invariant of one connection. -/
structure StreamAgrees (stream : List UInt8) (origin : UInt32) (delivered : List UInt8)
    (table : SocketTable) (index : Fin socketCapacity) : Prop where
  slot : SlotAgrees stream origin delivered (table.slots index)
  store : StoreAgrees stream origin table index

namespace SlotAgrees
variable {delivered data : List UInt8} {value : SocketSlot} {finish : Bool}

section
variable (agrees : SlotAgrees stream origin delivered value)
  (unclosed : value.receiveClosed = false) (short : stream.length < 2 ^ 31)
  (slice : TrueSlice stream origin value.receiveNext data finish)
include agrees unclosed short slice

theorem continues :
    delivered ++ value.receiveBuffer ++ data <+: stream ∧
      (finish = true → delivered ++ value.receiveBuffer ++ data = stream) := by
  obtain ⟨offset, start, inside, isPrefix, final⟩ := slice
  have next := agrees.next
  have length := agrees.isPrefix.length_le
  rw [unclosed] at next
  have same : offset = (delivered ++ value.receiveBuffer).length := by
    have distance := serialDistance_offset origin offset
      (delivered ++ value.receiveBuffer).length (by omega) (by omega)
    rw [← start, next] at distance
    simp only [Bool.false_eq_true, if_false, UInt32.add_zero, serialDistance_self] at distance
    omega
  subst same
  obtain ⟨rest, split⟩ := agrees.isPrefix
  have dropped : stream.drop (delivered ++ value.receiveBuffer).length = rest := by
    rw [← split, drop_left]
  rw [dropped] at isPrefix
  have joined : delivered ++ value.receiveBuffer ++ data <+: stream := by
    rw [← split]
    exact (prefix_append_right_inj _).mpr isPrefix
  refine ⟨joined, fun finished => joined.eq_of_length ?_⟩
  have reached := final finished
  rw [length_append]
  exact reached

theorem appendReceived (fits : data.length ≤ socketReceiveCapacity - value.receiveBuffer.length) :
    SlotAgrees stream origin delivered (appendReceived value data finish).2 := by
  obtain ⟨joined, whole⟩ := agrees.continues unclosed short slice
  have bounded := agrees.bounded
  have taken : min data.length (socketReceiveCapacity - value.receiveBuffer.length) =
      data.length := Nat.min_eq_left fits
  have next : value.receiveNext + UInt32.ofNat data.length =
      origin + UInt32.ofNat (delivered ++ (value.receiveBuffer ++ data)).length := by
    have length : (delivered ++ (value.receiveBuffer ++ data)).length =
        (delivered ++ value.receiveBuffer).length + data.length := by
      simp [Nat.add_assoc]
    rw [agrees.next, unclosed, length, ← offset_add]
    simp only [Bool.false_eq_true, if_false, UInt32.add_zero]
  simp only [SocketTable.appendReceived, taken, take_length, and_true]
  rw [append_assoc] at joined whole
  split
  next finished =>
    exact {
      isPrefix := joined
      next := by simp [next]
      bounded := by simp only [length_append]; omega
      complete := fun _ => whole finished
      readable := agrees.readable
      live := by
        right
        rcases agrees.live with state | state <;>
          simp [finishedState, state] }
  exact {
    isPrefix := joined
    next := by simp [next, unclosed]
    bounded := by simp only [length_append]; omega
    complete := fun closed => absurd closed (by simp [unclosed])
    readable := agrees.readable
    live := agrees.live }

end
end SlotAgrees

/-! ## The reassembly store -/

namespace SocketTable
variable {table : SocketTable} {i : Fin socketCapacity}

/-- A stored segment of the handle that starts at or before the next expected
byte. -/
def Queued (table : SocketTable) (handle : SocketHandle) (receiveNext : UInt32)
    (position : Fin reassemblyCapacity) : Prop :=
  ∃ key segment, table.reassembly position = some (key, segment) ∧
    key.handle = handle ∧ serialDistance key.sequence receiveNext ≤ 0

theorem selectQueued_queued (selected : table.selectQueued handle receiveNext = some place) :
    table.Queued handle receiveNext place := by
  revert place
  unfold selectQueued
  refine foldlRecOn (motive := fun best : Option (Fin reassemblyCapacity) =>
    ∀ {found}, best = some found → table.Queued handle receiveNext found) _ _ ?_ ?_
  · intro found impossible
    cases impossible
  intro best known candidate _ found chosen
  unfold preferQueued at chosen
  split at chosen
  · exact known chosen
  rename_i key segment stored
  split at chosen
  · exact known chosen
  rename_i behind
  simp only [not_or, not_lt, ne_eq, not_not] at behind
  have here : table.Queued handle receiveNext candidate :=
    ⟨key, segment, stored, behind.1, behind.2⟩
  split at chosen
  · exact Option.some.inj chosen ▸ here
  split at chosen
  · exact Option.some.inj chosen ▸ here
  · split at chosen
    · exact Option.some.inj chosen ▸ here
    · exact known chosen

end SocketTable

namespace StoreAgrees
variable {table : SocketTable} {i : Fin socketCapacity}

theorem subset (agrees : StoreAgrees stream origin table i) {after : SocketTable}
    (subset : SocketTable.StoreSubset after table) : StoreAgrees stream origin after i :=
  fun place key segment stored owned =>
    agrees place key segment (subset place (key, segment) stored) owned

theorem storeReassembly {sequence} (agrees : StoreAgrees stream origin table i)
    (slice : TrueSlice stream origin sequence data finish) (handle : SocketHandle) :
    StoreAgrees stream origin (table.storeReassembly handle sequence data finish).2 i := by
  rcases table.storeReassembly_cases handle sequence data finish with
    same | ⟨place, _, filled⟩
  · rw [same]
    exact agrees
  rw [filled]
  intro j key segment stored
  by_cases same : j = place
  · subst same
    simp only [Function.update_self, Option.some.injEq, Prod.mk.injEq] at stored
    obtain ⟨rfl, rfl⟩ := stored
    exact fun _ => slice
  · apply agrees j key segment
    simpa [Function.update_of_ne same] using stored

end StoreAgrees

namespace StreamAgrees
variable {delivered : List UInt8} {table : SocketTable} {i : Fin socketCapacity}

/-- Taking a slice that starts at the next expected byte, removing the segment
it came from. -/
theorem append (agrees : StreamAgrees stream origin delivered table i)
    (short : stream.length < 2 ^ 31) (unclosed : (table.slots i).receiveClosed = false)
    (slice : TrueSlice stream origin (table.slots i).receiveNext data finish)
    (fits : data.length ≤ socketReceiveCapacity - (table.slots i).receiveBuffer.length) :
    StreamAgrees stream origin delivered
      (table.setSlot i (appendReceived (table.slots i) data finish).2) i where
  slot := by
    rw [setSlot_slots_self]
    exact agrees.slot.appendReceived unclosed short slice fits
  store := agrees.store

/-- Draining the reassembly store keeps the agreement. -/
theorem drainLoop (fuel total : Nat) (short : stream.length < 2 ^ 31)
    (agrees : StreamAgrees stream origin delivered table i) :
    StreamAgrees stream origin delivered (drainLoop fuel table i total).2 i := by
  induction fuel generalizing table total with
  | zero => exact agrees
  | succ fuel ih =>
    simp only [drainLoop]
    split
    · exact ⟨agrees.slot, agrees.store.subset (.clearReassembly table _)⟩
    rename_i unclosed
    have unclosed : (table.slots i).receiveClosed = false := by simpa using unclosed
    split
    · exact agrees
    rename_i place selected
    obtain ⟨key, queued, stored, owned, -⟩ := selectQueued_queued selected
    rw [stored]
    dsimp only
    have slice := agrees.store place key queued stored owned
    split
    · exact ih _ ⟨agrees.slot, agrees.store.subset (.dropQueued table place)⟩
    rename_i useful
    split
    · exact agrees
    rename_i fits
    have trimmed := slice.drop ((table.slots i).receiveNext - key.sequence).toNat (by omega)
    rw [add_ofNat_difference] at trimmed
    have appended := agrees.append short unclosed trimmed (by rw [length_drop]; omega)
    have taken : StreamAgrees stream origin delivered
        ((table.setSlot i (appendReceived (table.slots i)
          (queued.data.drop ((table.slots i).receiveNext - key.sequence).toNat)
          queued.finish).2).dropQueued place) i :=
      ⟨appended.slot, appended.store.subset (.dropQueued _ place)⟩
    split
    · exact taken
    · exact ih _ taken

section
variable (agrees : StreamAgrees stream origin delivered table i)
include agrees

section
variable (short : stream.length < 2 ^ 31)
include short

/-- A trimmed segment keeps the agreement, whether it is dropped, stored or
appended. -/
theorem receiveTrimmed {sequence} (unclosed : (table.slots i).receiveClosed = false)
    (slice : TrueSlice stream origin sequence data finish)
    (arrived : distance = 0 → sequence = (table.slots i).receiveNext) :
    StreamAgrees stream origin delivered
      (table.receiveTrimmed i (table.slots i) sequence data finish distance).2 i := by
  simp only [SocketTable.receiveTrimmed]
  split
  · exact agrees
  split
  · split
    · exact agrees
    refine ⟨?_, agrees.store.storeReassembly (slice.take _) _⟩
    rcases table.storeReassembly_cases (some i) sequence _ _ with
      same | ⟨place, _, filled⟩
    · rw [same]
      exact agrees.slot
    · rw [filled]
      exact agrees.slot
  rename_i inOrder
  have here := arrived (by omega)
  have bounded : (socketReceiveCapacity - (table.slots i).receiveBuffer.length +
      2 ^ 32 - distance) % 2 ^ 32 =
        socketReceiveCapacity - (table.slots i).receiveBuffer.length := by
    unfold socketReceiveCapacity
    omega
  have trimmed := slice.take (socketReceiveCapacity - (table.slots i).receiveBuffer.length)
  rw [here] at trimmed
  have appended := agrees.append short unclosed trimmed (by rw [length_take]; omega)
  rw [bounded]
  split
  · exact appended
  · exact appended.drainLoop _ _ short

theorem receive {sequence} (slice : TrueSlice stream origin sequence data finish) :
    StreamAgrees stream origin delivered
      (table.receive (some i) sequence data finish).2 i := by
  unfold SocketTable.receive
  split
  next j value same resolved =>
    cases same
    obtain rfl := (slot_some resolved).2
    split
    · exact agrees
    split
    · exact agrees
    split
    · exact agrees
    rename_i unclosed
    have unclosed : (table.slots i).receiveClosed = false := by simpa using unclosed
    dsimp only
    split
    · split
      · exact agrees
      rename_i useful
      have trimmed := slice.drop ((table.slots i).receiveNext - sequence).toNat (by omega)
      exact agrees.receiveTrimmed short unclosed trimmed fun _ => add_ofNat_difference _ _
    rename_i notBehind
    refine agrees.receiveTrimmed short unclosed slice fun zero => ?_
    have equal : serialDistance sequence (table.slots i).receiveNext = 0 := by omega
    exact serialDistance_eq_zero.mp equal
  · exact agrees

theorem read (size : Nat) :
    StreamAgrees stream origin (delivered ++ (table.read (some i) size).1.2)
      (table.read (some i) size).2 i := by
  unfold SocketTable.read
  split
  next j value same resolved =>
    cases same
    obtain rfl := (slot_some resolved).2
    split
    · simpa using agrees
    split
    · simpa using agrees
    refine drainLoop _ _ short ⟨?_, agrees.store⟩
    have slot := agrees.slot
    rw [setSlot_slots_self]
    have joined : (delivered ++ (table.slots i).receiveBuffer.take
          (min size (table.slots i).receiveBuffer.length)) ++
        (table.slots i).receiveBuffer.drop (min size (table.slots i).receiveBuffer.length) =
        delivered ++ (table.slots i).receiveBuffer := by
      rw [append_assoc, take_append_drop]
    exact {
      isPrefix := by rw [joined]; exact slot.isPrefix
      next := by rw [joined]; exact slot.next
      bounded := by
        have bounded := slot.bounded
        simp only [length_drop]
        omega
      complete := by rw [joined]; exact slot.complete
      readable := slot.readable
      live := slot.live }
  · simpa using agrees

end

/-- End of file is reported only after the whole stream was read. -/
theorem endOfFile (ended : (table.read (some i) size).1.1.result = .endOfFile) :
    delivered = stream := by
  have slot := agrees.slot
  have live : (table.slots i).state ≠ .free := by
    rcases slot.live with state | state <;> simp [state]
  have resolved : table.slot (some i) = some (table.slots i) := slot_eq_some.mpr ⟨i, rfl, live, rfl⟩
  simp only [SocketTable.read, resolved, slot.readable] at ended
  split at ended
  next impossible => cases impossible
  split at ended
  next empty =>
    split at ended
    next closed =>
      have whole := slot.complete closed
      rwa [empty, append_nil] at whole
    · split at ended
      next isReset => rcases slot.live with state | state <;> simp [state] at isReset
      · split at ended <;> cases ended
  · cases ended

end
end StreamAgrees

/-! ## Runs of the table -/

/-- Calls of the table's operations, with arbitrary arguments. -/
inductive TableCall where
  | «open» (type : SocketType)
  | retain (handle : SocketHandle)
  | release (handle : SocketHandle)
  | bind (handle : SocketHandle) (endpoint : Endpoint)
  | listen (handle : SocketHandle) (backlog : UInt32)
  | beginConnection (listener : SocketHandle) (localEnd remoteEnd : Endpoint)
      (remoteMac : MacAddress) (remoteSequence localSequence : UInt32)
  | establish (handle : SocketHandle) (acknowledgement : UInt32)
  | accept (handle : SocketHandle)
  | receive (handle : SocketHandle) (sequence : UInt32) (data : List UInt8) (finish : Bool)
  | read (handle : SocketHandle) (size : Nat)
  | reset (handle : SocketHandle) (failure : SocketResult)

def TableCall.apply (table : SocketTable) : TableCall → SocketTable
  | .open type => (table.open type).2
  | .retain handle => (table.retain handle).2
  | .release handle => (table.release handle).2
  | .bind handle endpoint => (table.bind handle endpoint).2
  | .listen handle backlog => (table.listen handle backlog).2
  | .beginConnection listener localEnd remoteEnd remoteMac remoteSequence localSequence =>
    (table.beginConnection listener localEnd remoteEnd remoteMac remoteSequence localSequence).2
  | .establish handle acknowledgement => (table.establish handle acknowledgement).2
  | .accept handle => (table.accept handle).2
  | .receive handle sequence data finish => (table.receive handle sequence data finish).2
  | .read handle size => (table.read handle size).2
  | .reset handle failure => table.reset handle failure

/-- The table after a sequence of calls on an initially empty table. -/
def tableAfter (calls : List TableCall) : SocketTable :=
  calls.foldl TableCall.apply {}

/-- States of a slot that has not completed a handshake. -/
def beforeHandshake : SocketState → Bool
  | .free | .control | .created | .bound | .listening | .synReceived => true
  | _ => false

/-- Slots that never completed a handshake hold no stream data, neither in the
slot nor in the reassembly store. -/
structure TableFresh (table : SocketTable) : Prop where
  readable : ∀ index, (table.slots index).readClosed = false
  empty : ∀ index, beforeHandshake (table.slots index).state = true →
    (table.slots index).receiveBuffer = [] ∧ (table.slots index).receiveClosed = false
  unstored : ∀ index, beforeHandshake (table.slots index).state = true →
    ∀ position key segment, table.reassembly position = some (key, segment) →
      key.handle ≠ some index

namespace TableFresh
variable {table : SocketTable} {i : Fin socketCapacity}

section
variable (fresh : TableFresh table)
include fresh

theorem setSlot (readClosed : value.readClosed = false)
    (early : beforeHandshake value.state = true →
      beforeHandshake (table.slots i).state = true ∧
        value.receiveBuffer = (table.slots i).receiveBuffer ∧
        value.receiveClosed = (table.slots i).receiveClosed) :
    TableFresh (table.setSlot i value) where
  readable j := by
    by_cases same : j = i
    · subst same
      simpa using readClosed
    · rw [setSlot_slots_of_ne same]
      exact fresh.readable j
  empty j state := by
    by_cases same : j = i
    · subst same
      rw [setSlot_slots_self] at state ⊢
      obtain ⟨earlier, buffer, closed⟩ := early state
      rw [buffer, closed]
      exact fresh.empty j earlier
    · rw [setSlot_slots_of_ne same] at state ⊢
      exact fresh.empty j state
  unstored j state := by
    by_cases same : j = i
    · subst same
      rw [setSlot_slots_self] at state
      exact fresh.unstored j (early state).1
    · rw [setSlot_slots_of_ne same] at state
      exact fresh.unstored j state

theorem freed {after : SocketTable} (freed : SocketTable.Freed table after i) :
    TableFresh after := by
  have cleared : ∀ j, after.slots j = {} ∨ after.slots j = table.slots j := by
    intro j
    by_cases same : j = i
    · exact .inl (same ▸ freed.self)
    · rw [freed.others j same]
      split
      · exact .inl rfl
      · exact .inr rfl
  constructor
  · intro j
    rcases cleared j with empty | same
    · rw [empty]
    · rw [same]
      exact fresh.readable j
  · intro j state
    rcases cleared j with empty | same
    · rw [empty]
      exact ⟨rfl, rfl⟩
    · rw [same] at state ⊢
      exact fresh.empty j state
  intro j state place key segment stored owned
  obtain ⟨kept, untouched⟩ := freed.store place (key, segment) stored
  obtain ⟨same, -⟩ := untouched j owned
  rw [same] at state
  exact fresh.unstored j state place key segment kept owned

theorem release (handle : SocketHandle) : TableFresh (table.release handle).2 := by
  rcases table.release_cases handle with same | ⟨i, -, -, -, ⟨-, same⟩ | ⟨-, -, freed⟩⟩
  · rw [same]
    exact fresh
  · rw [same]
    exact fresh.setSlot (fresh.readable i) fun state => ⟨state, rfl, rfl⟩
  · exact fresh.freed freed

theorem taken {after : SocketTable} (late : beforeHandshake (table.slots i).state = false)
    (taken : SocketTable.Taken table after i) : TableFresh after := by
  have stillLate : beforeHandshake (after.slots i).state = false := by
    have moved := taken.received
    generalize after.slots i = value at moved
    cases moved with
    | data buffer next => exact late
    | finish buffer next unclosed =>
      cases state : (table.slots i).state <;>
        simp [finishedState, beforeHandshake]
  have readable : (after.slots i).readClosed = false := by
    have moved := taken.received
    generalize after.slots i = value at moved
    cases moved with
    | data buffer next
    | finish buffer next unclosed => exact fresh.readable i
  constructor
  · intro j
    by_cases same : j = i
    · exact same ▸ readable
    · rw [taken.others j same]
      exact fresh.readable j
  · intro j state
    by_cases same : j = i
    · subst same
      simp [stillLate] at state
    · rw [taken.others j same] at state ⊢
      exact fresh.empty j state
  intro j state place key segment stored owned
  by_cases same : j = i
  · subst same
    simp [stillLate] at state
  · rw [taken.others j same] at state
    rcases taken.store place (key, segment) stored with kept | added
    · exact fresh.unstored j state place key segment kept owned
    · exact same (Option.some.inj (owned.symm.trans added))

theorem apply (call : TableCall) : TableFresh (call.apply table) := by
  cases call with
  | «open» type =>
    rcases table.open_cases type with same | ⟨i, isFree, same⟩
    · simpa [TableCall.apply, same] using fresh
    · simp only [TableCall.apply, same]
      exact fresh.setSlot (fresh.readable i) fun _ => ⟨by rw [isFree]; rfl, rfl, rfl⟩
  | retain handle =>
    rcases table.retain_cases handle with same | ⟨i, -, -, -, same⟩
    · simpa [TableCall.apply, same] using fresh
    · simp only [TableCall.apply, same]
      exact fresh.setSlot (fresh.readable i) fun state => ⟨state, rfl, rfl⟩
  | release handle => exact fresh.release handle
  | bind handle endpoint =>
    rcases table.bind_cases handle endpoint with same | ⟨i, chosen, created, -, -, same⟩
    · simpa [TableCall.apply, same] using fresh
    · simp only [TableCall.apply, same]
      exact fresh.setSlot (fresh.readable i) fun _ => ⟨by rw [created]; rfl, rfl, rfl⟩
  | listen handle backlog =>
    rcases table.listen_cases handle backlog with same | ⟨i, room, ready, -, same⟩
    · simpa [TableCall.apply, same] using fresh
    · simp only [TableCall.apply, same]
      refine fresh.setSlot (fresh.readable i) fun _ => ⟨?_, rfl, rfl⟩
      rcases ready with state | state <;> rw [state] <;> rfl
  | beginConnection listener localEnd remoteEnd remoteMac remoteSequence localSequence =>
    rcases table.beginConnection_cases listener localEnd remoteEnd remoteMac remoteSequence
        localSequence with ⟨-, same⟩ | ⟨i, same, -⟩ | ⟨_, i, -, vacant, -, same⟩
    · simpa [TableCall.apply, same] using fresh
    · simpa [TableCall.apply, same] using fresh
    · simp only [TableCall.apply, same]
      exact fresh.setSlot (fresh.readable i) fun _ => ⟨by rw [allocate_free vacant]; rfl, rfl, rfl⟩
  | establish handle acknowledgement =>
    rcases table.establish_cases handle acknowledgement with
      ⟨-, same⟩ | ⟨i, -, -, same⟩ | ⟨i, -, -, -, same⟩
    · simpa [TableCall.apply, same] using fresh
    · simpa [TableCall.apply, same] using fresh
    · simp only [TableCall.apply, same]
      exact fresh.setSlot (fresh.readable i) fun state => by cases state
  | accept handle =>
    rcases table.accept_cases handle with ⟨-, same⟩ | ⟨i, -, -, same⟩
    · simpa [TableCall.apply, same] using fresh
    · simp only [TableCall.apply, same]
      exact fresh.setSlot (fresh.readable i) fun state => ⟨state, rfl, rfl⟩
  | receive handle sequence data finish =>
    rcases table.receive_cases handle sequence data finish with
      same | ⟨i, -, notReset, linked, complete, -, taken⟩
    · simpa [TableCall.apply, same] using fresh
    · refine fresh.taken ?_ taken
      cases state : (table.slots i).state <;> simp_all [isConnection, beforeHandshake]
  | read handle size =>
    rcases table.read_cases handle size with same | ⟨i, -, -, buffered, drained⟩
    · simpa [TableCall.apply, same] using fresh
    · refine fresh.taken ?_ drained.taken
      by_contra early
      exact buffered (fresh.empty i (by simpa using early)).1
  | reset handle failure =>
    rcases table.reset_cases handle failure with
      same | ⟨i, rfl, -, ⟨-, same⟩ | ⟨-, same⟩⟩
    · simpa [TableCall.apply, same] using fresh
    · simpa [TableCall.apply, same] using fresh.release (some i)
    simp only [TableCall.apply, same]
    have cleared : TableFresh (table.clearReassembly (some i)) :=
      ⟨fresh.readable, fresh.empty, fun j state place key segment stored =>
        fresh.unstored j state place key segment (clearReassembly_stored stored).1⟩
    exact cleared.setSlot (fresh.readable i) fun state => by cases state

end

theorem tableAfter (calls : List TableCall) : TableFresh (tableAfter calls) := by
  refine foldlRecOn (motive := TableFresh) _ _ ?_ ?_
  · exact ⟨fun _ => rfl, fun _ _ => ⟨rfl, rfl⟩, fun _ _ _ _ _ stored => by cases stored⟩
  · intro table fresh call _
    exact fresh.apply call

end TableFresh

/-! ## The receive stream of one connection -/

/-- Calls made on one established connection. -/
inductive StreamCall where
  | read (size : Nat)
  | receive (sequence : UInt32) (data : List UInt8) (finish : Bool)

/-- Every received segment of a call is a slice of the stream. -/
def StreamCall.Faithful (stream : List UInt8) (origin : UInt32) : StreamCall → Prop
  | .read _ => True
  | .receive sequence data finish => TrueSlice stream origin sequence data finish

/-- One call: the table and all bytes returned by reads so far. -/
def StreamCall.apply (index : Fin socketCapacity) (state : SocketTable × List UInt8) :
    StreamCall → SocketTable × List UInt8
  | .read size =>
    let result := state.1.read (some index) size
    (result.2, state.2 ++ result.1.2)
  | .receive sequence data finish =>
    ((state.1.receive (some index) sequence data finish).2, state.2)

/-- The connection after a sequence of calls, with the bytes its reads returned. -/
def streamAfter (table : SocketTable) (index : Fin socketCapacity)
    (calls : List StreamCall) : SocketTable × List UInt8 :=
  calls.foldl (StreamCall.apply index) (table, [])

/-- A connection that completes its handshake agrees with every stream that
starts at its next expected sequence number. -/
theorem StreamAgrees.establish (stream : List UInt8) (fresh : TableFresh table)
    (halfOpen : (table.slots i).state = .synReceived)
    (done : table.establish (some i) acknowledgement = (.success, established)) :
    StreamAgrees stream (established.slots i).receiveNext [] established i := by
  rcases table.establish_cases (some i) acknowledgement with
    ⟨failed, -⟩ | ⟨other, sameIndex, already, -⟩ | ⟨other, sameIndex, -, -, same⟩
  · exact absurd (by rw [done]) failed
  · cases sameIndex
    simp [halfOpen] at already
  cases sameIndex
  rw [same, Prod.mk.injEq] at done
  obtain ⟨-, rfl⟩ := done
  have early : beforeHandshake (table.slots i).state = true := by rw [halfOpen]; rfl
  obtain ⟨buffer, closed⟩ := fresh.empty i early
  constructor
  · rw [setSlot_slots_self]
    exact {
      isPrefix := by simp [buffer]
      next := by simp [buffer, closed]
      bounded := by simp [buffer]
      complete := fun impossible => by simp [closed] at impossible
      readable := fresh.readable i
      live := .inl rfl }
  · intro place key segment stored owned
    exact absurd owned (fresh.unstored i early place key segment stored)

/-- The agreement holds after every sequence of calls with true slices. -/
theorem StreamAgrees.streamAfter (agrees : StreamAgrees stream origin [] table i)
    (short : stream.length < 2 ^ 31) (faithful : ∀ call ∈ calls, call.Faithful stream origin) :
    StreamAgrees stream origin (streamAfter table i calls).2 (streamAfter table i calls).1 i := by
  unfold Network.streamAfter
  refine foldlRecOn (motive := fun state : SocketTable × List UInt8 =>
    StreamAgrees stream origin state.2 state.1 i) _ _ agrees ?_
  intro state known call mem
  cases call with
  | read size => exact known.read short size
  | receive sequence data finish => exact known.receive short (faithful _ mem)

/-- **Receive-stream integrity.**  Take any table reached by any calls, a
connection that completes its handshake there, and any peer stream that starts
at its next expected sequence number.  After every interleaving of reads with
true slices of the stream, what was read followed by the buffer is a prefix of
the stream, the next expected sequence number stands right behind it, the
buffer is bounded, and the end of stream is seen only when all of it was
received. -/
theorem receive_stream_integrity (history : List TableCall) (index : Fin socketCapacity)
    (acknowledgement : UInt32) (established : SocketTable) (stream : List UInt8)
    (halfOpen : ((tableAfter history).slots index).state = .synReceived)
    (done : (tableAfter history).establish (some index) acknowledgement = (.success, established))
    (short : stream.length < 2 ^ 31) (calls : List StreamCall)
    (faithful : ∀ call ∈ calls, call.Faithful stream (established.slots index).receiveNext) :
    let origin := (established.slots index).receiveNext
    let final := (streamAfter established index calls).1
    let value := final.slots index
    let received := (streamAfter established index calls).2 ++ value.receiveBuffer
    received <+: stream ∧
      value.receiveNext = origin + UInt32.ofNat received.length +
        (if value.receiveClosed then 1 else 0) ∧
      value.receiveBuffer.length ≤ 4096 ∧
      (value.receiveClosed = true → received = stream) ∧
      ∀ size, (final.read (some index) size).1.1.result = .endOfFile →
        (streamAfter established index calls).2 = stream := by
  have start := StreamAgrees.establish stream (TableFresh.tableAfter history) halfOpen done
  have agrees := start.streamAfter short faithful
  exact ⟨agrees.slot.isPrefix, agrees.slot.next, agrees.slot.bounded, agrees.slot.complete,
    fun size ended => agrees.endOfFile ended⟩

/-- A listener with one half-open connection from port 4000 whose stream starts
two bytes before the sequence numbers wrap. -/
def wrappingHistory : List TableCall :=
  [.open .stream, .bind (some 0) ⟨{}, 80⟩, .listen (some 0) 1,
    .beginConnection (some 0) ⟨{}, 80⟩ ⟨{}, 4000⟩ {} 0xfffffffd 7]

/-- The stream `1, 2, 3` arrives back to front across the wrap, final segment
first. -/
theorem receive_stream_integrity_wrapping :
    let established := ((tableAfter wrappingHistory).establish (some 1) 8).2
    let calls := [StreamCall.receive 0 [3] true, .receive 0xfffffffe [1, 2] false, .read 2]
    let final := (streamAfter established 1 calls).1
    ((streamAfter established 1 calls).2 ++ (final.slots 1).receiveBuffer <+: [1, 2, 3]) ∧
      (streamAfter established 1 calls).2 = [1, 2] ∧
      (final.slots 1).receiveBuffer = [3] := by
  refine ⟨(receive_stream_integrity wrappingHistory 1 8 _ [1, 2, 3] (by decide)
    (Prod.ext (by decide) rfl) (by decide) _ ?_).1, by decide, by decide⟩
  intro call member
  simp only [mem_cons, not_mem_nil, or_false] at member
  rcases member with rfl | rfl | rfl
  · exact ⟨2, by decide, by decide, by decide, by decide⟩
  · exact ⟨0, by decide, by decide, by decide, by decide⟩
  · trivial

end Mikos.Network
