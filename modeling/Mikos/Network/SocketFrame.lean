import Mikos.Network.Socket

/-!
# What a table operation can change

One inversion lemma for each operation of the socket table.  They say which
slots and which stored segments an operation touches, and how; all invariants
of the table and of the stack above it are derived from them.
-/

namespace Mikos.Network
open Library Function

/-! ## The receive side of a slot -/

/-- A slot after some of the peer's stream was taken in or read out: only the
buffer and the next expected sequence number change, and the end of stream is
recorded at most once. -/
inductive Received (value : SocketSlot) : SocketSlot → Prop where
  | data (buffer : List UInt8) (next : UInt32) :
      Received value { value with receiveBuffer := buffer, receiveNext := next }
  | finish (buffer : List UInt8) (next : UInt32) (unclosed : value.receiveClosed = false) :
      Received value
        { value with
          receiveBuffer := buffer
          receiveNext := next
          receiveClosed := true
          state := SocketTable.finishedState value.state }

namespace Received

theorem refl (value : SocketSlot) : Received value value :=
  .data value.receiveBuffer value.receiveNext

theorem trans (left : Received first second) (right : Received second third) :
    Received first third := by
  cases left with
  | data buffer next =>
    cases right with
    | data laterBuffer laterNext => exact .data laterBuffer laterNext
    | finish laterBuffer laterNext unclosed => exact .finish laterBuffer laterNext unclosed
  | finish buffer next unclosed =>
    cases right with
    | data laterBuffer laterNext => exact .finish laterBuffer laterNext unclosed
    | finish laterBuffer laterNext closed => cases closed

theorem appendReceived (value : SocketSlot) (data : List UInt8) (finish : Bool)
    (unclosed : value.receiveClosed = false) :
    Received value (SocketTable.appendReceived value data finish).2 := by
  simp only [SocketTable.appendReceived]
  split
  · exact .finish _ _ unclosed
  · exact .data _ _

end Received

namespace SocketTable
variable {table : SocketTable} {i : Fin socketCapacity}

@[simp] theorem setSlot_slots_self (value : SocketSlot) :
    (table.setSlot i value).slots i = value := by
  simp [setSlot]

theorem setSlot_slots_of_ne (apart : j ≠ i) (value : SocketSlot) :
    (table.setSlot i value).slots j = table.slots j := by
  simp [setSlot, apart]

@[simp] theorem setSlot_setSlot (first second : SocketSlot) :
    (table.setSlot i first).setSlot i second = table.setSlot i second := by
  simp [setSlot]

@[simp] theorem clearReassembly_slots (handle : SocketHandle) :
    (table.clearReassembly handle).slots = table.slots := rfl

theorem slot_eq_some : table.slot handle = some value ↔
      ∃ i, handle = some i ∧ (table.slots i).state ≠ .free ∧ table.slots i = value := by
  cases handle with
  | none => simp [slot]
  | some i =>
    simp only [slot, Option.some.injEq, exists_eq_left']
    split
    next isFree => simp [isFree]
    next inUse => simp [inUse]

theorem slot_some (resolved : table.slot (some i) = some value) :
    (table.slots i).state ≠ .free ∧ table.slots i = value := by
  obtain ⟨_, same, found⟩ := slot_eq_some.mp resolved
  cases same
  exact found

/-- The stored segments of one table are among those of another. -/
def StoreSubset (after before : SocketTable) : Prop :=
  ∀ position stored, after.reassembly position = some stored →
    before.reassembly position = some stored

namespace StoreSubset

theorem refl (table : SocketTable) : StoreSubset table table := fun _ _ stored => stored

theorem trans (left : StoreSubset first second) (right : StoreSubset second third) :
    StoreSubset first third :=
  fun place stored kept => right place stored (left place stored kept)

theorem dropQueued (table : SocketTable) (place : Fin reassemblyCapacity) :
    StoreSubset (table.dropQueued place) table := by
  intro j stored kept
  by_cases same : j = place
  · simp [SocketTable.dropQueued, same] at kept
  · simpa [SocketTable.dropQueued, update_of_ne same] using kept

end StoreSubset

theorem clearReassembly_stored
    (kept : (table.clearReassembly handle).reassembly place = some stored) :
    table.reassembly place = some stored ∧ stored.1.handle ≠ handle := by
  simp only [clearReassembly] at kept
  split at kept
  next key segment found =>
    split at kept
    · cases kept
    next other =>
      cases kept
      exact ⟨found, other⟩
  · cases kept

theorem StoreSubset.clearReassembly (table : SocketTable) (handle : SocketHandle) :
    StoreSubset (table.clearReassembly handle) table :=
  fun _ _ kept => (clearReassembly_stored kept).1

/-- The effect of taking stream bytes in or out: one slot moves along
`Received`, all other slots stay, and stored segments only disappear. -/
structure Drained (before after : SocketTable) (index : Fin socketCapacity) : Prop where
  others : ∀ other ≠ index, after.slots other = before.slots other
  received : Received (before.slots index) (after.slots index)
  store : StoreSubset after before

namespace Drained

theorem refl (table : SocketTable) (i : Fin socketCapacity) : Drained table table i :=
  ⟨fun _ _ => rfl, .refl _, .refl _⟩

theorem trans (left : Drained first second i) (right : Drained second third i) :
    Drained first third i :=
  ⟨fun j apart => (right.others j apart).trans (left.others j apart),
    left.received.trans right.received, right.store.trans left.store⟩

theorem setSlot (received : Received (table.slots i) value) :
    Drained table (table.setSlot i value) i :=
  ⟨fun _ apart => setSlot_slots_of_ne apart value, by simpa using received, .refl table⟩

theorem dropQueued (table : SocketTable) (i : Fin socketCapacity) (place : Fin reassemblyCapacity) :
    Drained table (table.dropQueued place) i :=
  ⟨fun _ _ => rfl, .refl _, .dropQueued table place⟩

theorem clearReassembly (table : SocketTable) (i : Fin socketCapacity) (handle : SocketHandle) :
    Drained table (table.clearReassembly handle) i :=
  ⟨fun _ _ => rfl, .refl _, .clearReassembly table handle⟩

theorem drainLoop (fuel : Nat) (table : SocketTable) (i : Fin socketCapacity) (total : Nat) :
    Drained table (drainLoop fuel table i total).2 i := by
  induction fuel generalizing table total with
  | zero => exact refl table i
  | succ fuel ih =>
    simp only [SocketTable.drainLoop]
    split
    · exact clearReassembly table i _
    rename_i unclosed
    split
    · exact refl table i
    rename_i place _
    split
    · exact refl table i
    rename_i key queued _
    split
    · exact (dropQueued table i place).trans (ih _ _)
    split
    · exact refl table i
    have taken :=
      (setSlot (Received.appendReceived (table.slots i)
        (queued.data.drop ((table.slots i).receiveNext - key.sequence).toNat)
        queued.finish (by simpa using unclosed))).trans
        (dropQueued _ i place)
    split
    · exact taken
    · exact taken.trans (ih _ _)

theorem drainReassembly (table : SocketTable) (i : Fin socketCapacity) :
    Drained table (table.drainReassembly i).2 i :=
  drainLoop _ table i 0

end Drained

/-- Reading moves one slot along `Received` and leaves slots without buffered
bytes alone. -/
theorem read_cases (table : SocketTable) (handle : SocketHandle) (size : Nat) :
    (table.read handle size).2 = table ∨
      ∃ i, handle = some i ∧ (table.slots i).state ≠ .free ∧ (table.slots i).receiveBuffer ≠ [] ∧
        Drained table (table.read handle size).2 i := by
  unfold read
  split
  next i value resolved =>
    obtain ⟨inUse, rfl⟩ := slot_some resolved
    split
    · exact .inl rfl
    split
    · exact .inl rfl
    next buffered =>
      exact .inr ⟨i, rfl, inUse, buffered,
        (Drained.setSlot (.data _ _)).trans (.drainReassembly _ i)⟩
  · exact .inl rfl

/-- Storing a segment fills at most one empty reassembly slot, under the handle
it was given. -/
theorem storeReassembly_cases (table : SocketTable) (handle : SocketHandle)
    (sequence : UInt32) (data : List UInt8) (finish : Bool) :
    (table.storeReassembly handle sequence data finish).2 = table ∨
      ∃ position, table.reassembly position = none ∧
        (table.storeReassembly handle sequence data finish).2 =
          { table with
            reassembly := update table.reassembly position
              (some (⟨handle, sequence⟩, ⟨finish, data⟩)) } := by
  unfold storeReassembly
  split
  · exact .inl rfl
  split
  · exact .inl rfl
  split
  · exact .inl rfl
  next position found =>
    refine .inr ⟨position, ?_, rfl⟩
    simpa using List.find?_some found

/-- The effect of an incoming segment: stored segments of the handle may be
added, otherwise the table moves as for reading. -/
structure Taken (before after : SocketTable) (index : Fin socketCapacity) : Prop where
  others : ∀ other ≠ index, after.slots other = before.slots other
  received : Received (before.slots index) (after.slots index)
  store : ∀ position stored, after.reassembly position = some stored →
    before.reassembly position = some stored ∨ stored.1.handle = some index

theorem Drained.taken (drained : Drained before after i) : Taken before after i :=
  ⟨drained.others, drained.received,
    fun place stored kept => .inl (drained.store place stored kept)⟩

section
variable (table : SocketTable)

theorem Taken.storeReassembly (i : Fin socketCapacity)
    (sequence : UInt32) (data : List UInt8) (finish : Bool) :
    Taken table (table.storeReassembly (some i) sequence data finish).2 i := by
  rcases table.storeReassembly_cases (some i) sequence data finish with
    same | ⟨place, _, filled⟩
  · rw [same]
    exact (Drained.refl table i).taken
  rw [filled]
  refine ⟨fun _ _ => rfl, .refl _, fun j stored kept => ?_⟩
  by_cases same : j = place
  · subst same
    simp only [update_self, Option.some.injEq] at kept
    exact .inr (kept ▸ rfl)
  · exact .inl (by simpa [update_of_ne same] using kept)

theorem Taken.receiveTrimmed (index : Fin socketCapacity)
    (unclosed : (table.slots index).receiveClosed = false) (sequence : UInt32)
    (data : List UInt8) (finish : Bool) (distance : Nat) :
    Taken table (table.receiveTrimmed index (table.slots index) sequence data finish distance).2
      index := by
  simp only [SocketTable.receiveTrimmed]
  split
  · exact (Drained.refl table index).taken
  split
  · split
    · exact (Drained.refl table index).taken
    · exact Taken.storeReassembly table index _ _ _
  have appended := Drained.setSlot (Received.appendReceived (table.slots index)
    (data.take (min data.length
      ((socketReceiveCapacity - (table.slots index).receiveBuffer.length + 2 ^ 32 - distance) %
        2 ^ 32)))
    (finish && decide (data.length <
      (socketReceiveCapacity - (table.slots index).receiveBuffer.length + 2 ^ 32 - distance) %
        2 ^ 32)) unclosed)
  split
  · exact appended.taken
  · exact (appended.trans (.drainReassembly _ index)).taken

/-- A segment is taken only by a slot whose handshake is complete and whose
stream has not ended. -/
theorem receive_cases (handle : SocketHandle) (sequence : UInt32)
    (data : List UInt8) (finish : Bool) :
    (table.receive handle sequence data finish).2 = table ∨
      ∃ i, handle = some i ∧ (table.slots i).state ≠ .reset ∧
        isConnection (table.slots i).state = true ∧
        (table.slots i).state ≠ .synReceived ∧
        (table.slots i).receiveClosed = false ∧
        Taken table (table.receive handle sequence data finish).2 i := by
  unfold receive
  split
  next i value resolved =>
    obtain rfl := (slot_some resolved).2
    split
    · exact .inl rfl
    rename_i notReset
    split
    · exact .inl rfl
    rename_i linked
    simp only [not_or, Bool.not_eq_false] at linked
    split
    · exact .inl rfl
    rename_i unclosed
    have unclosed : (table.slots i).receiveClosed = false := by simpa using unclosed
    have taken := Taken.receiveTrimmed table i unclosed
    dsimp only
    split
    · split
      · exact .inl rfl
      · exact .inr ⟨i, rfl, notReset, linked.1, linked.2, unclosed, taken _ _ _ _⟩
    · exact .inr ⟨i, rfl, notReset, linked.1, linked.2, unclosed, taken _ _ _ _⟩
  · exact .inl rfl

end

/-! ## Opening, naming and handing out slots -/

theorem allocate_free (found : table.allocate = some i) : (table.slots i).state = .free := by
  simpa using List.find?_some found

theorem open_cases (table : SocketTable) (type : SocketType) :
    table.open type = ({}, table) ∨
      ∃ i, (table.slots i).state = .free ∧
        table.open type = (⟨.success, some i⟩, table.setSlot i
            { table.slots i with
              type
              state := if type = .datagram then .control else .created
              references := 1 }) := by
  unfold SocketTable.open
  split
  · exact .inl rfl
  next i found => exact .inr ⟨i, allocate_free found, rfl⟩

theorem retain_cases (table : SocketTable) (handle : SocketHandle) :
    table.retain handle = (.badHandle, table) ∨
      ∃ i, handle = some i ∧ (table.slots i).state ≠ .free ∧ (table.slots i).references ≠ 0xffff ∧
        table.retain handle = (.success, table.setSlot i
            { table.slots i with references := (table.slots i).references + 1 }) := by
  unfold retain
  split
  next i value resolved =>
    obtain ⟨inUse, rfl⟩ := slot_some resolved
    split
    · exact .inl rfl
    next room => exact .inr ⟨i, rfl, inUse, room, rfl⟩
  · exact .inl rfl

/-- The table after the last reference of a slot is gone. -/
structure Freed (before after : SocketTable) (index : Fin socketCapacity) : Prop where
  self : after.slots index = {}
  others : ∀ other ≠ index, after.slots other =
    if (before.slots index).state = .listening ∧ before.backlogged (some index) other
    then {} else before.slots other
  store : ∀ position stored, after.reassembly position = some stored →
    before.reassembly position = some stored ∧
      ∀ owner, stored.1.handle = some owner → after.slots owner = before.slots owner ∧
        owner ≠ index

theorem dropBacklog_stored (kept : (table.dropBacklog handle).reassembly place = some stored) :
    table.reassembly place = some stored ∧
      ∀ owner, stored.1.handle = some owner → table.backlogged handle owner = false := by
  simp only [dropBacklog] at kept
  split at kept
  next key segment found =>
    split at kept
    · cases kept
    rename_i waiting
    cases kept
    refine ⟨found, fun owner same => ?_⟩
    rw [same] at waiting
    simpa using waiting
  · cases kept

theorem release_cases (table : SocketTable) (handle : SocketHandle) :
    table.release handle = (.badHandle, table) ∨
      ∃ i, handle = some i ∧ (table.slots i).state ≠ .free ∧ (table.slots i).references ≠ 0 ∧
        (((table.slots i).references ≠ 1 ∧
            table.release handle = (.success, table.setSlot i
                { table.slots i with
                  references := (table.slots i).references - 1 })) ∨
          ((table.slots i).references = 1 ∧ (table.release handle).1 = .success ∧
            Freed table (table.release handle).2 i)) := by
  unfold release
  split
  next i value resolved =>
    obtain ⟨inUse, rfl⟩ := slot_some resolved
    split
    · exact .inl rfl
    rename_i held
    refine .inr ⟨i, rfl, inUse, held, ?_⟩
    split
    next more =>
      refine .inl ⟨?_, rfl⟩
      intro one
      simp [one] at more
    rename_i last
    refine .inr ⟨?_, rfl, ?_⟩
    · simp only [ne_eq, not_not] at last
      grind
    constructor
    · simp
    · intro other apart
      rw [setSlot_slots_of_ne apart, clearReassembly_slots]
      split
      next listening => simp [dropBacklog, listening]
      next notListening => simp [notListening]
    intro place stored kept
    obtain ⟨kept, other⟩ := clearReassembly_stored kept
    have apart : ∀ owner, stored.1.handle = some owner → owner ≠ i := by
      rintro owner owned rfl
      exact other owned
    split at kept
    next listening =>
      obtain ⟨kept, waiting⟩ := dropBacklog_stored kept
      refine ⟨kept, fun owner owned => ⟨?_, apart owner owned⟩⟩
      rw [setSlot_slots_of_ne (apart owner owned), if_pos listening]
      simp [dropBacklog, waiting owner owned]
    rename_i notListening
    refine ⟨kept, fun owner owned => ⟨?_, apart owner owned⟩⟩
    rw [setSlot_slots_of_ne (apart owner owned), if_neg notListening, clearReassembly_slots]
  · exact .inl rfl

theorem release_last (inUse : (table.slots i).state ≠ .free)
    (last : (table.slots i).references = 1) : (table.release (some i)).1 = .success ∧
      Freed table (table.release (some i)).2 i := by
  have resolved : table.slot (some i) = some (table.slots i) := if_neg inUse
  rcases table.release_cases (some i) with refused | ⟨_, same, -, -, cases⟩
  · have result := congrArg Prod.fst refused
    simp [release, resolved, last] at result
  cases same
  rcases cases with ⟨more, -⟩ | ⟨-, freed⟩
  · exact absurd last more
  · exact freed

theorem release_shared (inUse : (table.slots i).state ≠ .free)
    (held : (table.slots i).references ≠ 0) (more : (table.slots i).references ≠ 1) :
    table.release (some i) = (.success, table.setSlot i
      { table.slots i with references := (table.slots i).references - 1 }) := by
  have resolved : table.slot (some i) = some (table.slots i) := if_neg inUse
  rcases table.release_cases (some i) with refused | ⟨_, same, -, -, cases⟩
  · have result := congrArg Prod.fst refused
    simp only [release, resolved, held, if_false] at result
    split at result <;> cases result
  cases same
  rcases cases with ⟨-, freed⟩ | ⟨last, -⟩
  · exact freed
  · exact absurd last more

section
variable (table)

/-- A slot is bound to an endpoint that no other named slot overlaps. -/
theorem bind_cases (handle : SocketHandle) (endpoint : Endpoint) :
    (table.bind handle endpoint).2 = table ∨
      ∃ i chosen, (table.slots i).state = .created ∧ (table.slots i).type = .stream ∧
        table.portConflicts (some i) chosen = false ∧
        (table.bind handle endpoint).2 = table.setSlot i
            { table.slots i with localEnd := chosen, state := .bound } := by
  unfold bind
  split
  next i value resolved =>
    obtain rfl := (slot_some resolved).2
    split
    · exact .inl rfl
    rename_i stream
    split
    · exact .inl rfl
    rename_i created
    dsimp only
    generalize (if endpoint.port = 0 then table.allocateEphemeralPort endpoint.address
      else endpoint.port) = port
    split
    · exact .inl rfl
    split
    · exact .inl rfl
    next conflicts =>
      exact .inr ⟨i, _, by simpa using created, by simpa using stream,
        by simpa using conflicts, rfl⟩
  · exact .inl rfl

theorem listen_cases (handle : SocketHandle) (backlog : UInt32) :
    (table.listen handle backlog).2 = table ∨
      ∃ i room, ((table.slots i).state = .bound ∨ (table.slots i).state = .listening) ∧
        room.toNat ≤ 4 ∧
        (table.listen handle backlog).2 = table.setSlot i
            { table.slots i with backlog := room, state := .listening } := by
  unfold listen
  split
  next i value resolved =>
    obtain rfl := (slot_some resolved).2
    split
    · exact .inl rfl
    split
    · exact .inl rfl
    rename_i ready
    refine .inr ⟨i, _, ?_, ?_, rfl⟩
    · tauto
    have least : (min backlog listenBacklogCapacity).toNat ≤ 4 := by
      show (if backlog ≤ listenBacklogCapacity then backlog else listenBacklogCapacity).toNat ≤ 4
      split
      next small => exact small
      · decide
    have bound : (max 1 (min backlog listenBacklogCapacity)).toNat ≤ 4 := by
      show (if 1 ≤ min backlog listenBacklogCapacity then
        min backlog listenBacklogCapacity else 1).toNat ≤ 4
      split
      · exact least
      · decide
    rw [UInt32.toNat_toUInt8]
    omega
  · exact .inl rfl

/-- A request names a waiting connection of the listener to the same peer, or
takes the first free slot while the backlog has room. -/
theorem beginConnection_cases (listenerHandle : SocketHandle) (localEnd remoteEnd : Endpoint)
    (remoteMac : MacAddress) (remoteSequence localSequence : UInt32) :
    let started := table.beginConnection listenerHandle localEnd remoteEnd remoteMac
      remoteSequence localSequence
    (started.1.result ≠ .success ∧ started.2 = table) ∨
      (∃ i, started = (⟨.success, some i⟩, table) ∧ table.backlogged listenerHandle i = true ∧
        (table.slots i).remoteEnd = remoteEnd ∧ listenerHandle ≠ none) ∨
      ∃ listener i, listenerHandle = some listener ∧ table.allocate = some i ∧
        table.pending listenerHandle < (table.slots listener).backlog.toNat ∧
        started = (⟨.success, some i⟩, table.setSlot i
            { table.slots i with
              state := .synReceived
              type := .stream
              localEnd
              remoteEnd
              remoteMac
              sendNext := localSequence + 1
              sendUnacknowledged := localSequence
              flow.windowSequence := remoteSequence
              flow.windowAcknowledgement := localSequence
              receiveNext := remoteSequence + 1
              references := 1
              listener := listenerHandle }) := by
  unfold beginConnection
  split
  · exact .inl ⟨by simp, rfl⟩
  rename_i listening resolved
  obtain ⟨listener, named, -, rfl⟩ := slot_eq_some.mp resolved
  split
  · exact .inl ⟨by simp, rfl⟩
  split
  next i found =>
    have waiting := List.find?_some found
    simp only [Bool.and_eq_true, decide_eq_true_eq] at waiting
    exact .inr (.inl ⟨i, rfl, waiting.1, waiting.2, by simp [named]⟩)
  split
  · exact .inl ⟨by simp, rfl⟩
  rename_i room
  split
  · exact .inl ⟨by simp, rfl⟩
  next i found =>
    exact .inr (.inr ⟨listener, i, named, found, Nat.lt_of_not_le room, rfl⟩)

section
variable (handle : SocketHandle)

theorem establish_cases (acknowledgement : UInt32) :
    ((table.establish handle acknowledgement).1 ≠ .success ∧
        (table.establish handle acknowledgement).2 = table) ∨
      (∃ i, handle = some i ∧
        ((table.slots i).state = .established ∨ (table.slots i).state = .closeWait) ∧
        table.establish handle acknowledgement = (.success, table)) ∨
      ∃ i, handle = some i ∧ (table.slots i).state = .synReceived ∧
        acknowledgement = (table.slots i).sendNext ∧
        table.establish handle acknowledgement = (.success, table.setSlot i
            { table.slots i with
              state := .established
              sendUnacknowledged := acknowledgement }) := by
  unfold establish
  split
  next i value resolved =>
    obtain ⟨inUse, rfl⟩ := slot_some resolved
    split
    next already => exact .inr (.inl ⟨i, rfl, already, rfl⟩)
    split
    · exact .inl ⟨by simp, rfl⟩
    next ready =>
      simp only [not_or, ne_eq, not_not] at ready
      exact .inr (.inr ⟨i, rfl, ready.1, ready.2, rfl⟩)
  · exact .inl ⟨by simp, rfl⟩

theorem accept_cases :
    ((table.accept handle).1.handle = invalidSocket ∧ (table.accept handle).2 = table) ∨
      ∃ i, handle ≠ none ∧ table.acceptable handle i = true ∧
        table.accept handle = (⟨.success, some i, (table.slots i).remoteEnd⟩,
            table.setSlot i { table.slots i with accepted := true }) := by
  unfold accept
  split
  · exact .inl ⟨rfl, rfl⟩
  rename_i listening resolved
  split
  · exact .inl ⟨rfl, rfl⟩
  split
  · exact .inl ⟨rfl, rfl⟩
  rename_i i found
  refine .inr ⟨i, ?_, List.find?_some found, rfl⟩
  rintro rfl
  cases resolved

theorem reset_cases (failure : SocketResult) :
    table.reset handle failure = table ∨
      ∃ i, handle = some i ∧ (table.slots i).state ≠ .free ∧
        (((table.slots i).state = .synReceived ∧
            table.reset handle failure = (table.release handle).2) ∨
          ((table.slots i).state ≠ .synReceived ∧
            table.reset handle failure = (table.clearReassembly handle).setSlot i
                { table.slots i with
                  receiveBuffer := []
                  state := .reset
                  failure
                  receiveClosed := false
                  flow.persistWaiting := false })) := by
  unfold reset
  split
  next i value resolved =>
    obtain ⟨inUse, rfl⟩ := slot_some resolved
    refine .inr ⟨i, rfl, inUse, ?_⟩
    split
    next halfOpen => exact .inl ⟨halfOpen, rfl⟩
    next notHalfOpen => exact .inr ⟨notHalfOpen, rfl⟩
  · exact .inl rfl

end
end
end SocketTable
end Mikos.Network
