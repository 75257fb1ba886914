import Mikos.Network.StackCalls
import Mikos.Network.ReceiveStream

/-!
# What becomes of a slot

A slot that is in use keeps its name: the addresses, the port numbers and the listener of a slot
never change while it is in use, and a slot becomes one side of a connection only when it is
allocated.  The segments that are stored for the other slots stay where they are.
-/

namespace Mikos.Network
open Library

/-! ## One slot -/

/-- What names a slot to its peer and to its listener. -/
def SocketSlot.identity (value : SocketSlot) :
    SocketType × Endpoint × Endpoint × SocketHandle × UInt8 × Bool :=
  (value.type, value.localEnd, value.remoteEnd, value.listener, value.backlog, value.accepted)

/-- What holds of every slot at any time. -/
structure Valid (value : SocketSlot) : Prop where
  flags : FlagsAgree value
  free : value.state = .free → value = {}
  orphan : isConnection value.state = false → value.state ≠ .closed →
    value.listener = invalidSocket
  quiet : isSynchronized value.state = false → value.receiveBuffer = []

/-- A slot that lost its last holder is one of those that its timer ends. -/
def Retiring (value : SocketSlot) : Prop :=
  value.detached = true → value.references = 1 ∧
    (value.state = .finWait1 ∨ value.state = .finWait2 ∨ value.state = .closing ∨
      value.state = .timeWait ∨ value.state = .lastAck ∧ value.finAcked = false)

/-- A slot keeps its state, or a connection moves on. -/
def Advances (before after : SocketState) : Prop :=
  after = before ∨
    isConnection before = true ∧ (isConnection after = true ∨ after = .closed)

/-- A slot stays in use by the same user. -/
structure Keeps (before after : SocketSlot) : Prop where
  identity : after.identity = before.identity
  valid : Valid after
  state : Advances before.state after.state
  free : before.state = .free → after = before

/-- A slot stays in use and its routines do not lose it. -/
structure Develops (before after : SocketSlot) : Prop extends Keeps before after where
  retiring : Retiring before → Retiring after

/-- What a routine does to its slot; only connections are freed by the stack. -/
inductive Outcome (before : SocketSlot) : SocketSlot → Prop where
  | develops (develops : Develops before after) : Outcome before after
  | freed (connected : isConnection before.state = true) : Outcome before {}

theorem Valid.default : Valid {} where
  flags := by simp [FlagsAgree]
  free _ := rfl
  orphan _ _ := rfl
  quiet _ := rfl

theorem Retiring.default : Retiring {} := by
  intro detached
  cases detached

namespace Advances
variable {first second third : SocketState}

theorem trans (left : Advances first second) (right : Advances second third) :
    Advances first third := by
  rcases right with rfl | ⟨linked, moved⟩
  · exact left
  rcases left with rfl | ⟨started, -⟩
  · exact .inr ⟨linked, moved⟩
  · exact .inr ⟨started, moved⟩

theorem connected (advances : Advances first second) (connection : isConnection second = true) :
    isConnection first = true := by
  rcases advances with rfl | ⟨started, -⟩
  · exact connection
  · exact started

end Advances

namespace Keeps
variable {first second third : SocketSlot}

theorem refl (valid : Valid first) : Keeps first first := ⟨rfl, valid, .inl rfl, fun _ => rfl⟩

theorem trans (left : Keeps first second) (right : Keeps second third) : Keeps first third where
  identity := right.identity.trans left.identity
  valid := right.valid
  state := left.state.trans right.state
  free free := by
    have same := left.free free
    rw [right.free (by rw [same]; exact free), same]

end Keeps

namespace Develops
variable {first second third : SocketSlot}

theorem refl (valid : Valid first) : Develops first first := ⟨.refl valid, id⟩

theorem trans (left : Develops first second) (right : Develops second third) :
    Develops first third :=
  ⟨left.toKeeps.trans right.toKeeps, right.retiring ∘ left.retiring⟩

end Develops

namespace Outcome
variable {first second third : SocketSlot}

theorem refl (valid : Valid first) : Outcome first first := .develops (.refl valid)

theorem trans (left : Outcome first second) (right : Outcome second third) :
    Outcome first third := by
  cases right with
  | freed linked =>
    cases left with
    | develops earlier => exact .freed (earlier.state.connected linked)
    | freed earlier => exact .freed earlier
  | develops later =>
    cases left with
    | develops earlier => exact .develops (earlier.trans later)
    | freed linked =>
      rw [later.free rfl]
      exact .freed linked

theorem valid (outcome : Outcome first second) : Valid second := by
  cases outcome with
  | develops develops => exact develops.valid
  | freed _ => exact .default

theorem retiring (outcome : Outcome first second) (retiring : Retiring first) :
    Retiring second := by
  cases outcome with
  | develops develops => exact develops.retiring retiring
  | freed _ => exact .default

end Outcome

/-- Changes of a slot that only its transport sees. -/
structure Adjusts (before after : SocketSlot) : Prop where
  identity : after.identity = before.identity
  state : after.state = before.state
  detached : after.detached = before.detached
  references : after.references = before.references
  receiveClosed : after.receiveClosed = before.receiveClosed
  sendClosed : after.sendClosed = before.sendClosed
  finSent : after.finSent = before.finSent
  finAcked : after.finAcked = before.finAcked
  activeClose : after.activeClose = before.activeClose
  receiveBuffer : after.receiveBuffer = before.receiveBuffer ∨ after.receiveBuffer = []

namespace Adjusts
variable {before after : SocketSlot}

theorem tune : Adjusts value
      { value with
        flow
        timers
        acknowledgementRetries := retries
        sendNext := next
        sendUnacknowledged := unacknowledged } :=
  ⟨rfl, rfl, rfl, rfl, rfl, rfl, rfl, rfl, rfl, .inl rfl⟩

theorem refl (value : SocketSlot) : Adjusts value value :=
  ⟨rfl, rfl, rfl, rfl, rfl, rfl, rfl, rfl, rfl, .inl rfl⟩

theorem trans (left : Adjusts first second) (right : Adjusts second third) :
    Adjusts first third where
  identity := right.identity.trans left.identity
  state := right.state.trans left.state
  detached := right.detached.trans left.detached
  references := right.references.trans left.references
  receiveClosed := right.receiveClosed.trans left.receiveClosed
  sendClosed := right.sendClosed.trans left.sendClosed
  finSent := right.finSent.trans left.finSent
  finAcked := right.finAcked.trans left.finAcked
  activeClose := right.activeClose.trans left.activeClose
  receiveBuffer := by
    rcases right.receiveBuffer with same | empty
    · rw [same]
      exact left.receiveBuffer
    · exact .inr empty

theorem listener (adjusts : Adjusts before after) : after.listener = before.listener :=
  congrArg (fun identity => identity.2.2.2.1) adjusts.identity

theorem develops (adjusts : Adjusts before after) (valid : Valid before)
    (inUse : before.state ≠ .free) : Develops before after where
  identity := adjusts.identity
  valid := by
    refine ⟨?_, ?_, ?_, ?_⟩
    · have flags := valid.flags
      simpa only [FlagsAgree, adjusts.state, adjusts.sendClosed, adjusts.receiveClosed,
        adjusts.finSent, adjusts.finAcked, adjusts.activeClose] using flags
    · rw [adjusts.state]
      exact fun free => absurd free inUse
    · rw [adjusts.state, adjusts.listener]
      exact valid.orphan
    rw [adjusts.state]
    intro idle
    rcases adjusts.receiveBuffer with same | empty
    · rw [same]
      exact valid.quiet idle
    · exact empty
  state := .inl adjusts.state
  free free := absurd free inUse
  retiring := by
    rw [Retiring, Retiring, adjusts.detached, adjusts.references, adjusts.state, adjusts.finAcked]
    exact id

end Adjusts

theorem Develops.advance (linked : isConnection before.state = true)
    (moved : isConnection after.state = true ∨ after.state = .closed)
    (identity : after.identity = before.identity) (flags : FlagsAgree after)
    (quiet : isSynchronized after.state = false → after.receiveBuffer = [])
    (retiring : Retiring before → Retiring after) : Develops before after where
  identity := identity
  valid := by
    refine ⟨flags, fun free => ?_, fun idle unclosed => ?_, quiet⟩
    · rw [free] at moved
      simp [isConnection] at moved
    · rcases moved with moved | closed
      · rw [moved] at idle
        cases idle
      · exact absurd closed unclosed
  state := .inr ⟨linked, moved⟩
  free free := by
    rw [free] at linked
    cases linked
  retiring := retiring

section Moves
variable {value after : SocketSlot}

theorem FlagsAgree.finSent (flags : FlagsAgree value) (closed : value.sendClosed = true)
    (state : after.state = value.state) (sendClosed : after.sendClosed = value.sendClosed)
    (receiveClosed : after.receiveClosed = value.receiveClosed) (sent : after.finSent = true)
    (finAcked : after.finAcked = value.finAcked)
    (activeClose : after.activeClose = value.activeClose) : FlagsAgree after := by
  rw [FlagsAgree] at flags ⊢
  rw [state, sendClosed, receiveClosed, sent, finAcked, activeClose]
  cases held : value.state <;> simp_all

theorem FlagsAgree.sending (flags : FlagsAgree value) (linked : isConnection value.state = true)
    (complete : value.state ≠ .synReceived) (alive : value.state ≠ .reset)
    (unclosed : value.sendClosed = false) :
    value.state = .established ∨ value.state = .closeWait := by
  rw [FlagsAgree] at flags
  cases held : value.state <;> simp_all [isConnection]

/-- A connection whose sending side was closed is in one of the closing states. -/
theorem FlagsAgree.ending (flags : FlagsAgree value) (linked : isConnection value.state = true)
    (alive : value.state ≠ .reset) (closed : value.sendClosed = true) :
    value.state = .finWait1 ∨ value.state = .finWait2 ∨ value.state = .closing ∨
      value.state = .timeWait ∨ value.state = .lastAck := by
  rw [FlagsAgree] at flags
  cases held : value.state <;> simp_all [isConnection]

/-- A request to end our stream. -/
def SocketSlot.requested (value : SocketSlot) (detached : Bool) (timers : Timers) : SocketSlot :=
  { value with
    detached
    sendClosed := true
    activeClose := !value.receiveClosed
    state := if value.receiveClosed then .lastAck else .finWait1
    timers }

theorem Develops.requested (valid : Valid value) (linked : isConnection value.state = true)
    (sending : value.state = .established ∨ value.state = .closeWait)
    (sole : Retiring value → detached = true → value.references = 1) (timers : Timers) :
    Develops value (value.requested detached timers) := by
  have flags := valid.flags
  rw [FlagsAgree] at flags
  rcases sending with state | state <;> rw [state] at flags <;>
    obtain ⟨-, received, -, acked, -⟩ := flags
  · refine .advance linked (.inl ?_) rfl ?_ ?_ fun retiring gone => ⟨sole retiring gone, ?_⟩ <;>
      simp [SocketSlot.requested, received, isConnection, FlagsAgree, acked, isSynchronized]
  · refine .advance linked (.inl ?_) rfl ?_ ?_ fun retiring gone => ⟨sole retiring gone, ?_⟩ <;>
      simp [SocketSlot.requested, received, isConnection, FlagsAgree, acked, isSynchronized]

theorem FlagsAgree.unsent (flags : FlagsAgree value) (closed : value.sendClosed = true)
    (unsent : value.finSent = false) : isConnection value.state = true := by
  rw [FlagsAgree] at flags
  cases held : value.state <;> simp_all [isConnection]

theorem FlagsAgree.finished (flags : FlagsAgree value) (linked : isConnection value.state = true)
    (alive : value.state ≠ .reset) (active : value.state ≠ .timeWait)
    (sent : value.finSent = true) :
    value.state = .finWait1 ∨ value.state = .finWait2 ∨ value.state = .closing ∨
      value.state = .lastAck := by
  rw [FlagsAgree] at flags
  cases held : value.state <;> simp_all [isConnection]

theorem Develops.received (valid : Valid value) (synced : isSynchronized value.state = true)
    (received : Received value after) : Develops value after := by
  have flags := valid.flags
  cases received with
  | data buffer next =>
    refine ⟨⟨rfl, ⟨flags, fun free => ?_, valid.orphan, fun idle => ?_⟩, .inl rfl, fun free => ?_⟩,
      fun retiring => retiring⟩
    · exact absurd free (ne_free_of_synchronized synced)
    · exact absurd synced (by simpa using idle)
    · exact absurd free (ne_free_of_synchronized synced)
  | finish buffer next unclosed =>
    have receiving : value.state = .established ∨ value.state = .finWait1 ∨
        value.state = .finWait2 := by
      rw [FlagsAgree] at flags
      cases state : value.state <;> simp_all [isSynchronized]
    rw [FlagsAgree] at flags
    rcases receiving with state | state | state <;> rw [state] at flags <;>
      refine .advance (by rw [state]; rfl) (.inl ?_) rfl ?_ ?_ ?_ <;>
      simp_all [SocketTable.finishedState, FlagsAgree, isConnection, isSynchronized, Retiring]

end Moves

/-! ## Stored segments -/

namespace SocketTable
variable {table first second third : SocketTable} {i j : Fin socketCapacity}

/-- The stored segment of a slot at a position. -/
def storedAt (table : SocketTable) (index : Fin socketCapacity)
    (position : Fin reassemblyCapacity) : Option (ReassemblyKey × ReassemblySegment) :=
  (table.reassembly position).filter fun stored => stored.1.handle = some index

/-- Stored segments of the other slots stay where they are. -/
def StoreApart (index : Fin socketCapacity) (before after : SocketTable) : Prop :=
  ∀ other ≠ index, after.storedAt other = before.storedAt other

theorem storedAt_congr (same : second.reassembly = first.reassembly) :
    second.storedAt j = first.storedAt j := by
  funext place
  rw [storedAt, storedAt, same]

namespace StoreApart

theorem refl (i : Fin socketCapacity) (table : SocketTable) : StoreApart i table table :=
  fun _ _ => rfl

theorem trans (left : StoreApart i first second) (right : StoreApart i second third) :
    StoreApart i first third :=
  fun j apart => (right j apart).trans (left j apart)

theorem congr (same : second.reassembly = first.reassembly) : StoreApart i first second :=
  fun _ _ => storedAt_congr same

theorem clearReassembly (i : Fin socketCapacity) (table : SocketTable) :
    StoreApart i table (table.clearReassembly (some i)) := by
  intro j apart
  funext place
  simp only [storedAt, SocketTable.clearReassembly]
  cases found : table.reassembly place with
  | none => rfl
  | some stored =>
    obtain ⟨key, segment⟩ := stored
    dsimp only
    split
    next mine => simp [Option.filter, mine, apart.symm]
    · rfl

theorem update (old : ∀ stored ∈ table.reassembly position, stored.1.handle = some i)
    (new : ∀ stored ∈ value, stored.1.handle = some i) : StoreApart i table
      { table with reassembly := Function.update table.reassembly position value } := by
  intro j apart
  have mine {found : Option (ReassemblyKey × ReassemblySegment)}
      (owned : ∀ stored ∈ found, stored.1.handle = some i) :
      (found.filter fun stored => stored.1.handle = some j) = none := by
    rw [Option.filter_eq_none_iff]
    intro stored mem
    simp [owned stored mem, apart.symm]
  funext place
  by_cases same : place = position
  · subst same
    rw [storedAt, storedAt, mine old]
    simp only [Function.update_self]
    exact mine new
  · simp [storedAt, same]

theorem dropQueued (queued : table.Queued (some i) receiveNext place) :
    StoreApart i table (table.dropQueued place) := by
  obtain ⟨key, segment, found, mine, -⟩ := queued
  refine update (fun stored mem => ?_) (by simp)
  rw [found] at mem
  cases mem
  exact mine

theorem storeReassembly (i : Fin socketCapacity) (table : SocketTable) (sequence : UInt32)
    (data : List UInt8) (finish : Bool) :
    StoreApart i table (table.storeReassembly (some i) sequence data finish).2 := by
  rcases table.storeReassembly_cases (some i) sequence data finish with
    same | ⟨place, vacant, filled⟩
  · rw [same]
    exact refl i table
  rw [filled]
  refine update (by simp [vacant]) ?_
  rintro stored mem
  cases mem
  rfl

theorem drainLoop (fuel : Nat) (table : SocketTable) (i : Fin socketCapacity) (total : Nat) :
    StoreApart i table (drainLoop fuel table i total).2 := by
  induction fuel generalizing table total with
  | zero => exact refl i table
  | succ fuel ih =>
    simp only [SocketTable.drainLoop]
    split
    · exact clearReassembly i table
    split
    · exact refl i table
    rename_i place selected
    have queued := selectQueued_queued selected
    split
    · exact refl i table
    rename_i key stored _
    split
    · exact (dropQueued queued).trans (ih _ _)
    split
    · exact refl i table
    have taken : StoreApart i table ((table.setSlot i
        (appendReceived (table.slots i) (stored.data.drop
          ((table.slots i).receiveNext - key.sequence).toNat) stored.finish).2).dropQueued
        place) := by
      obtain ⟨key, segment, found, mine, behind⟩ := queued
      exact dropQueued ⟨key, segment, found, mine, behind⟩
    split
    · exact taken
    · exact taken.trans (ih _ _)

section
variable (table : SocketTable) (i : Fin socketCapacity)

theorem receiveTrimmed (value : SocketSlot)
    (sequence : UInt32) (data : List UInt8) (finish : Bool) (distance : Nat) :
    StoreApart i table (table.receiveTrimmed i value sequence data finish distance).2 := by
  simp only [SocketTable.receiveTrimmed]
  split
  · exact refl i table
  split
  · split
    · exact refl i table
    · exact storeReassembly i table _ _ _
  · split
    · exact congr rfl
    · exact (congr rfl).trans (drainLoop _ _ i 0)

theorem receive (sequence : UInt32) (data : List UInt8) (finish : Bool) :
    StoreApart i table (table.receive (some i) sequence data finish).2 := by
  cases resolved : table.slot (some i) with
  | none =>
    simp only [SocketTable.receive, resolved]
    exact refl i table
  | some value =>
    simp only [SocketTable.receive, resolved]
    split
    · exact refl i table
    split
    · exact refl i table
    split
    · exact refl i table
    split
    · split
      · exact refl i table
      · exact receiveTrimmed table i _ _ _ _ _
    · exact receiveTrimmed table i _ _ _ _ _

theorem read (size : Nat) : StoreApart i table (table.read (some i) size).2 := by
  cases resolved : table.slot (some i) with
  | none =>
    simp only [SocketTable.read, resolved]
    exact refl i table
  | some value =>
    simp only [SocketTable.read, resolved]
    split
    · exact refl i table
    split
    · exact refl i table
    · exact trans (congr rfl) (drainLoop _ (table.setSlot i _) i 0)

end
end StoreApart
end SocketTable

end Mikos.Network
