import Mikos.Network.StackSegments

/-!
# Calls of the stack's interface keep the invariant

A call changes the account of the slot it names: handles are handed out and
given back, and writes accept bytes.  A caller may use a handle that names a slot
in use only while it holds it.
-/

namespace Mikos.Network
open Library Stack

/-- Only the ownership of a slot changes, with the holders of its account. -/
theorem SlotInvariant.reowned {value after : SocketSlot}
    {pieces : Fin transmitCapacity → Option (UInt32 × List UInt8)}
    (invariant : SlotInvariant account value pieces) (first : later.first = account.first)
    (bytes : later.accepted = account.accepted) (owned : Owned later.holders after)
    (flags : FlagsAgree after) (state : after.state = value.state)
    (taken : after.accepted = false → value.accepted = false)
    (next : after.sendNext = value.sendNext)
    (unacknowledged : after.sendUnacknowledged = value.sendUnacknowledged)
    (finSent : after.finSent = value.finSent) (finAcked : after.finAcked = value.finAcked)
    (buffer : after.receiveBuffer = value.receiveBuffer)
    (pos : after.flow.peerMss = value.flow.peerMss) : SlotInvariant later after pieces := by
  obtain ⟨-, -, sending, quiet, mss⟩ := invariant
  refine ⟨flags, owned, ?_, by rwa [state, buffer], by rwa [pos]⟩
  rw [Sending, state, bytes, first, finAcked, next]
  rw [Sending] at sending
  split
  next synced =>
    rw [if_pos synced] at sending
    obtain ⟨empty, acked, flight, finished⟩ := sending
    have flight : Flight account after pieces acked := flight.congr next unacknowledged finSent
    obtain ⟨next, unacknowledged, bound, drained, tiles⟩ := flight
    refine ⟨fun unaccepted => empty (taken unaccepted), acked, ⟨?_, ?_, ?_, ?_, ?_⟩,
      finished⟩ <;> simpa only [bytes, first]
  next idle => rwa [if_neg idle] at sending

/-- States of a slot that a caller opened and that is no connection. -/
def isLocal : SocketState → Bool
  | .control | .created | .bound | .listening => true
  | _ => false

theorem flagsAgree_local (opened : isLocal value.state = true) : FlagsAgree value ↔
      value.sendClosed = false ∧ value.receiveClosed = false ∧ value.finSent = false ∧
        value.finAcked = false ∧ value.activeClose = false := by
  rw [FlagsAgree]
  cases state : value.state <;> simp_all [isLocal]

theorem owned_local (opened : isLocal value.state = true) : Owned holders value ↔
      value.references.toNat = holders ∧ 0 < holders ∧ value.accepted = false ∧
        value.detached = false ∧ value.listener = invalidSocket := by
  rw [Owned]
  cases state : value.state <;> simp_all [isLocal]

theorem isSynchronized_local (opened : isLocal state = true) :
    isSynchronized state = false ∧ state ≠ .synReceived ∧ isSendOpen state = false := by
  cases state <;> simp_all [isLocal, isSynchronized, isSendOpen]

theorem SlotInvariant.named {pieces : Fin transmitCapacity → Option (UInt32 × List UInt8)}
    (invariant : SlotInvariant account value pieces) (opened : isLocal value.state = true)
    (still : isLocal state = true) (localEnd : Endpoint) (backlog : UInt8) :
    SlotInvariant account { value with state, localEnd, backlog } pieces := by
  have idle := (isSynchronized_local opened).1
  have none := invariant.pieces_none idle
  obtain ⟨flags, owned, -, quiet, pos⟩ := invariant
  refine ⟨?_, ?_, ?_, fun _ => quiet idle, pos⟩
  · exact (flagsAgree_local still).mpr ((flagsAgree_local opened).mp flags)
  · exact (owned_local still).mpr ((owned_local opened).mp owned)
  · rw [Sending, if_neg (by simp [isSynchronized_local still])]
    exact ⟨none, fun halfOpen => absurd halfOpen (isSynchronized_local still).2.1⟩

def Account.enter (account : Account) (input : List UInt8) : Account :=
  { account with offers := account.offers ++ [(account.accepted.length, input)] }

/-- The account of a slot after an event: callers get and give back handles, and
a write offers its input and accepts the part it reports. -/
def StackEvent.credit (driver : Nat → Bool) (stack : Stack) (event : StackEvent)
    (index : Fin socketCapacity) (account : Account) : Account :=
  match event with
  | .open type =>
    if (stack.socketOpen type).1.handle = some index then
      { account with holders := account.holders + 1 }
    else account
  | .retain handle =>
    if handle = some index ∧ (stack.socketRetain handle).1 = .success then
      { account with holders := account.holders + 1 }
    else account
  | .close now handle =>
    if handle = some index ∧ (stack.socketClose driver now handle).1 = .success then
      { account with holders := account.holders - 1 }
    else account
  | .accept handle =>
    if (stack.socketAccept handle).1.handle = some index then
      { account with holders := account.holders + 1 }
    else account
  | .write now handle input =>
    if handle = some index then
      { account.enter input with
        accepted := account.accepted ++
          input.take (stack.socketWrite driver now handle input).1.size }
    else account
  | _ => account

namespace StackInvariant
variable {driver : Nat → Bool} {history : List Transmission}
  {accounts later : Fin socketCapacity → Account} {stack : Stack} {i : Fin socketCapacity}

theorem held (invariant : StackInvariant history accounts stack) (held : 0 < (accounts i).holders) :
    (stack.socket i).state ≠ .free ∧ (stack.socket i).references.toNat = (accounts i).holders ∧
      (isConnection (stack.socket i).state = true →
        (stack.socket i).accepted = true ∧ (stack.socket i).detached = false ∧
          (stack.socket i).state ≠ .synReceived) := by
  have owned := (invariant.slots i).owned
  rw [Owned] at owned
  cases state : (stack.socket i).state <;> simp only [state] at owned <;>
    simp [isConnection] <;> grind

/-! ## Polls -/

theorem flushAcknowledgement_touches (driver : Nat → Bool) (stack : Stack)
    (i : Fin socketCapacity) :
    Touches i stack (Stack.flushAcknowledgement driver stack i) ∧
      (Stack.flushAcknowledgement driver stack i).nextSequence = stack.nextSequence := by
  simp only [Stack.flushAcknowledgement]
  split
  · exact ⟨.refl i stack, rfl⟩
  have touches := Touches.sendSegment driver i stack (stack.socket i) tcpAck []
    (stack.socket i).sendNext
  split
  · exact ⟨touches.trans (.setSocket i _ _), by simp [setSocket]⟩
  · exact ⟨touches, by simp⟩

theorem fresh_flushAcknowledgement (invariant : StackInvariant history accounts stack)
    (fresh : Fresh accounts stack) (i : Fin socketCapacity) :
    Fresh accounts (Stack.flushAcknowledgement driver stack i) := by
  intro j free
  by_cases same : j = i
  · subst same
    rw [flushAcknowledgement_state] at free
    have idle : Stack.flushAcknowledgement driver stack j = stack := by
      simp only [Stack.flushAcknowledgement]
      rw [if_pos (by simp [free, isConnection])]
    rw [idle]
    exact fresh j free
  · obtain ⟨touches, sequence⟩ := flushAcknowledgement_touches driver stack i
    rw [touches.sockets j same] at free
    rw [sequence, touches.sentBy same (invariant.begun j)]
    exact fresh j free

theorem fresh_flushAcknowledgements (driver : Nat → Bool)
    (invariant : StackInvariant history accounts stack) (fresh : Fresh accounts stack) :
    StackInvariant history accounts (Stack.flushAcknowledgements driver stack) ∧
      Fresh accounts (Stack.flushAcknowledgements driver stack) :=
  List.foldlRecOn
    (motive := fun stack => StackInvariant history accounts stack ∧ Fresh accounts stack)
    _ _ ⟨invariant, fresh⟩ fun _ kept i _ =>
      ⟨kept.1.flushAcknowledgement i, fresh_flushAcknowledgement kept.1 kept.2 i⟩

section
variable (invariant : StackInvariant history accounts stack)
include invariant

theorem poll (fresh : Fresh accounts stack) (now : UInt64) (frame : Option (List UInt8)) :
    StackInvariant history accounts (stack.poll driver now frame) := by
  simp only [Stack.poll]
  split
  · exact invariant
  have ticked : StackInvariant history accounts { stack with now } := invariant.congr rfl rfl rfl
  obtain ⟨acknowledged, fresh⟩ := fresh_flushAcknowledgements driver ticked fresh
  refine (flushTimers ?_).flushRetransmission
  cases frame with
  | none => exact acknowledged
  | some bytes => exact (acknowledged.handle fresh bytes).record _

/-! ## Handles -/

theorem rehold (held : 0 < (accounts i).holders) (remain : 0 < references.toNat)
    (others : ∀ j ≠ i, later j = accounts j)
    (account : later i = { accounts i with holders := references.toNat }) :
    StackInvariant history later (stack.setSocket i { stack.socket i with references }) := by
  have slot := invariant.slots i
  have owned : Owned references.toNat { stack.socket i with references } := by
    have owned := slot.owned
    rw [Owned] at owned ⊢
    cases state : (stack.socket i).state <;> simp only [state] at owned <;> grind
  refine invariant.store others (by rw [account]) ?_ ?_
  · rw [account]
    exact slot.reowned rfl rfl owned slot.flags rfl id rfl rfl rfl rfl rfl rfl
  · rw [account]
    exact { invariant.records i with }

theorem socketOpen (driver : Nat → Bool) (type : SocketType) :
    StackInvariant history (fun i => StackEvent.credit driver stack (.open type) i (accounts i))
      (stack.socketOpen type).2 := by
  simp only [StackEvent.credit]
  rcases stack.sockets.open_cases type with refused | ⟨i, free, opened⟩
  · simp only [Stack.socketOpen, refused, invalidSocket, reduceCtorEq, if_false]
    exact invariant.congr rfl rfl rfl
  have slot := invariant.slots i
  have owned := slot.owned
  rw [Owned, show (stack.socket i).state = .free from free] at owned
  obtain ⟨empty, unheld⟩ := owned
  simp only [Stack.socketOpen, opened, Option.some.injEq]
  have slots : stack.sockets.slots i = {} := empty
  rw [slots]
  refine invariant.store (fun j apart => if_neg apart.symm) (by simp) ?_ ?_
  · rw [if_pos rfl]
    refine ⟨?_, ?_, ?_, fun _ => rfl, (by decide : (536 : UInt16) ≠ 0)⟩
    · cases type <;> simp [FlagsAgree]
    · cases type <;> simp [Owned, unheld, invalidSocket]
    · rw [Sending, if_neg (by cases type <;> simp [isSynchronized])]
      refine ⟨slot.pieces_none ?_, by cases type <;> simp⟩
      rw [empty]
      rfl
  · rw [if_pos rfl]
    obtain ⟨data, firsts, finish, -, -⟩ := invariant.records i
    exact ⟨data, firsts, finish, by cases type <;> simp [isSendOpen], by simp⟩

theorem socketRetain (driver : Nat → Bool) {handle : SocketHandle}
    (granted : ∀ i, handle = some i → (stack.socket i).state ≠ .free → 0 < (accounts i).holders) :
    StackInvariant history (fun i => StackEvent.credit driver stack (.retain handle) i (accounts i))
      (stack.socketRetain handle).2 := by
  simp only [StackEvent.credit]
  rcases stack.sockets.retain_cases handle with refused | ⟨i, rfl, inUse, room, retained⟩
  · simp only [Stack.socketRetain, refused, reduceCtorEq, and_false, if_false]
    exact invariant.congr rfl rfl rfl
  have held := granted i rfl inUse
  have references := (invariant.held held).2.1
  have grown : ((stack.sockets.slots i).references + 1).toNat = (accounts i).holders + 1 := by
    rw [UInt16.toNat_add, ← references]
    have bound := (stack.sockets.slots i).references.toNat_lt
    have room : (stack.sockets.slots i).references.toNat ≠ 65535 := fun full =>
      room (UInt16.toNat_inj.mp full)
    simp only [UInt16.reduceToNat, socket]
    omega
  simp only [Stack.socketRetain, retained, Option.some.injEq, and_true]
  refine invariant.rehold held (grown ▸ Nat.succ_pos _) (fun j apart => if_neg apart.symm) ?_
  rw [if_pos rfl, grown]

theorem socketBind (handle : SocketHandle) (localEnd : Endpoint) :
    StackInvariant history accounts (stack.socketBind handle localEnd).2 := by
  simp only [Stack.socketBind]
  split
  · exact invariant
  rcases stack.sockets.bind_cases handle localEnd with same | ⟨i, chosen, created, -, -, bound⟩
  · simp only [same]
    exact invariant
  simp only [bound]
  have created : (stack.socket i).state = .created := created
  refine invariant.store (fun _ _ => rfl) rfl
    ((invariant.slots i).named (by simp [created, isLocal]) rfl chosen _) ?_
  exact (invariant.records i).congr (by simp [isSendOpen]) id

theorem socketListen (handle : SocketHandle) (backlog : UInt32) :
    StackInvariant history accounts (stack.socketListen handle backlog).2 := by
  simp only [Stack.socketListen]
  rcases stack.sockets.listen_cases handle backlog with same | ⟨i, room, ready, -, listening⟩
  · simp only [same]
    exact invariant
  simp only [listening]
  have ready : (stack.socket i).state = .bound ∨ (stack.socket i).state = .listening := ready
  refine invariant.store (fun _ _ => rfl) rfl ((invariant.slots i).named ?_ rfl _ room) ?_
  · rcases ready with ready | ready <;> simp [ready, isLocal]
  · exact (invariant.records i).congr (by simp [isSendOpen]) id

theorem socketAccept (driver : Nat → Bool) (handle : SocketHandle) :
    StackInvariant history (fun i => StackEvent.credit driver stack (.accept handle) i (accounts i))
      (stack.socketAccept handle).2 := by
  simp only [StackEvent.credit]
  rcases stack.sockets.accept_cases handle with ⟨none, same⟩ | ⟨i, named, waiting, taken⟩
  · simp only [Stack.socketAccept, none, same, invalidSocket, reduceCtorEq, if_false]
    exact invariant
  have slot := invariant.slots i
  have owned := slot.owned
  simp only [SocketTable.acceptable, SocketTable.backlogged, Bool.and_eq_true,
    decide_eq_true_eq, Bool.not_eq_true', Bool.or_eq_true] at waiting
  obtain ⟨⟨listener, unaccepted⟩, ready⟩ := waiting
  have synced : isSynchronized (stack.socket i).state = true := by
    rw [Owned] at owned
    rcases ready with (ready | ready) | ready <;> simp_all [Stack.socket, isSynchronized]
  rw [owned_iff synced, if_neg (by simp [Stack.socket, unaccepted])] at owned
  obtain ⟨unheld, last, attached, -, -⟩ := owned
  simp only [Stack.socketAccept, taken, Option.some.injEq]
  refine invariant.store (fun j apart => if_neg apart.symm) (by simp) ?_ ?_
  · rw [if_pos rfl]
    refine slot.reowned rfl rfl ?_ slot.flags rfl (by simp) rfl rfl rfl rfl rfl rfl
    refine (owned_iff (by exact synced)).mpr ?_
    have attached : (stack.sockets.slots i).detached = false := attached
    have last : (stack.sockets.slots i).references = 1 := last
    simp [attached, unheld, last]
  · rw [if_pos rfl]
    exact { invariant.records i with }

theorem socketRead (now : UInt64) (handle : SocketHandle) (size : Nat) :
    StackInvariant history accounts (stack.socketRead now handle size).2 := by
  have consumed : StackInvariant history accounts
      { stack with now, sockets := (stack.sockets.read handle size).2 } := by
    rcases stack.sockets.read_cases handle size with same | ⟨i, -, -, buffered, drained⟩
    · rw [same]
      exact invariant.congr rfl rfl rfl
    · have synced : isSynchronized (stack.socket i).state = true := by
        by_contra idle
        exact buffered ((invariant.slots i).quiet (by simpa using idle))
      exact (invariant.received synced drained.others drained.received).congr rfl rfl rfl
  simp only [Stack.socketRead]
  split
  next i value resolved =>
    obtain ⟨inUse, rfl⟩ := SocketTable.slot_some resolved
    split
    · exact consumed.tune inUse (by constructor <;> simp [Stack.socket])
    · exact consumed
  · exact consumed

end

theorem requestFin_socket (driver : Nat → Bool) (stack : Stack) (i : Fin socketCapacity)
    (synced : isSynchronized (stack.socket i).state = true) :
    isSynchronized ((Stack.requestFin driver stack i).socket i).state = true := by
  simp only [Stack.requestFin]
  split
  · exact synced
  · rw [sendFin_state, socket_setSocket_self]
    split <;> rfl

section
variable (invariant : StackInvariant history accounts stack)
include invariant

theorem socketShutdown (now : UInt64) {handle : SocketHandle}
    (granted : ∀ i, handle = some i → (stack.socket i).state ≠ .free → 0 < (accounts i).holders)
    (how : UInt32) :
    StackInvariant history accounts (stack.socketShutdown driver now handle how).2 := by
  have ticked : StackInvariant history accounts { stack with now } := invariant.congr rfl rfl rfl
  simp only [Stack.socketShutdown]
  split
  next i value resolved =>
    obtain ⟨inUse, rfl⟩ := SocketTable.slot_some resolved
    split
    · exact ticked
    split
    · exact ticked
    rename_i linked
    simp only [not_or, Bool.not_eq_false] at linked
    have synced : isSynchronized (Stack.socket { stack with now } i).state = true :=
      isSynchronized_of_connection linked.1 linked.2.1 linked.2.2
    have taken := ((invariant.held (granted i rfl inUse)).2.2 linked.1).1
    have closing : StackInvariant history accounts
          (if how ≠ 0 then Stack.requestFin driver { stack with now } i else { stack with now }) ∧
        isSynchronized ((if how ≠ 0 then Stack.requestFin driver { stack with now } i
            else { stack with now }).socket i).state = true := by
      split
      · exact ⟨ticked.requestFin synced taken, requestFin_socket _ _ _ synced⟩
      · exact ⟨ticked, synced⟩
    generalize (if how ≠ 0 then Stack.requestFin driver { stack with now } i
      else { stack with now }) = after at closing
    split
    · exact closing.1.tune (ne_free_of_synchronized closing.2) (by constructor <;> simp)
    · exact closing.1
  · exact ticked

/-! ## Closing -/

theorem clearTransmissions (none : ∀ place, stack.pieces i place = none) :
    StackInvariant history accounts (stack.clearTransmissions (some i)) := by
  have slot := invariant.slots i
  refine invariant.touch (.clearTransmissions i stack) (fun _ _ => rfl) rfl ?_ (invariant.records i)
  rw [show (stack.clearTransmissions (some i)).pieces i = stack.pieces i from
    funext fun place => (pieces_clearTransmissions place).trans (none place).symm]
  exact slot

/-- A connection in the backlog of a listener is kept by the stack alone. -/
theorem backlogged (waiting : stack.sockets.backlogged (some listener) i = true) :
    (accounts i).holders = 0 ∧ ∀ place, stack.pieces i place = none := by
  have slot := invariant.slots i
  have owned := slot.owned
  simp only [SocketTable.backlogged, Bool.and_eq_true, decide_eq_true_eq,
    Bool.not_eq_true'] at waiting
  have named : (stack.socket i).listener = some listener := waiting.1
  have unaccepted : (stack.socket i).accepted = false := waiting.2
  refine ⟨?_, slot.pieces_none_of_unaccepted unaccepted⟩
  rw [Owned] at owned
  cases state : (stack.socket i).state <;> simp_all [invalidSocket]

/-- The last holder gives back a slot; a listener takes its backlog with it. -/
theorem freed {sockets : SocketTable} (freed : SocketTable.Freed stack.sockets sockets i)
    (none : ∀ place, stack.pieces i place = none) (others : ∀ j ≠ i, later j = accounts j)
    (account : later i = { accounts i with holders := 0 }) :
    StackInvariant history later { stack with sockets } := by
  refine ⟨invariant.grown, invariant.attributed, invariant.queue, fun j => ?_, fun j => ?_,
    fun j => ?_⟩
  · by_cases same : j = i
    · subst same
      rw [account]
      exact invariant.begun j
    · rw [others j same]
      exact invariant.begun j
  · by_cases same : j = i
    · subst same
      change SlotInvariant _ (sockets.slots j) _
      rw [freed.self]
      exact .freed (by rw [account]) none
    change SlotInvariant _ (sockets.slots j) _
    rw [others j same, freed.others j same]
    split
    next dropped =>
      obtain ⟨unheld, none⟩ := invariant.backlogged dropped.2
      exact .freed unheld none
    · exact invariant.slots j
  by_cases same : j = i
  · subst same
    change Recorded _ (sockets.slots j) _
    rw [freed.self, account]
    obtain ⟨data, firsts, finish, -, -⟩ := invariant.records j
    exact ⟨data, firsts, finish, by simp [isSendOpen], by simp⟩
  change Recorded _ (sockets.slots j) _
  rw [others j same, freed.others j same]
  split
  · exact (invariant.records j).congr (by simp [isSendOpen]) (by simp)
  · exact invariant.records j

theorem detach (synced : isSynchronized (stack.socket i).state = true)
    (taken : (stack.socket i).accepted = true) (last : (stack.socket i).references = 1)
    (others : ∀ j ≠ i, later j = accounts j)
    (account : later i = { accounts i with holders := 0 }) :
    StackInvariant history later (stack.setSocket i { stack.socket i with detached := true }) := by
  have slot := invariant.slots i
  refine invariant.store others (by rw [account]) ?_ ?_
  · rw [account]
    refine slot.reowned rfl rfl ?_ slot.flags rfl id rfl rfl rfl rfl rfl rfl
    refine (owned_iff (by exact synced)).mpr ?_
    simp [taken, last]
  · rw [account]
    exact { invariant.records i with }

/-- A slot that its last holder gives back outright has nothing in the queue. -/
theorem pieces_none_of_released (freed : (stack.socket i).finAcked = true ∨
      isConnection (stack.socket i).state = false ∨
      (stack.socket i).state = .reset ∨ (stack.socket i).state = .synReceived)
    (place : Fin transmitCapacity) : stack.pieces i place = none := by
  by_cases synced : isSynchronized (stack.socket i).state = true
  · refine (invariant.slots i).pieces_none_of_finAcked synced ?_ place
    rcases freed with finished | rest
    · exact finished
    have flags := (invariant.slots i).flags
    rw [FlagsAgree] at flags
    cases state : (stack.socket i).state <;> simp_all [isConnection, isSynchronized]
  · exact (invariant.slots i).pieces_none (by simpa using synced) place

theorem socketClose (now : UInt64) {handle : SocketHandle}
    (granted : ∀ i, handle = some i → (stack.socket i).state ≠ .free → 0 < (accounts i).holders) :
    StackInvariant history
      (fun i => StackEvent.credit driver stack (.close now handle) i (accounts i))
      (stack.socketClose driver now handle).2 := by
  have ticked : StackInvariant history accounts { stack with now } := invariant.congr rfl rfl rfl
  simp only [StackEvent.credit]
  cases handle with
  | none => exact ticked
  | some i =>
    by_cases free : (stack.socket i).state = .free
    · have unresolved : stack.sockets.slot (some i) = none := if_pos free
      simp only [Stack.socketClose, unresolved]
      simpa using ticked
    have resolved : stack.sockets.slot (some i) = some (stack.socket i) := if_neg free
    have held := granted i rfl free
    obtain ⟨-, references, connection⟩ := invariant.held held
    have others : ∀ j ≠ i,
        (if some i = some j ∧ True then
          { accounts j with holders := (accounts j).holders - 1 }
        else accounts j) = accounts j := fun j apart =>
      if_neg fun same => apart (Option.some.inj same.1).symm
    have account : (stack.socket i).references = 1 →
        (if some i = some i ∧ True then
          { accounts i with holders := (accounts i).holders - 1 }
        else accounts i) = { accounts i with holders := 0 } := by
      intro last
      rw [if_pos ⟨rfl, trivial⟩, ← references, last]
      rfl
    simp only [Stack.socketClose, resolved]
    split
    next finished =>
      obtain ⟨last, finished, -, -⟩ := finished
      have none := ticked.pieces_none_of_released (.inl finished)
      obtain ⟨success, freed⟩ := SocketTable.release_last free last
      have cleared := ticked.clearTransmissions none
      simp only [Stack.clearTransmissions, Stack.release, success] at cleared ⊢
      refine cleared.freed freed (fun place => ?_) others (account last)
      exact pieces_clearTransmissions place
    next =>
    split
    next linked =>
      obtain ⟨last, linked, notReset, notHalf⟩ := linked
      have synced := isSynchronized_of_connection linked notHalf notReset
      have taken := (connection linked).1
      have detached := ticked.detach synced taken last others (account last)
      simp only [eq_self]
      refine detached.requestFin ?_ ?_ <;> rwa [socket_setSocket_self]
    rename_i unfinished
    by_cases last : (stack.socket i).references = 1
    · have released : isConnection (stack.socket i).state = false ∨
          (stack.socket i).state = .reset ∨ (stack.socket i).state = .synReceived := by
        by_contra linked
        simp only [not_or, Bool.not_eq_false] at linked
        exact unfinished ⟨last, linked⟩
      have none := ticked.pieces_none_of_released (.inr released)
      obtain ⟨success, freed⟩ := SocketTable.release_last free last
      simp only [Stack.release, success, last, if_true]
      exact (ticked.freed freed none others (account last)).clearTransmissions none
    have some : (stack.socket i).references ≠ 0 := by
      intro zero
      rw [zero] at references
      exact absurd references held.ne
    have fewer : ((stack.socket i).references - 1).toNat = (accounts i).holders - 1 := by
      have one : (1 : UInt16) ≤ (stack.socket i).references := by
        rw [UInt16.le_iff_toNat_le, references]
        exact held
      rw [UInt16.toNat_sub_of_le _ _ one, references]
      rfl
    have many : (accounts i).holders ≠ 1 := by
      rw [← references]
      exact fun one => last (UInt16.toNat_inj.mp one)
    simp only [Stack.release, SocketTable.release_shared free some last, last, if_false, eq_self]
    refine ticked.rehold held (lt_of_lt_of_eq (by omega) fewer.symm) others ?_
    rw [if_pos ⟨rfl, trivial⟩, ← fewer]
    rfl

end
end StackInvariant
end Mikos.Network
