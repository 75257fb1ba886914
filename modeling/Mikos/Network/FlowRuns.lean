import Mikos.Network.SocketOrder
import Mikos.Network.StackRuns

/-!
# Flows stay apart in every run

A received frame reaches the slot of its address and port tuple, or a slot that is free.  The order
of the socket table makes the tuple unambiguous; every event keeps it while the address of the
interface stays the same.
-/

namespace Mikos.Network
open Library List SocketTable

/-! ## Events -/

namespace Stack
variable {driver : Nat → Bool} {stack : Stack} {address : Ipv4Address}

/-- A slot that a frame may change: the one that has the tuple of its segment, or
the one that the next connection gets. -/
def Selects (stack : Stack) (frame : List UInt8) (index : Fin socketCapacity) : Prop :=
  ∃ view, parseTcp frame stack.interface.address = some view ∧
    (stack.sockets.allocate = some index ∨
      (stack.socket index).state ≠ .free ∧
      (stack.socket index).localEnd = ⟨stack.interface.address, view.tcp.destinationPort⟩ ∧
      (stack.socket index).remoteEnd = ⟨view.ip.source, view.tcp.sourcePort⟩)

/-- Where a frame goes: to the connection of its tuple, or to the listener of its
port as a request; most frames are for nobody. -/
inductive Delivers (frame : List UInt8) (before after : Stack) : Prop where
  | nothing (rests : Rests before after)
  | request (view : TcpView) (parsed : parseTcp frame before.interface.address = some view)
      (missing : before.sockets.connection
        ⟨before.interface.address, view.tcp.destinationPort⟩
        ⟨view.ip.source, view.tcp.sourcePort⟩ = none)
      (requests : Requests ⟨before.interface.address, view.tcp.destinationPort⟩
        ⟨view.ip.source, view.tcp.sourcePort⟩ before after)
  | connection (view : TcpView) (parsed : parseTcp frame before.interface.address = some view)
      (index : Fin socketCapacity)
      (found : before.sockets.connection
        ⟨before.interface.address, view.tcp.destinationPort⟩
        ⟨view.ip.source, view.tcp.sourcePort⟩ = some index)
      (works : Works index before after)

theorem handle_delivers (driver : Nat → Bool) (valid : ∀ i, Valid (stack.socket i))
    (frame : List UInt8) : Delivers frame stack (handle driver stack frame).2 := by
  simp only [handle]
  split
  · exact .nothing ⟨rfl, rfl, rfl, rfl⟩
  split
  · exact .nothing ⟨rfl, rfl, rfl, rfl⟩
  rw [handleTcp]
  split
  · exact .nothing .refl
  rename_i view parsed
  dsimp only
  split
  next missing =>
    exact .request view parsed missing (handleUnconnected_requests driver valid view _ _)
  next i found =>
    have linked := (connection_some found).1
    exact .connection view parsed i found (.handleConnection (valid i) linked view)

inductive Handles (frame : List UInt8) (before after : Stack) : Prop where
  | nothing (rests : Rests before after)
  | works (index : Fin socketCapacity) (selects : before.Selects frame index)
      (works : Works index before after)
  | opens (listener index : Fin socketCapacity) (localEnd remoteEnd : Endpoint)
      (selects : before.Selects frame index)
      (here : localEnd.address = before.interface.address)
      (missing : before.sockets.connection localEnd remoteEnd = none)
      (opens : Opens listener index localEnd remoteEnd before after)

theorem Delivers.handles {before after : Stack} (delivers : Delivers frame before after)
    (orderly : Orderly before.interface.address before.sockets) : Handles frame before after := by
  cases delivers with
  | nothing rests => exact .nothing rests
  | request view parsed missing requests =>
    cases requests with
    | nothing rests => exact .nothing rests
    | waiting listener i serving backlogged peer works =>
      -- The listener still owns the port under which the connection was made.
      obtain ⟨-, child⟩ := orderly.waiting i listener backlogged
      obtain ⟨-, port, -⟩ := listener_some serving
      rw [port] at child
      have inUse := (orderly.valid i).inUse_of_backlogged backlogged
      exact .works i ⟨view, parsed, .inr ⟨inUse, child, peer⟩⟩ works
    | opens listener i opens =>
      exact .opens listener i _ _ ⟨view, parsed, .inl opens.vacant⟩ rfl missing opens
  | connection view parsed i found works =>
    obtain ⟨linked, localEnd, remoteEnd⟩ := connection_some found
    exact .works i ⟨view, parsed, .inr ⟨ne_free_of_connection linked, localEnd, remoteEnd⟩⟩ works

theorem handle_handles (driver : Nat → Bool)
    (orderly : Orderly stack.interface.address stack.sockets) (frame : List UInt8) :
    Handles frame stack (handle driver stack frame).2 :=
  (handle_delivers driver orderly.valid frame).handles orderly

theorem Handles.orderly {before after : Stack} (handles : Handles frame before after)
    (orderly : Orderly before.interface.address before.sockets) :
    Orderly before.interface.address after.sockets ∧ after.interface = before.interface ∧
      after.initialized = before.initialized := by
  cases handles with
  | nothing rests =>
    exact ⟨by rw [rests.sockets]; exact orderly, rests.interface, rests.initialized⟩
  | works i selects works =>
    have progress := works.progress orderly.valid
    exact ⟨orderly.lasts fun i => .ofOutcome (progress.slots i), works.interface, works.initialized⟩
  | opens listener i localEnd remoteEnd selects here missing opens =>
    exact ⟨orderly.opens opens missing here, opens.interface, opens.initialized⟩

theorem Progress.orderly {before after : Stack} (progress : Progress before after)
    (orderly : Orderly address before.sockets) : Orderly address after.sockets :=
  orderly.lasts fun i => .ofOutcome (progress.slots i)

theorem record_rests (reply : Reply) (stack : Stack) : Rests stack (record reply stack) := by
  cases reply <;> exact ⟨rfl, rfl, rfl, rfl⟩

def receiveFrame (driver : Nat → Bool) (stack : Stack) : Option (List UInt8) → Stack
  | none => stack
  | some bytes => record (handle driver stack bytes).1 (handle driver stack bytes).2

theorem poll_eq (driver : Nat → Bool) (stack : Stack) (now : UInt64) (frame : Option (List UInt8)) :
    stack.poll driver now frame =
      if stack.initialized = false ∨ stack.interface.flags &&& interfaceUp = 0 then stack
      else
        flushRetransmission driver (flushTimers driver
          (receiveFrame driver (flushAcknowledgements driver { stack with now }) frame)) := by
  cases frame <;> rfl

theorem receiveFrame_orderly (driver : Nat → Bool)
    (orderly : Orderly stack.interface.address stack.sockets) (frame : Option (List UInt8)) :
    Orderly stack.interface.address (receiveFrame driver stack frame).sockets ∧
      (receiveFrame driver stack frame).interface = stack.interface := by
  cases frame with
  | none => exact ⟨orderly, rfl⟩
  | some bytes =>
    obtain ⟨kept, same, -⟩ := Handles.orderly (handle_handles driver orderly bytes) orderly
    have noted := record_rests (handle driver stack bytes).1 (handle driver stack bytes).2
    rw [receiveFrame]
    exact ⟨by rw [noted.sockets]; exact kept, noted.interface.trans same⟩

theorem poll_orderly (orderly : Orderly stack.interface.address stack.sockets) (now : UInt64)
    (frame : Option (List UInt8)) :
    Orderly stack.interface.address (stack.poll driver now frame).sockets ∧
      (stack.poll driver now frame).interface = stack.interface := by
  rw [poll_eq]
  split
  · exact ⟨orderly, rfl⟩
  have ticked : Progress stack { stack with now } := .congr orderly.valid rfl rfl rfl
  have ready := ticked.trans (flushAcknowledgements_progress driver ticked.valid)
  generalize flushAcknowledgements driver { stack with now } = acknowledged at ready
  have started := ready.orderly orderly
  rw [← ready.interface] at started ⊢
  obtain ⟨handled, same⟩ := receiveFrame_orderly driver started frame
  have timed := flushTimers_progress driver handled.valid
  have resent := timed.trans (flushRetransmission_progress driver timed.valid)
  exact ⟨resent.orderly handled, resent.interface.trans same⟩

/-- What closing a handle does: nothing that a slot sees, a slot given back, or the
last holder of a connection leaves. -/
theorem socketClose_cases (driver : Nat → Bool) (valid : ∀ i, Valid (stack.socket i))
    (now : UInt64) (handle : SocketHandle) :
    let after := (stack.socketClose driver now handle).2
    after.interface = stack.interface ∧ after.initialized = stack.initialized ∧
      (after.sockets = stack.sockets ∨ after.sockets = (stack.sockets.release handle).2 ∨
        Progress stack after) := by
  simp only [socketClose]
  split
  next i value resolved =>
    obtain ⟨inUse, rfl⟩ := slot_some resolved
    split
    · exact ⟨rfl, rfl, .inr (.inl rfl)⟩
    rename_i unfinished
    split
    next linked =>
      obtain ⟨last, linked, alive, complete⟩ := linked
      have ticked : Progress stack { stack with now } := .congr valid rfl rfl rfl
      have detached : Works i { stack with now } (requestFin driver
          (setSocket { stack with now } i { stack.socket i with detached := true }) i) := by
        refine .detach (valid i) last linked complete alive fun state => ?_
        have flags := (valid i).flags
        rw [FlagsAgree, show (stack.socket i).state = .lastAck from state] at flags
        by_contra acknowledged
        refine unfinished ⟨last, Bool.of_not_eq_false acknowledged, flags.2.1, ?_⟩
        rw [show (stack.sockets.slots i).state = .lastAck from state]
        simp
      have progress := ticked.trans (detached.progress ticked.valid)
      exact ⟨progress.interface, progress.initialized, .inr (.inr progress)⟩
    · split <;> exact ⟨rfl, rfl, .inr (.inl rfl)⟩
  · exact ⟨rfl, rfl, .inl rfl⟩

/-- Every event keeps the table in order while the interface keeps its address. -/
theorem after_orderly (orderly : Orderly address stack.sockets)
    (here : stack.interface.address = address) (event : StackEvent) :
    Orderly address (stack.after driver event).sockets := by
  cases event with
  | start device =>
    simp only [after, initializeStack]
    split
    · exact orderly
    · cases device <;> exact orderly
  | poll now frame =>
    subst here
    exact (poll_orderly orderly now frame).1
  | ioctl request value =>
    simp only [after, ioctl]
    split <;> exact orderly
  | «open» type => exact orderly.open type
  | retain handle => exact orderly.retain handle
  | close now handle =>
    obtain ⟨-, -, same | freed | progress⟩ := socketClose_cases driver orderly.valid now handle
    · rw [after, same]
      exact orderly
    · rw [after, freed]
      exact orderly.release handle
    · exact progress.orderly orderly
  | bind handle localEnd =>
    simp only [after, socketBind]
    split
    · exact orderly
    · exact orderly.bind handle localEnd
  | listen handle backlog => exact orderly.listen handle backlog
  | accept handle => exact orderly.accept handle
  | read now handle size => exact (socketRead_progress orderly.valid now handle size).orderly orderly
  | write now handle input =>
    exact (socketWrite_progress orderly.valid now handle input).orderly orderly
  | shutdown now handle how =>
    exact (socketShutdown_progress orderly.valid now handle how).orderly orderly

/-! ## Runs -/

/-- States that calls and polls lead to while the interface keeps its address. -/
inductive Reachable (driver : Nat → Bool) (address : Ipv4Address) : Stack → Prop where
  | boot (interface : InterfaceState) (here : interface.address = address) :
      Reachable driver address { interface }
  | step {stack : Stack} (reached : Reachable driver address stack) (event : StackEvent)
      (here : (stack.after driver event).interface.address = address) :
      Reachable driver address (stack.after driver event)

namespace Reachable
section
variable (reached : Reachable driver address stack)
include reached

theorem here : stack.interface.address = address := by
  cases reached with
  | boot interface here => exact here
  | step reached event here => exact here

theorem orderly : Orderly address stack.sockets := by
  induction reached with
  | boot interface here => exact .initial address
  | step reached event here ih => exact after_orderly ih reached.here event

theorem foldl (events : List StackEvent) (here : ∀ earlier ∈ events.inits,
      (earlier.foldl (after driver) stack).interface.address = address) :
    Reachable driver address (events.foldl (after driver) stack) := by
  induction events using reverseRecOn with
  | nil => exact reached
  | append_singleton events event ih =>
    have before : Reachable driver address (events.foldl (after driver) stack) := by
      refine ih fun earlier first => here earlier ?_
      rw [mem_inits] at first ⊢
      exact first.trans (prefix_append events [event])
    have last := here (events ++ [event]) ((mem_inits _ _).mpr prefix_rfl)
    rw [foldl_append] at last ⊢
    exact .step before event last

end
end Reachable

/-- A slot of the table matches the address and port of a listener. -/
def Listens (stack : Stack) (endpoint : Endpoint) (index : Fin socketCapacity) : Prop :=
  (stack.socket index).state = .listening ∧
    (stack.socket index).localEnd.port = endpoint.port ∧
    (unspecified (stack.socket index).localEnd.address = true ∨
      (stack.socket index).localEnd.address = endpoint.address)

/-- A slot of the table matches the tuple of a connection. -/
def Connects (stack : Stack) (localEnd remoteEnd : Endpoint)
    (index : Fin socketCapacity) : Prop :=
  isConnection (stack.socket index).state = true ∧
    (stack.socket index).localEnd = localEnd ∧ (stack.socket index).remoteEnd = remoteEnd

/-- The flows of a stack are apart. -/
structure Isolated (driver : Nat → Bool) (stack : Stack) : Prop where
  /-- A frame of a poll changes no slot, no queued and no stored segment other than
  those of one slot, which the frame selects. -/
  frames : ∀ now frame,
    let ready := flushAcknowledgements driver { stack with now }
    let after := (handle driver ready frame).2
    ∃ touched : Option (Fin socketCapacity), (∀ index ∈ touched, ready.Selects frame index) ∧
      ∀ index ∉ touched,
        after.socket index = ready.socket index ∧
        after.pendingAt index = ready.pendingAt index ∧
        after.sockets.storedAt index = ready.sockets.storedAt index
  connections : ∀ localEnd remoteEnd left right, stack.Connects localEnd remoteEnd left →
    stack.Connects localEnd remoteEnd right → left = right
  listeners : ∀ endpoint left right, stack.Listens endpoint left →
    stack.Listens endpoint right → left = right
  backlog : ∀ listener, stack.sockets.pending (some listener) ≤ 4

theorem Spares.untouched {before after : Stack} (spares : Spares i before after)
    (j : Fin socketCapacity) (different : j ∉ some i) :
    after.socket j = before.socket j ∧ after.pendingAt j = before.pendingAt j ∧
      after.sockets.storedAt j = before.sockets.storedAt j := by
  have apart : j ≠ i := fun same => different (by rw [same]; rfl)
  exact ⟨spares.sockets j apart, spares.queued j apart, spares.stored j apart⟩

/-- Whatever a frame does, it does to one slot that it selects. -/
theorem Handles.touched {before after : Stack} (handles : Handles frame before after) :
    ∃ touched : Option (Fin socketCapacity), (∀ i ∈ touched, before.Selects frame i) ∧
      ∀ i ∉ touched, after.socket i = before.socket i ∧ after.pendingAt i = before.pendingAt i ∧
        after.sockets.storedAt i = before.sockets.storedAt i := by
  cases handles with
  | nothing rests =>
    refine ⟨none, fun _ none => (by cases none), fun i _ => ⟨?_, ?_, ?_⟩⟩
    · rw [socket, rests.sockets]
      rfl
    · funext place
      simp only [pendingAt, rests.transmissions]
    · rw [rests.sockets]
  | works i selects works =>
    refine ⟨some i, fun chosen same => ?_, works.toSpares.untouched⟩
    cases same
    exact selects
  | opens listener i localEnd remoteEnd selects here missing opens =>
    refine ⟨some i, fun chosen same => ?_, opens.toSpares.untouched⟩
    cases same
    exact selects

theorem Listens.overlaps (one : stack.Listens endpoint left) (two : stack.Listens endpoint right) :
    Overlaps (stack.socket left).localEnd (stack.socket right).localEnd := by
  obtain ⟨-, onePort, oneAddress⟩ := one
  obtain ⟨-, twoPort, twoAddress⟩ := two
  refine ⟨onePort.trans twoPort.symm, ?_⟩
  rcases oneAddress with any | oneAddress
  · exact .inl any
  · rcases twoAddress with any | twoAddress
    · exact .inr (.inl any)
    · exact .inr (.inr (oneAddress.trans twoAddress.symm))

theorem Listens.named (listens : stack.Listens endpoint i) :
    isNamed (stack.socket i).state = true := by
  rw [listens.1]
  rfl

/-- While the interface keeps its address, the flows of the stack are apart in
every state that calls and polls lead to. -/
theorem flows_isolated (driver : Nat → Bool) (address : Ipv4Address) (stack : Stack)
    (reached : Reachable driver address stack) : Isolated driver stack := by
  have orderly := reached.orderly
  constructor
  case frames =>
    intro now frame
    have ticked : Progress stack { stack with now } := .congr orderly.valid rfl rfl rfl
    have ready := ticked.trans (flushAcknowledgements_progress driver ticked.valid)
    generalize flushAcknowledgements driver { stack with now } = acknowledged at ready ⊢
    have started := ready.orderly orderly
    rw [← reached.here, ← ready.interface] at started
    exact (handle_handles driver started frame).touched
  case connections =>
    rintro localEnd remoteEnd left right ⟨one, rfl, rfl⟩ ⟨two, localSame, remoteSame⟩
    exact orderly.connections left right ⟨one, two, localSame.symm, remoteSame.symm⟩
  case listeners =>
    intro endpoint left right one two
    exact orderly.ports left right ⟨one.named, two.named, one.overlaps two⟩
  case backlog => exact orderly.pending

/-- A server with a listener on port 80 that a peer connects to. -/
theorem flows_isolated_connecting :
    Isolated (fun _ => true)
      ((StackEvent.start (some {}) :: listening ++ connecting 0x4d494b50).foldl
        (after (fun _ => true)) {}) := by
  refine flows_isolated (fun _ => true) ⟨#v[10, 0, 2, 15]⟩ _ (.foldl (.boot {} rfl) _ ?_)
  decide +kernel

end Stack
end Mikos.Network
