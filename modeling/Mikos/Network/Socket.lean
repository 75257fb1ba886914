import Mikos.Library.Serial
import Mikos.Network.Basic

/-!
# The socket table

Thirteen socket slots and sixteen reassembly slots shared by all of them.  A
slot is reached through a handle; every operation first resolves its handle to
a slot that is not free.  Received segments are appended to the slot's buffer
when they continue the stream, and stored for reassembly when they lie ahead of
it but inside the receive window.
-/

namespace Mikos.Network
open Library Function

def socketCapacity : Nat := 13

instance : NeZero socketCapacity := ⟨by decide⟩

def socketReceiveCapacity : Nat := 4096

def listenBacklogCapacity : UInt32 := 4

def reassemblyCapacity : Nat := 16

def reassemblySegmentCapacity : Nat := 1500

/-- An internal socket identity.  Only the table makes handles of slots; the
default handle is the invalid one. -/
abbrev SocketHandle := Option (Fin socketCapacity)

def invalidSocket : SocketHandle := none

inductive SocketState where
  | free | control | created | bound | listening | synReceived | established
  | closeWait | finWait1 | finWait2 | closing | lastAck | timeWait | closed
  | reset
  deriving DecidableEq, Repr

inductive SocketResult where
  | success | badHandle | wrongType | invalidArgument | addressInUse | notBound
  | notListening | wouldBlock | notConnected | noSpace | reset | endOfFile
  | timedOut
  deriving DecidableEq, Repr

inductive SocketType where
  | stream | datagram
  deriving DecidableEq, Repr

/-- States of a slot that holds one side of a connection. -/
def isConnection : SocketState → Bool
  | .synReceived | .established | .closeWait | .finWait1 | .finWait2
  | .closing | .lastAck | .timeWait | .reset => true
  | _ => false

structure FlowControl where
  peerWindow : UInt32 := 65535
  congestionWindow : UInt32 := 4 * 536
  slowStartThreshold : UInt32 := 65535
  congestionCredit : UInt32 := 0
  duplicateAcks : UInt8 := 0
  fastRecovery : Bool := false
  windowSequence : UInt32 := 0
  windowAcknowledgement : UInt32 := 0
  peerMss : UInt16 := 536
  peerScale : UInt8 := 0
  scaleNegotiated : Bool := false
  persistWaiting : Bool := false
  deriving DecidableEq, Repr

/-- Timers of a connection and its round-trip estimate. -/
structure Timers where
  openedAt : UInt64 := 0
  progressAt : UInt64 := 0
  controlRetryAt : UInt64 := 0
  controlDelay : UInt64 := tcpInitialRto
  persistRetryAt : UInt64 := 0
  persistDelay : UInt64 := tcpInitialRto
  stateSince : UInt64 := 0
  rto : UInt64 := tcpInitialRto
  smoothedRtt : UInt64 := 0
  rttVariance : UInt64 := 0
  rttMeasured : Bool := false
  deriving DecidableEq, Repr

/-- One slot of the table, with the default values of a free slot.  The fields
of the source are grouped: flow control and timers stand in records of their
own. -/
structure SocketSlot where
  state : SocketState := .free
  type : SocketType := .datagram
  localEnd : Endpoint := {}
  remoteEnd : Endpoint := {}
  remoteMac : MacAddress := {}
  sendNext : UInt32 := 0
  sendUnacknowledged : UInt32 := 0
  receiveNext : UInt32 := 0
  receiveBuffer : List UInt8 := []
  receiveClosed : Bool := false
  readClosed : Bool := false
  sendClosed : Bool := false
  finSent : Bool := false
  finAcked : Bool := false
  activeClose : Bool := false
  detached : Bool := false
  accepted : Bool := false
  references : UInt16 := 0
  listener : SocketHandle := invalidSocket
  backlog : UInt8 := 0
  acknowledgementRetries : UInt8 := 0
  failure : SocketResult := .reset
  flow : FlowControl := {}
  timers : Timers := {}
  deriving DecidableEq, Repr

structure OpenResult where
  result : SocketResult := .noSpace
  handle : SocketHandle := invalidSocket
  deriving DecidableEq, Repr

structure AcceptResult where
  result : SocketResult := .wouldBlock
  handle : SocketHandle := invalidSocket
  peer : Endpoint := {}
  deriving DecidableEq, Repr

structure ReadResult where
  result : SocketResult := .wouldBlock
  size : Nat := 0
  deriving DecidableEq, Repr

structure ReassemblyKey where
  handle : SocketHandle := invalidSocket
  sequence : UInt32 := 0
  deriving DecidableEq, Repr

structure ReassemblySegment where
  finish : Bool := false
  data : List UInt8 := []
  deriving DecidableEq, Repr

/-- The table: its slots and the shared reassembly store. -/
structure SocketTable where
  slots : Fin socketCapacity → SocketSlot := fun _ => {}
  reassembly : Fin reassemblyCapacity → Option (ReassemblyKey × ReassemblySegment) :=
    fun _ => none

namespace SocketTable
variable (table : SocketTable) (handle : SocketHandle)

/-- Resolve a handle to its slot; free slots and the invalid handle have none. -/
def slot : Option SocketSlot :=
  match handle with
  | none => none
  | some index =>
    if (table.slots index).state = .free then none else some (table.slots index)

/-- Store back the slot of a handle. -/
def setSlot (index : Fin socketCapacity) (value : SocketSlot) : SocketTable :=
  { table with slots := update table.slots index value }

/-- First free slot. -/
def allocate : SocketHandle :=
  (List.finRange socketCapacity).find? fun index => (table.slots index).state = .free

/-- Drop every stored segment of a handle. -/
def clearReassembly : SocketTable :=
  { table with
    reassembly := fun position =>
      match table.reassembly position with
      | some (key, segment) => if key.handle = handle then none else some (key, segment)
      | none => none }

def «open» (type : SocketType) : OpenResult × SocketTable :=
  match table.allocate with
  | none => ({}, table)
  | some index =>
    let value :=
      { table.slots index with
        type
        state := if type = .datagram then .control else .created
        references := 1 }
    (⟨.success, some index⟩, table.setSlot index value)

def retain : SocketResult × SocketTable :=
  match handle, table.slot handle with
  | some index, some value =>
    if value.references = 0xffff then
      (.badHandle, table)
    else
      (.success, table.setSlot index { value with references := value.references + 1 })
  | _, _ => (.badHandle, table)

/-- Connections of a listener that no `accept` has handed out yet. -/
def backlogged (index : Fin socketCapacity) : Bool :=
  (table.slots index).listener = handle && !(table.slots index).accepted

/-- Free all connections of a listener that were never accepted, together with
their stored segments. -/
def dropBacklog : SocketTable where
  slots index := if table.backlogged handle index then {} else table.slots index
  reassembly position :=
    match table.reassembly position with
    | some (key, segment) =>
      if key.handle.any (table.backlogged handle) then none else some (key, segment)
    | none => none

def release : SocketResult × SocketTable :=
  match handle, table.slot handle with
  | some index, some value =>
    if value.references = 0 then
      (.badHandle, table)
    else if value.references - 1 ≠ 0 then
      (.success, table.setSlot index { value with references := value.references - 1 })
    else
      let emptied :=
        if value.state = .listening then table.dropBacklog handle else table
      (.success, (emptied.clearReassembly handle).setSlot index {})
  | _, _ => (.badHandle, table)

/-- A bound port collides with another stream socket on an overlapping address. -/
def portConflicts (excluded : SocketHandle) (endpoint : Endpoint) : Bool :=
  (List.finRange socketCapacity).any fun index =>
    let value := table.slots index
    some index ≠ excluded && value.type = .stream && value.state ≠ .free &&
      value.state ≠ .control && value.localEnd.port = endpoint.port &&
      (unspecified value.localEnd.address || unspecified endpoint.address ||
        value.localEnd.address = endpoint.address)

/-- First ephemeral port free for an address, or zero. -/
def allocateEphemeralPort (address : Ipv4Address) : UInt16 :=
  match (List.range' 49152 16384).find? fun port =>
      !table.portConflicts invalidSocket ⟨address, UInt16.ofNat port⟩ with
  | some port => UInt16.ofNat port
  | none => 0

def bind (endpoint : Endpoint) : SocketResult × SocketTable :=
  match handle, table.slot handle with
  | some index, some value =>
    if value.type ≠ .stream then
      (.wrongType, table)
    else if value.state ≠ .created then
      (.invalidArgument, table)
    else
      let port :=
        if endpoint.port = 0 then table.allocateEphemeralPort endpoint.address
        else endpoint.port
      if port = 0 then
        (.noSpace, table)
      else if table.portConflicts handle { endpoint with port } then
        (.addressInUse, table)
      else
        (.success, table.setSlot index
          { value with localEnd := { endpoint with port }, state := .bound })
  | _, _ => (.badHandle, table)

def listen (backlog : UInt32) : SocketResult × SocketTable :=
  match handle, table.slot handle with
  | some index, some value =>
    if value.type ≠ .stream then
      (.wrongType, table)
    else if value.state ≠ .bound ∧ value.state ≠ .listening then
      (.notBound, table)
    else
      (.success, table.setSlot index
        { value with
          backlog := (max 1 (min backlog listenBacklogCapacity)).toUInt8
          state := .listening })
  | _, _ => (.badHandle, table)

def listener (endpoint : Endpoint) : SocketHandle :=
  (List.finRange socketCapacity).find? fun index =>
    let value := table.slots index
    value.state = .listening && value.localEnd.port = endpoint.port &&
      (unspecified value.localEnd.address || value.localEnd.address = endpoint.address)

/-- The connection slot of an address and port tuple. -/
def connection (localEnd remoteEnd : Endpoint) : SocketHandle :=
  (List.finRange socketCapacity).find? fun index =>
    let value := table.slots index
    isConnection value.state && value.localEnd = localEnd && value.remoteEnd = remoteEnd

/-- Number of connections of a listener that wait for `accept`. -/
def pending : Nat :=
  (List.finRange socketCapacity).countP (table.backlogged handle)

def beginConnection (listenerHandle : SocketHandle) (localEnd remoteEnd : Endpoint)
    (remoteMac : MacAddress) (remoteSequence localSequence : UInt32) : OpenResult × SocketTable :=
  match table.slot listenerHandle with
  | none => (⟨.notListening, invalidSocket⟩, table)
  | some listening =>
    if listening.state ≠ .listening then
      (⟨.notListening, invalidSocket⟩, table)
    else
      match (List.finRange socketCapacity).find? fun index =>
          table.backlogged listenerHandle index &&
            (table.slots index).remoteEnd = remoteEnd with
      | some index => (⟨.success, some index⟩, table)
      | none =>
        if listening.backlog.toNat ≤ table.pending listenerHandle then
          (⟨.noSpace, invalidSocket⟩, table)
        else
          match table.allocate with
          | none => ({}, table)
          | some index =>
            let value :=
              { table.slots index with
                state := .synReceived
                type := .stream
                localEnd
                remoteEnd
                remoteMac
                sendNext := localSequence + 1
                sendUnacknowledged := localSequence
                flow.windowSequence := remoteSequence
                flow.windowAcknowledgement := localSequence
                receiveNext := remoteSequence + 1
                references := 1
                listener := listenerHandle }
            (⟨.success, some index⟩, table.setSlot index value)

def establish (acknowledgement : UInt32) : SocketResult × SocketTable :=
  match handle, table.slot handle with
  | some index, some value =>
    if value.state = .established ∨ value.state = .closeWait then
      (.success, table)
    else if value.state ≠ .synReceived ∨ acknowledgement ≠ value.sendNext then
      (.invalidArgument, table)
    else
      (.success, table.setSlot index
        { value with state := .established, sendUnacknowledged := acknowledgement })
  | _, _ => (.badHandle, table)

/-- A connection that `accept` may hand out, or that makes its listener readable. -/
def acceptable (index : Fin socketCapacity) : Bool :=
  table.backlogged handle index &&
    ((table.slots index).state = .established || (table.slots index).state = .closeWait ||
      (table.slots index).state = .reset)

def accept : AcceptResult × SocketTable :=
  match table.slot handle with
  | none => ({ result := .badHandle }, table)
  | some listening =>
    if listening.state ≠ .listening then
      ({ result := .notListening }, table)
    else
      match (List.finRange socketCapacity).find? (table.acceptable handle) with
      | none => ({ result := .wouldBlock }, table)
      | some index =>
        (⟨.success, some index, (table.slots index).remoteEnd⟩,
          table.setSlot index { table.slots index with accepted := true })

/-! ## The receive side -/

/-- The state after the peer's end of stream was received. -/
def finishedState : SocketState → SocketState
  | .finWait1 => .closing
  | .finWait2 => .timeWait
  | _ => .closeWait

/-- Take as much of a segment as the buffer holds; the peer's end of stream
counts only when all of the segment was taken. -/
def appendReceived (value : SocketSlot) (data : List UInt8) (finish : Bool) :
    ReadResult × SocketSlot :=
  let accepted := min data.length (socketReceiveCapacity - value.receiveBuffer.length)
  let stored :=
    { value with
      receiveBuffer := value.receiveBuffer ++ data.take accepted
      receiveNext := value.receiveNext + UInt32.ofNat accepted }
  if finish ∧ accepted = data.length then
    (⟨.success, accepted⟩,
      { stored with
        receiveNext := stored.receiveNext + 1
        receiveClosed := true
        state := finishedState stored.state })
  else
    (⟨.success, accepted⟩, stored)

def storeReassembly (sequence : UInt32) (data : List UInt8) (finish : Bool) :
    SocketResult × SocketTable :=
  if reassemblySegmentCapacity < data.length then
    (.noSpace, table)
  else if (List.finRange reassemblyCapacity).any fun position =>
      (table.reassembly position).any fun stored => stored.1 = ⟨handle, sequence⟩ then
    (.success, table)
  else
    match (List.finRange reassemblyCapacity).find? fun position =>
        (table.reassembly position).isNone with
    | none => (.noSpace, table)
    | some position =>
      (.success,
        { table with
          reassembly := update table.reassembly position
            (some (⟨handle, sequence⟩, ⟨finish, data⟩)) })

/-- One step of the scan in `drainReassembly`: prefer the closest stored segment
that starts at or before the next expected byte. -/
def preferQueued (receiveNext : UInt32) (selected : Option (Fin reassemblyCapacity))
    (position : Fin reassemblyCapacity) : Option (Fin reassemblyCapacity) :=
  match table.reassembly position with
  | none => selected
  | some (key, _) =>
    if key.handle ≠ handle ∨ 0 < serialDistance key.sequence receiveNext then
      selected
    else
      match selected with
      | none => some position
      | some best =>
        match table.reassembly best with
        | none => some position
        | some (bestKey, _) =>
          if 0 < serialDistance key.sequence bestKey.sequence then some position
          else selected

def selectQueued (receiveNext : UInt32) : Option (Fin reassemblyCapacity) :=
  (List.finRange reassemblyCapacity).foldl
    (table.preferQueued handle receiveNext) none

/-- Empty one reassembly slot. -/
def dropQueued (position : Fin reassemblyCapacity) : SocketTable :=
  { table with reassembly := update table.reassembly position none }

/-- Move stored segments that have become in order into the buffer.  Every
iteration but the last empties one reassembly slot, so a bound of one more than
their number is never reached. -/
def drainLoop : Nat → SocketTable → Fin socketCapacity → Nat → ReadResult × SocketTable
  | 0, table, _, total => (⟨.success, total⟩, table)
  | fuel + 1, table, index, total =>
    let value := table.slots index
    if value.receiveClosed then
      (⟨.success, total⟩, table.clearReassembly (some index))
    else
      match table.selectQueued (some index) value.receiveNext with
      | none => (⟨.success, total⟩, table)
      | some position =>
        match table.reassembly position with
        | none => (⟨.success, total⟩, table)
        | some (key, queued) =>
          let acknowledged := (value.receiveNext - key.sequence).toNat
          if queued.data.length < acknowledged ∨
              (acknowledged = queued.data.length ∧ queued.finish = false) then
            drainLoop fuel (table.dropQueued position) index total
          else if socketReceiveCapacity - value.receiveBuffer.length <
              queued.data.length - acknowledged then
            (⟨.success, total⟩, table)
          else
            let appended := appendReceived value (queued.data.drop acknowledged) queued.finish
            let taken := (table.setSlot index appended.2).dropQueued position
            if appended.1.result ≠ .success ∨
                appended.1.size ≠ queued.data.length - acknowledged then
              (⟨appended.1.result, total + appended.1.size⟩, taken)
            else
              drainLoop fuel taken index (total + appended.1.size)

def drainReassembly (index : Fin socketCapacity) : ReadResult × SocketTable :=
  drainLoop (reassemblyCapacity + 1) table index 0

/-- Accept an in-window segment: trim what was already received and what lies
beyond the right edge, then append or store the rest. -/
def receiveTrimmed (index : Fin socketCapacity) (value : SocketSlot) (sequence : UInt32)
    (data : List UInt8) (finish : Bool) (distance : Nat) : ReadResult × SocketTable :=
  let window := socketReceiveCapacity - value.receiveBuffer.length
  if window ≤ distance ∧ (data ≠ [] ∨ finish) then
    (⟨.success, 0⟩, table)
  else
    -- An empty segment may lie beyond the window; the 32-bit difference wraps.
    let available := (window + 2 ^ 32 - distance) % 2 ^ 32
    let finishing := finish && decide (data.length < available)
    let fitting := data.take (min data.length available)
    if 0 < distance then
      if fitting = [] ∧ finishing = false then
        (⟨.success, 0⟩, table)
      else
        let stored := table.storeReassembly (some index) sequence fitting finishing
        (⟨stored.1, 0⟩, stored.2)
    else
      let immediate := appendReceived value fitting finishing
      let appended := table.setSlot index immediate.2
      if immediate.1.result ≠ .success ∨ immediate.1.size ≠ fitting.length then
        (immediate.1, appended)
      else
        let drained := appended.drainReassembly index
        (⟨drained.1.result, immediate.1.size + drained.1.size⟩, drained.2)

def receive (sequence : UInt32) (data : List UInt8) (finish : Bool) : ReadResult × SocketTable :=
  match handle, table.slot handle with
  | some index, some value =>
    if value.state = .reset then
      (⟨.reset, 0⟩, table)
    else if isConnection value.state = false ∨ value.state = .synReceived then
      (⟨.notConnected, 0⟩, table)
    else if value.receiveClosed then
      (⟨.success, 0⟩, table)
    else
      let distance := serialDistance sequence value.receiveNext
      if distance < 0 then
        -- A retransmission whose prefix was acknowledged keeps its unseen tail.
        let acknowledged := (value.receiveNext - sequence).toNat
        if data.length < acknowledged ∨
            (acknowledged = data.length ∧ finish = false) then
          (⟨.success, 0⟩, table)
        else
          table.receiveTrimmed index value (sequence + UInt32.ofNat acknowledged)
            (data.drop acknowledged) finish 0
      else
        table.receiveTrimmed index value sequence data finish distance.toNat
  | _, _ => (⟨.badHandle, 0⟩, table)

/-- Take up to `size` bytes off the receive buffer; the bytes are returned
beside the result. -/
def read (size : Nat) : (ReadResult × List UInt8) × SocketTable :=
  match handle, table.slot handle with
  | some index, some value =>
    if value.readClosed then
      ((⟨.endOfFile, 0⟩, []), table)
    else if value.receiveBuffer = [] then
      let result :=
        if value.receiveClosed then .endOfFile
        else if value.state = .reset then value.failure
        else if isConnection value.state = false ∨ value.state = .synReceived then
          .notConnected
        else .wouldBlock
      ((⟨result, 0⟩, []), table)
    else
      let count := min size value.receiveBuffer.length
      let consumed :=
        table.setSlot index
          { value with receiveBuffer := value.receiveBuffer.drop count }
      ((⟨.success, count⟩, value.receiveBuffer.take count), (consumed.drainReassembly index).2)
  | _, _ => ((⟨.badHandle, 0⟩, []), table)

def reset (failure : SocketResult := .reset) : SocketTable :=
  match handle, table.slot handle with
  | some index, some value =>
    -- An aborted handshake has no owner: its backlog entry is freed.
    if value.state = .synReceived then
      (table.release handle).2
    else
      (table.clearReassembly handle).setSlot index
        { value with
          receiveBuffer := []
          state := .reset
          failure
          receiveClosed := false
          flow.persistWaiting := false }
  | _, _ => table

/-- A read would not block. -/
def readable : Bool :=
  match table.slot handle with
  | none => false
  | some value =>
    if value.state = .listening then
      (List.finRange socketCapacity).any (table.acceptable handle)
    else
      value.receiveBuffer ≠ [] || value.receiveClosed || value.readClosed ||
        value.state = .reset

/-- The slot is in a state that takes application data. -/
def writable : Bool :=
  match table.slot handle with
  | none => false
  | some value =>
    (value.state = .established || value.state = .closeWait) && !value.sendClosed

end SocketTable
end Mikos.Network
