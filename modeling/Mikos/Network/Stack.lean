import Mikos.Network.Interface
import Mikos.Network.Socket

/-!
# The network stack

One stack owns the interface, the socket table and sixteen transmission slots
with the unacknowledged segments of all connections.  Whether the driver takes a
frame is decided by a parameter `driver`, which answers the `n`-th transmit call;
every frame handed to it is kept in `transmitted`, oldest first, together with
the answer.  A reference to a socket is the index of its slot.
-/

namespace Mikos.Network
open Library Function

def transmitCapacity : Nat := 16

instance : NeZero transmitCapacity := ⟨by decide⟩

def transmitSegmentCapacity : Nat := 1024

def transmitBufferSize : Nat := 1536

structure TransmitKey where
  handle : SocketHandle := invalidSocket
  sequence : UInt32 := 0
  deriving DecidableEq, Repr

structure TransmitSegment where
  retryAt : UInt64 := 0
  delay : UInt64 := tcpInitialRto
  firstSent : UInt64 := 0
  fastRetry : Bool := false
  flags : UInt8 := 0
  attempts : UInt8 := 0
  data : List UInt8 := []
  deriving DecidableEq, Repr

/-- A segment as it is handed to the driver.  `owner` names the slot whose
socket is sending; the answer to a stray segment has none. -/
structure Segment where
  owner : SocketHandle
  socket : SocketSlot
  mac : MacAddress
  identification : UInt16
  flags : UInt8
  payload : List UInt8
  sequence : UInt32
  deriving DecidableEq, Repr

/-- Options of a segment: a synchronising segment offers the largest segment
size, and the window scale when the peer offered one. -/
def segmentOptions (socket : SocketSlot) (flags : UInt8) : List UInt8 :=
  if flags &&& tcpSyn ≠ 0 then
    ([2, 4, 0x05, 0xb4, 1, 3, 3, 0] : List UInt8).take
      (if socket.flow.scaleNegotiated then 8 else 4)
  else []

namespace Segment

def options (segment : Segment) : List UInt8 :=
  segmentOptions segment.socket segment.flags

def ethernetHeader (segment : Segment) : EthernetHeader where
  destination := segment.socket.remoteMac
  source := segment.mac
  type := 0x0800

/-- The internet header with a zero checksum field. -/
def ipv4Header (segment : Segment) : Ipv4Header where
  versionIhl := 0x45
  dscpEcn := 0
  totalLength := UInt16.ofNat
    (ipv4HeaderSize + (tcpHeaderSize + segment.options.length) + segment.payload.length)
  identification := segment.identification
  flagsFragment := 0
  ttl := 64
  protocol := 6
  checksum := 0
  source := segment.socket.localEnd.address
  destination := segment.socket.remoteEnd.address

/-- The transport header with a zero checksum field. -/
def tcpHeader (segment : Segment) : TcpHeader where
  sourcePort := segment.socket.localEnd.port
  destinationPort := segment.socket.remoteEnd.port
  sequence := segment.sequence
  acknowledgement := segment.socket.receiveNext
  dataOffset := UInt8.ofNat ((tcpHeaderSize + segment.options.length) / 4) <<< 4
  flags := segment.flags
  window :=
    if segment.flags &&& tcpRst ≠ 0 then 0
    else UInt16.ofNat (socketReceiveCapacity - segment.socket.receiveBuffer.length)
  checksum := 0
  urgent := 0

/-- The bytes on the wire. -/
def frame (segment : Segment) : List UInt8 :=
  let ip := segment.ipv4Header
  let tcp := segment.tcpHeader
  let body := segment.options ++ segment.payload
  encodeEthernet segment.ethernetHeader ++
    encodeIpv4 { ip with checksum := internetChecksum (encodeIpv4 ip) } ++
    encodeTcp
      { tcp with
        checksum := tcpChecksum segment.socket.localEnd.address
          segment.socket.remoteEnd.address (encodeTcp tcp ++ body) } ++
    body

end Segment

/-- One call of the driver and its answer. -/
inductive Transmission where
  | reply (bytes : List UInt8) (accepted : Bool)
  | segment (value : Segment) (accepted : Bool)
  deriving DecidableEq, Repr

inductive Reply where
  | none | arp | echo
  deriving DecidableEq, Repr

structure Stack where
  interface : InterfaceState := {}
  sockets : SocketTable := {}
  transmissions : Fin transmitCapacity → Option (TransmitKey × TransmitSegment) :=
    fun _ => none
  nextSequence : UInt32 := 0x4d494b4f
  nextIdentification : UInt16 := 1
  now : UInt64 := 0
  challengeEpoch : UInt64 := 0
  challenges : UInt32 := 0
  retryCursor : Nat := 0
  initialized : Bool := false
  arpReplied : Bool := false
  echoReplied : Bool := false
  transmitted : List Transmission := []

namespace Stack
variable (driver : Nat → Bool) (stack : Stack) (index : Fin socketCapacity)

def socket : SocketSlot :=
  stack.sockets.slots index

/-- Store back a socket. -/
def setSocket (value : SocketSlot) : Stack :=
  { stack with sockets := stack.sockets.setSlot index value }

/-- Hand a frame to the driver. -/
def transmit (record : Bool → Transmission) : Bool × Stack :=
  let accepted := driver stack.transmitted.length
  (accepted, { stack with transmitted := stack.transmitted ++ [record accepted] })

def sendSegment (owner : SocketHandle) (socket : SocketSlot) (flags : UInt8) (payload : List UInt8)
    (sequence : UInt32) : Bool × Stack :=
  let headers := ethernetHeaderSize + ipv4HeaderSize +
    (tcpHeaderSize + (segmentOptions socket flags).length)
  if transmitBufferSize - headers < payload.length then
    (false, stack)
  else
    transmit driver { stack with nextIdentification := stack.nextIdentification + 1 }
      (.segment ⟨owner, socket, stack.interface.mac, stack.nextIdentification, flags,
        payload, sequence⟩)

/-! ## Queued data -/

def queueTransmission (flags : UInt8) (payload : List UInt8) (sequence : UInt32) : Bool × Stack :=
  let key : TransmitKey := ⟨some index, sequence⟩
  if transmitSegmentCapacity < payload.length ∨
      (List.finRange transmitCapacity).any fun position =>
        (stack.transmissions position).any fun stored => stored.1 = key then
    (false, stack)
  else
    match (List.finRange transmitCapacity).find? fun position =>
        (stack.transmissions position).isNone with
    | none => (false, stack)
    | some position =>
      let socket := stack.socket index
      let sent := sendSegment driver stack (some index) socket flags payload sequence
      if sent.1 then
        let pending : TransmitSegment :=
          { flags
            attempts := 1
            firstSent := stack.now
            delay := socket.timers.rto
            retryAt := stack.now + socket.timers.rto
            data := payload }
        (true,
          { sent.2 with
            transmissions := update stack.transmissions position (some (key, pending)) })
      else
        (false, sent.2)

def sendSpace (socket : SocketSlot) : UInt32 :=
  let flight := socket.sendNext - socket.sendUnacknowledged
  let limit := min socket.flow.peerWindow socket.flow.congestionWindow
  if flight < limit then limit - flight else 0

/-- The congestion window after an acknowledgement of new bytes. -/
def congestionAcknowledged (flow : FlowControl) (newlyAcked : UInt32) : FlowControl :=
  let mss := flow.peerMss.toUInt32
  let grown : FlowControl :=
    if flow.fastRecovery then
      { flow with
        duplicateAcks := 0
        congestionWindow := flow.slowStartThreshold
        fastRecovery := false }
    else if flow.congestionWindow < flow.slowStartThreshold then
      { flow with
        duplicateAcks := 0
        congestionWindow := flow.congestionWindow + min newlyAcked mss }
    else
      let credit := flow.congestionCredit + newlyAcked
      if flow.congestionWindow ≤ credit then
        { flow with
          duplicateAcks := 0
          congestionCredit := credit - flow.congestionWindow
          congestionWindow := flow.congestionWindow + mss }
      else
        { flow with duplicateAcks := 0, congestionCredit := credit }
  { grown with
    congestionWindow := min grown.congestionWindow
      (UInt32.ofNat (transmitCapacity * transmitSegmentCapacity)) }

def updateRtt (timers : Timers) (sample : UInt64) : Timers :=
  let measured : Timers :=
    if timers.rttMeasured = false then
      { timers with smoothedRtt := sample, rttVariance := sample / 2, rttMeasured := true }
    else
      let error :=
        if sample < timers.smoothedRtt then timers.smoothedRtt - sample
        else sample - timers.smoothedRtt
      { timers with
        rttVariance := (3 * timers.rttVariance + error) / 4
        smoothedRtt := (7 * timers.smoothedRtt + sample) / 8 }
  { measured with
    rto := max tcpInitialRto
      (min (measured.smoothedRtt + max 1 (4 * measured.rttVariance)) tcpMaxRto) }

/-- What is left of a queued segment after an acknowledgement. -/
def acknowledgePending (ack : UInt32) (entry : TransmitKey × TransmitSegment) :
    Option (TransmitKey × TransmitSegment) :=
  if serialDistance ack entry.1.sequence ≤ 0 then
    some entry
  else
    let acknowledged := (ack - entry.1.sequence).toNat
    if entry.2.data.length ≤ acknowledged then
      none
    else
      some ({ entry.1 with sequence := ack },
        { entry.2 with data := entry.2.data.drop acknowledged })

/-- The queued segment of a connection at a position. -/
def pendingAt (position : Fin transmitCapacity) : Option (TransmitKey × TransmitSegment) :=
  (stack.transmissions position).filter fun entry => entry.1.handle = some index

/-- The round-trip sample of an acknowledgement: the first segment it covers, as
long as nothing of the connection was retransmitted. -/
def rttSample (ack : UInt32) : Option UInt64 :=
  if (List.finRange transmitCapacity).any fun position =>
      (stack.pendingAt index position).any fun entry => 1 < entry.2.attempts then
    none
  else
    (List.finRange transmitCapacity).findSome? fun position =>
      (stack.pendingAt index position).bind fun entry =>
        if (acknowledgePending ack entry).isNone then some (stack.now - entry.2.firstSent)
        else none

/-- The timers of a connection with the sample of an acknowledgement, if any. -/
def sampledTimers (ack : UInt32) : Timers :=
  match stack.rttSample index ack with
  | some sample => updateRtt (stack.socket index).timers sample
  | none => (stack.socket index).timers

/-- Trim a queued segment of a connection and restart its timer. -/
def acknowledgeEntry (ack : UInt32) (delay retryAt : UInt64) (entry : TransmitKey × TransmitSegment)
    : Option (TransmitKey × TransmitSegment) :=
  if entry.1.handle = some index then
    (acknowledgePending ack entry).map fun kept => (kept.1, { kept.2 with delay, retryAt })
  else
    some entry

def acknowledgeTransmissions (ack : UInt32) : Stack :=
  let socket := stack.socket index
  if serialDistance ack socket.sendUnacknowledged ≤ 0 then
    stack
  else
    let timers := stack.sampledTimers index ack
    { stack.setSocket index
        { socket with
          flow := congestionAcknowledged socket.flow (ack - socket.sendUnacknowledged)
          timers := { timers with progressAt := stack.now }
          sendUnacknowledged := ack } with
      transmissions := fun position =>
        (stack.transmissions position).bind
          (acknowledgeEntry index ack timers.rto (stack.now + timers.rto)) }

def clearTransmissions (handle : SocketHandle) : Stack :=
  { stack with
    transmissions := fun position =>
      (stack.transmissions position).filter fun entry => entry.1.handle ≠ handle }

/-! ## Ending a connection -/

/-- Free a slot, without looking at the result. -/
def release (handle : SocketHandle) : Stack :=
  { stack with sockets := (stack.sockets.release handle).2 }

def failConnection : Stack :=
  let socket := stack.socket index
  if socket.state = .free then
    stack
  else
    let cleared := stack.clearTransmissions (some index)
    let announced :=
      if socket.state ≠ .synReceived then
        (sendSegment driver cleared (some index) socket (tcpRst ||| tcpAck) [] socket.sendNext).2
      else cleared
    if socket.accepted = false ∨ socket.detached then
      announced.release (some index)
    else
      { announced with sockets := announced.sockets.reset (some index) .timedOut }

/-- All data is acknowledged before the end of stream is sent. -/
def sendFin : Stack :=
  let socket := stack.socket index
  if socket.finSent = false ∧
      (socket.sendUnacknowledged ≠ socket.sendNext ∨ socket.flow.peerWindow = 0) then
    stack
  else
    let sequence := if socket.finSent then socket.sendNext - 1 else socket.sendNext
    let sent := sendSegment driver stack (some index) socket (tcpFin ||| tcpAck) [] sequence
    if sent.1 then
      sent.2.setSocket index
        { socket with
          sendNext := if socket.finSent then socket.sendNext else socket.sendNext + 1
          finSent := true
          timers.controlRetryAt := stack.now + socket.timers.controlDelay
          timers.controlDelay := backoff socket.timers.controlDelay }
    else
      sent.2.setSocket index
        { socket with timers.controlRetryAt := stack.now + tcpDriverRetry }

def requestFin : Stack :=
  let socket := stack.socket index
  if socket.sendClosed then
    stack
  else
    sendFin driver
      (stack.setSocket index
        { socket with
          sendClosed := true
          activeClose := !socket.receiveClosed
          state := if socket.receiveClosed then .lastAck else .finWait1
          timers.stateSince := stack.now
          timers.controlRetryAt := stack.now
          timers.controlDelay := socket.timers.rto })
      index

def enterTimeWait : Stack :=
  stack.setSocket index
    { stack.socket index with state := .timeWait, timers.stateSince := stack.now }

/-! ## Timers -/

/-- A half-open connection times out, or its answer is sent again. -/
def flushHandshake : Stack :=
  let socket := stack.socket index
  if tcpSynTimeout ≤ stack.now - socket.timers.openedAt then
    failConnection driver stack index
  else if deadlineReached stack.now socket.timers.controlRetryAt then
    let sent := sendSegment driver stack (some index) socket (tcpSyn ||| tcpAck) []
      (socket.sendNext - 1)
    if sent.1 then
      sent.2.setSocket index
        { socket with
          flow.congestionWindow := socket.flow.peerMss.toUInt32
          timers.rto := 3 * tcpSecond
          timers.controlRetryAt := stack.now + socket.timers.controlDelay
          timers.controlDelay := backoff socket.timers.controlDelay }
    else
      sent.2.setSocket index
        { socket with timers.controlRetryAt := stack.now + tcpDriverRetry }
  else
    stack

/-- A sender or a closing side that made no progress for too long gives up. -/
def timedOut (socket : SocketSlot) : Bool :=
  ((socket.sendUnacknowledged ≠ socket.sendNext || socket.flow.persistWaiting) &&
      tcpUserTimeout ≤ stack.now - socket.timers.progressAt) ||
    (socket.sendClosed && !socket.finAcked &&
      tcpUserTimeout ≤ stack.now - socket.timers.stateSince) ||
    (socket.state = .finWait2 && socket.detached &&
      tcpFinWaitTimeout ≤ stack.now - socket.timers.stateSince)

/-- Ask a peer with a closed window for its current window.  The stale sequence
number commits no byte of the application. -/
def queryWindow : Stack :=
  let socket := stack.socket index
  if socket.flow.persistWaiting ∧ socket.flow.peerWindow = 0 ∧
      deadlineReached stack.now socket.timers.persistRetryAt then
    let sent := sendSegment driver stack (some index) socket tcpAck []
      (socket.sendUnacknowledged - 1)
    if sent.1 then
      sent.2.setSocket index
        { socket with
          timers.persistDelay := backoff socket.timers.persistDelay
          timers.persistRetryAt := stack.now + backoff socket.timers.persistDelay }
    else
      sent.2.setSocket index
        { socket with timers.persistRetryAt := stack.now + tcpDriverRetry }
  else
    stack

def flushTimer : Stack :=
  let socket := stack.socket index
  if isConnection socket.state = false ∨ socket.state = .reset then
    stack
  else if socket.state = .timeWait then
    if tcpTimeWait ≤ stack.now - socket.timers.stateSince then
      if socket.detached then stack.release (some index)
      else stack.setSocket index { socket with state := .closed }
    else
      stack
  else if socket.state = .synReceived then
    flushHandshake driver stack index
  else if stack.timedOut socket then
    failConnection driver stack index
  else
    let closing :=
      if socket.sendClosed ∧ socket.finAcked = false ∧
          deadlineReached stack.now socket.timers.controlRetryAt then
        sendFin driver stack index
      else stack
    queryWindow driver closing index

def flushTimers : Stack :=
  (List.finRange socketCapacity).foldl (flushTimer driver) stack

/-- The flow control after the oldest segment timed out. -/
def congestionTimeout (socket : SocketSlot) : FlowControl :=
  let mss := socket.flow.peerMss.toUInt32
  { socket.flow with
    slowStartThreshold := max ((socket.sendNext - socket.sendUnacknowledged) / 2) (2 * mss)
    congestionWindow := mss
    congestionCredit := 0
    fastRecovery := false
    duplicateAcks := 0 }

/-- Send the oldest segment of a connection again; a closed window gets one
byte. -/
def retransmit (position : Fin transmitCapacity) (index : Fin socketCapacity) (key : TransmitKey)
    (pending : TransmitSegment) : Stack :=
  let socket := stack.socket index
  let count := min pending.data.length (max 1 socket.flow.peerWindow).toNat
  let sent := sendSegment driver stack (some index) socket pending.flags
    (pending.data.take count) key.sequence
  let entry : TransmitSegment :=
    if sent.1 then
      let delay := if pending.fastRetry then pending.delay else backoff pending.delay
      { pending with
        attempts := if pending.attempts = 255 then 255 else pending.attempts + 1
        delay
        fastRetry := false
        retryAt := stack.now + delay }
    else
      { pending with retryAt := stack.now + tcpDriverRetry }
  let slowed :=
    if sent.1 ∧ pending.fastRetry = false ∧ socket.flow.peerWindow ≠ 0 then
      sent.2.setSocket index { socket with flow := congestionTimeout socket }
    else sent.2
  { slowed with
    transmissions := update stack.transmissions position (some (key, entry))
    retryCursor := (position.val + 1) % transmitCapacity }

/-- Scan transmission slots in order until one segment was sent. -/
def flushRetransmissionFrom : List (Fin transmitCapacity) → Stack → Stack
  | [], stack => stack
  | position :: rest, stack =>
    match stack.transmissions position with
    | none => flushRetransmissionFrom rest stack
    | some (key, pending) =>
      match key.handle, stack.sockets.slot key.handle with
      | some index, some socket =>
        if socket.state = .reset then
          flushRetransmissionFrom rest
            { stack with
              transmissions := update stack.transmissions position none }
        else if key.sequence ≠ socket.sendUnacknowledged ∨
            deadlineReached stack.now pending.retryAt = false then
          flushRetransmissionFrom rest stack
        else
          retransmit driver stack position index key pending
      | _, _ =>
        flushRetransmissionFrom rest
          { stack with
            transmissions := update stack.transmissions position none }

def flushRetransmission : Stack :=
  flushRetransmissionFrom driver
    ((List.finRange transmitCapacity).map fun checked =>
      Fin.ofNat transmitCapacity (stack.retryCursor + checked.val)) stack

def flushAcknowledgement : Stack :=
  let socket := stack.socket index
  if socket.acknowledgementRetries = 0 ∨ isConnection socket.state = false ∨
      socket.state = .synReceived ∨ socket.state = .reset then
    stack
  else
    let sent := sendSegment driver stack (some index) socket tcpAck [] socket.sendNext
    if sent.1 then
      sent.2.setSocket index
        { socket with acknowledgementRetries := socket.acknowledgementRetries - 1 }
    else
      sent.2

def flushAcknowledgements : Stack :=
  (List.finRange socketCapacity).foldl (flushAcknowledgement driver) stack

/-! ## Incoming segments -/

/-- Limit the answers to unexpected segments to one hundred a second. -/
def allowControlReply : Bool × Stack :=
  let fresh :=
    if tcpSecond ≤ stack.now - stack.challengeEpoch then
      { stack with challengeEpoch := stack.now, challenges := 0 }
    else stack
  if 100 ≤ fresh.challenges then (false, fresh)
  else (true, { fresh with challenges := fresh.challenges + 1 })

def challengeAck : Stack :=
  let allowed := stack.allowControlReply
  if allowed.1 then
    flushAcknowledgement driver
      (allowed.2.setSocket index { allowed.2.socket index with acknowledgementRetries := 1 })
      index
  else
    allowed.2

/-- A flag is set in a segment. -/
def flagged (view : TcpView) (flag : UInt8) : Bool :=
  view.tcp.flags &&& flag ≠ 0

/-- Answer a segment that belongs to no connection. -/
def rejectSegment (view : TcpView) (localEnd remoteEnd : Endpoint) : Stack :=
  let allowed := stack.allowControlReply
  if allowed.1 then
    let rejected : SocketSlot := { localEnd, remoteEnd, remoteMac := view.ethernet.source }
    if flagged view tcpAck then
      (sendSegment driver allowed.2 none rejected tcpRst [] view.tcp.acknowledgement).2
    else
      let receiveNext := view.tcp.sequence + UInt32.ofNat view.payload.length +
        (flagged view tcpSyn).toUInt32 + (flagged view tcpFin).toUInt32
      (sendSegment driver allowed.2 none { rejected with receiveNext } (tcpRst ||| tcpAck) [] 0).2
  else
    allowed.2

/-- Record what the peer offered when it asked for a connection. -/
def offeredSocket (socket : SocketSlot) (view : TcpView) : SocketSlot :=
  let mss := min ((view.options.maximumSegmentSize.getD 536).toUInt32)
    (UInt32.ofNat transmitSegmentCapacity)
  { socket with
    timers.openedAt := stack.now
    timers.progressAt := stack.now
    flow.peerWindow := view.tcp.window.toUInt32
    flow.peerMss := mss.toUInt16
    flow.congestionWindow := 4 * mss
    flow.scaleNegotiated := view.options.windowScale.isSome
    flow.peerScale := view.options.windowScale.getD 0 }

def answerRequest (view : TcpView) : Stack :=
  let socket := stack.offeredSocket (stack.socket index) view
  let sent := sendSegment driver (stack.setSocket index socket) (some index) socket
    (tcpSyn ||| tcpAck) [] (socket.sendNext - 1)
  sent.2.setSocket index
    { socket with
      timers.controlRetryAt := stack.now + (if sent.1 then socket.timers.rto else tcpDriverRetry)
      timers.controlDelay :=
        if sent.1 then backoff socket.timers.rto else socket.timers.rto }

/-- A segment outside every connection: a request for a listener, or stray. -/
def handleUnconnected (view : TcpView) (localEnd remoteEnd : Endpoint) : Stack :=
  if flagged view tcpRst then
    stack
  else
    let listening := stack.sockets.listener localEnd
    if listening = invalidSocket ∨ flagged view tcpAck then
      rejectSegment driver stack view localEnd remoteEnd
    else if view.tcp.flags &&& (tcpSyn ||| tcpAck ||| tcpFin) ≠ tcpSyn then
      stack
    else
      let started := stack.sockets.beginConnection listening localEnd remoteEnd
        view.ethernet.source view.tcp.sequence stack.nextSequence
      match started.1.result, started.1.handle with
      | .success, some index =>
        answerRequest driver
          { stack with
            sockets := started.2
            nextSequence := stack.nextSequence + 0x10001 }
          index view
      | _, _ => stack

/-- A reset ends the connection only at the next expected sequence number. -/
def handleReset (sequence : UInt32) : Stack :=
  let socket := stack.socket index
  if socket.state = .timeWait then
    stack
  else if sequence = socket.receiveNext then
    let cleared := stack.clearTransmissions (some index)
    if socket.detached ∨ socket.accepted = false then
      cleared.release (some index)
    else
      { cleared with sockets := cleared.sockets.reset (some index) }
  else if 0 < serialDistance sequence socket.receiveNext ∧
      (sequence - socket.receiveNext).toNat < socketReceiveCapacity then
    challengeAck driver stack index
  else
    stack

/-- A segment lies in the receive window. -/
def acceptable (socket : SocketSlot) (sequence : UInt32) (length : Nat) : Bool :=
  let distance := serialDistance sequence socket.receiveNext
  let window : Nat := socketReceiveCapacity - socket.receiveBuffer.length
  if length = 0 then
    distance = 0 || (0 < distance && distance < window)
  else
    window ≠ 0 && distance < window && 0 < distance + length

/-- The number of repeated acknowledgements saturates. -/
def duplicateCount (flow : FlowControl) : UInt8 :=
  if flow.duplicateAcks < 255 then flow.duplicateAcks + 1 else flow.duplicateAcks

/-- Count a repeated acknowledgement; the third one asks for the oldest segment
again without waiting for its timer. -/
def countDuplicate (ack : UInt32) : Stack :=
  let socket := stack.socket index
  let duplicates := duplicateCount socket.flow
  if duplicates = 3 then
    let mss := socket.flow.peerMss.toUInt32
    let threshold := max ((socket.sendNext - ack) / 2) (2 * mss)
    { stack.setSocket index
        { socket with
          flow.duplicateAcks := duplicates
          flow.slowStartThreshold := threshold
          flow.congestionWindow := threshold + 3 * mss
          flow.fastRecovery := true } with
      transmissions := fun position =>
        match stack.transmissions position with
        | none => none
        | some (key, pending) =>
          if key.handle = some index ∧ key.sequence = ack then
            some (key, { pending with fastRetry := true, retryAt := stack.now })
          else
            some (key, pending) }
  else
    stack.setSocket index { socket with flow.duplicateAcks := duplicates }

/-- Take over the peer's window from a segment that is not older than the last
one that set it. -/
def updateWindow (view : TcpView) : Stack :=
  let socket := stack.socket index
  let sequence := view.tcp.sequence
  let ack := view.tcp.acknowledgement
  if 0 < serialDistance sequence socket.flow.windowSequence ∨
      (sequence = socket.flow.windowSequence ∧
        0 ≤ serialDistance ack socket.flow.windowAcknowledgement) then
    let peerWindow := view.tcp.window.toUInt32 <<< socket.flow.peerScale.toUInt32
    let flow :=
      { socket.flow with peerWindow, windowSequence := sequence, windowAcknowledgement := ack }
    let starting : Bool := peerWindow = 0 && socket.sendNext ≠ socket.sendUnacknowledged &&
      !flow.persistWaiting
    let waiting := flow.persistWaiting || starting
    stack.setSocket index
      { socket with
        flow := { flow with persistWaiting := waiting && peerWindow = 0 }
        timers :=
          { socket.timers with
            persistDelay := if starting then socket.timers.rto else socket.timers.persistDelay
            persistRetryAt :=
              if starting then stack.now + socket.timers.rto
              else socket.timers.persistRetryAt
            progressAt := if waiting then stack.now else socket.timers.progressAt } }
  else
    stack

/-- The acknowledgement of a segment: duplicates, new bytes, the window. -/
def handleAcknowledgement (view : TcpView) (length : Nat) : Stack :=
  let socket := stack.socket index
  let ack := view.tcp.acknowledgement
  if 0 ≤ serialDistance ack socket.sendUnacknowledged then
    let advertised := view.tcp.window.toUInt32 <<< socket.flow.peerScale.toUInt32
    let counted :=
      if ack = socket.sendUnacknowledged ∧ socket.sendNext ≠ ack ∧ length = 0 ∧
          advertised = socket.flow.peerWindow ∧ socket.finSent = false ∧ advertised ≠ 0 then
        countDuplicate stack index ack
      else
        stack.setSocket index { socket with flow.duplicateAcks := 0 }
    updateWindow (acknowledgeTransmissions counted index ack) index view
  else
    stack

/-- The acknowledgement of our end of stream.  The second component tells that
the slot was freed. -/
def handleFinAcknowledged (ack : UInt32) : Stack × Bool :=
  let socket := stack.socket index
  if socket.finSent ∧ ack = socket.sendNext then
    let acked := stack.setSocket index { socket with finAcked := true }
    if socket.receiveClosed then
      if socket.activeClose then
        (acked.enterTimeWait index, false)
      else if socket.detached then
        (acked.release (some index), true)
      else
        (acked, false)
    else if socket.state = .finWait1 then
      (acked.setSocket index
        { socket with
          finAcked := true
          state := .finWait2
          timers.stateSince := stack.now }, false)
    else
      (acked, false)
  else
    (stack, false)

/-- Both streams have ended: the connection waits before its slot is reused. -/
def noteFinished (wasClosed : Bool) : Stack :=
  let socket := stack.socket index
  if wasClosed = false ∧ socket.receiveClosed ∧ socket.finAcked then stack.enterTimeWait index
  else stack

/-- The payload of a segment and the peer's end of stream. -/
def handlePayload (view : TcpView) : Stack :=
  let finish := flagged view tcpFin
  if view.payload ≠ [] ∨ finish then
    let received :=
      { stack with
        sockets := (stack.sockets.receive (some index) view.tcp.sequence view.payload finish).2 }
    let ended := received.noteFinished index (stack.socket index).receiveClosed
    let socket := ended.socket index
    flushAcknowledgement driver
      (ended.setSocket index
        { socket with
          receiveBuffer := if socket.readClosed then [] else socket.receiveBuffer
          acknowledgementRetries := 1 })
      index
  else
    stack

/-- A segment of a connection whose handshake is complete. -/
def handleSegment (view : TcpView) : Stack :=
  let socket := stack.socket index
  let ack := view.tcp.acknowledgement
  let length := view.payload.length + (flagged view tcpFin).toNat
  if flagged view tcpAck = false then
    stack
  else if acceptable socket view.tcp.sequence length = false ∨
      0 < serialDistance ack socket.sendNext then
    challengeAck driver stack index
  else
    let finished := handleFinAcknowledged (handleAcknowledgement stack index view length) index ack
    if finished.2 then
      finished.1
    else
      let taken := handlePayload driver finished.1 index view
      if (taken.socket index).sendClosed ∧ (taken.socket index).finSent = false then
        sendFin driver taken index
      else
        taken

/-- A segment of a half-open connection. -/
def handleHandshake (view : TcpView) : Stack :=
  let socket := stack.socket index
  if view.tcp.flags &&& (tcpSyn ||| tcpFin ||| tcpAck) = tcpSyn ∧
      view.tcp.sequence + 1 = socket.receiveNext then
    (sendSegment driver stack (some index) socket (tcpSyn ||| tcpAck) [] (socket.sendNext - 1)).2
  else if view.tcp.flags &&& (tcpAck ||| tcpSyn) ≠ tcpAck ∨
      view.tcp.sequence ≠ socket.receiveNext then
    stack
  else
    let established := stack.sockets.establish (some index) view.tcp.acknowledgement
    if established.1 ≠ .success then stack
    else handleSegment driver { stack with sockets := established.2 } index view

def handleConnection (view : TcpView) : Stack :=
  let socket := stack.socket index
  if socket.state = .reset then
    stack
  else if flagged view tcpRst then
    handleReset driver stack index view.tcp.sequence
  else if socket.state = .timeWait then
    if flagged view tcpFin ∧
        view.tcp.sequence + UInt32.ofNat view.payload.length + 1 = socket.receiveNext then
      challengeAck driver
        (stack.setSocket index { socket with timers.stateSince := stack.now }) index
    else
      stack
  else if socket.state = .synReceived then
    handleHandshake driver stack index view
  else if flagged view tcpSyn then
    challengeAck driver stack index
  else
    handleSegment driver stack index view

def handleTcp (frame : List UInt8) : Stack :=
  match parseTcp frame stack.interface.address with
  | none => stack
  | some view =>
    let localEnd : Endpoint := ⟨stack.interface.address, view.tcp.destinationPort⟩
    let remoteEnd : Endpoint := ⟨view.ip.source, view.tcp.sourcePort⟩
    match stack.sockets.connection localEnd remoteEnd with
    | none => handleUnconnected driver stack view localEnd remoteEnd
    | some index => handleConnection driver stack index view

/-- Hand a reply made in place to the driver. -/
def sendReply (frame : List UInt8) (reply : Reply) : Reply × Stack :=
  let sent := transmit driver stack (.reply frame)
  (if sent.1 then reply else .none, sent.2)

def handle (frame : List UInt8) : Reply × Stack :=
  match makeArpReply frame stack.interface.mac stack.interface.address with
  | some answer => sendReply driver stack answer .arp
  | none =>
    match makeIcmpEchoReply frame stack.interface.mac stack.interface.address with
    | some answer => sendReply driver stack answer .echo
    | none => (.none, handleTcp driver stack frame)

def record (reply : Reply) (stack : Stack) : Stack :=
  match reply with
  | .arp => { stack with arpReplied := true }
  | .echo => { stack with echoReplied := true }
  | .none => stack

/-! ## The interface of the stack -/

/-- Bring the device up; the driver reports whether there is one and its address. -/
def initializeStack (device : Option MacAddress) : Bool × Stack :=
  if stack.initialized then
    (true, stack)
  else
    match device with
    | none => (false, stack)
    | some mac => (true, { stack with interface.mac := mac, initialized := true })

/-- One round of the stack at a clock value, with the frame the driver has. -/
def poll (now : UInt64) (frame : Option (List UInt8)) : Stack :=
  if stack.initialized = false ∨ stack.interface.flags &&& interfaceUp = 0 then
    stack
  else
    let acknowledged := flushAcknowledgements driver { stack with now }
    let handled :=
      match frame with
      | none => acknowledged
      | some bytes =>
        let reply := handle driver acknowledged bytes
        record reply.1 reply.2
    flushRetransmission driver (flushTimers driver handled)

def ioctl (request : UInt32) (value : Ifreq32) : (InterfaceControlResult × Ifreq32) × Stack :=
  if stack.initialized = false then
    ((.noDevice, value), stack)
  else
    let applied := applyInterfaceIoctl stack.interface request value
    ((applied.1, applied.2.2), { stack with interface := applied.2.1 })

def socketOpen (type : SocketType) : OpenResult × Stack :=
  let opened := stack.sockets.open type
  (opened.1, { stack with sockets := opened.2 })

def socketRetain (handle : SocketHandle) : SocketResult × Stack :=
  let retained := stack.sockets.retain handle
  (retained.1, { stack with sockets := retained.2 })

def socketClose (now : UInt64) (handle : SocketHandle) : SocketResult × Stack :=
  let stack := { stack with now }
  match handle, stack.sockets.slot handle with
  | some index, some socket =>
    if socket.references = 1 ∧ socket.finAcked ∧ socket.receiveClosed ∧
        socket.state ≠ .timeWait then
      let cleared := stack.clearTransmissions handle
      ((cleared.sockets.release handle).1, cleared.release handle)
    else if socket.references = 1 ∧ isConnection socket.state ∧ socket.state ≠ .reset ∧
        socket.state ≠ .synReceived then
      -- The transport keeps the slot until the connection has ended.
      (.success, requestFin driver (stack.setSocket index { socket with detached := true }) index)
    else
      let released := stack.release handle
      ((stack.sockets.release handle).1,
        if socket.references = 1 then released.clearTransmissions handle else released)
  | _, _ => (.badHandle, stack)

def socketBind (handle : SocketHandle) (localEnd : Endpoint) : SocketResult × Stack :=
  if unspecified localEnd.address = false ∧ localEnd.address ≠ stack.interface.address then
    (.invalidArgument, stack)
  else
    let bound := stack.sockets.bind handle localEnd
    (bound.1, { stack with sockets := bound.2 })

def socketListen (handle : SocketHandle) (backlog : UInt32) : SocketResult × Stack :=
  let listening := stack.sockets.listen handle backlog
  (listening.1, { stack with sockets := listening.2 })

def socketAccept (handle : SocketHandle) : AcceptResult × Stack :=
  let accepted := stack.sockets.accept handle
  (accepted.1, { stack with sockets := accepted.2 })

def socketRead (now : UInt64) (handle : SocketHandle) (size : Nat) :
    (ReadResult × List UInt8) × Stack :=
  let stack := { stack with now }
  let read := stack.sockets.read handle size
  let consumed := { stack with sockets := read.2 }
  match handle, consumed.sockets.slot handle with
  | some index, some socket =>
    if read.1.1.size ≠ 0 then
      let entered := (stack.socket index).state ≠ .timeWait ∧ socket.state = .timeWait
      (read.1, consumed.setSocket index
        { socket with
          acknowledgementRetries := 1
          timers.stateSince := if entered then now else socket.timers.stateSince })
    else
      (read.1, consumed)
  | _, _ => (read.1, consumed)

/-- A connection that was idle for long restarts with a small window. -/
def restartIdle : Stack :=
  let socket := stack.socket index
  if socket.sendNext = socket.sendUnacknowledged ∧
      socket.timers.rto ≤ stack.now - socket.timers.progressAt then
    stack.setSocket index
      { socket with
        flow.congestionWindow :=
          min socket.flow.congestionWindow (4 * socket.flow.peerMss.toUInt32) }
  else
    stack

/-- Start to query a window that was found closed. -/
def awaitWindow : Stack :=
  let socket := stack.socket index
  if socket.flow.peerWindow = 0 ∧ socket.flow.persistWaiting = false then
    stack.setSocket index
      { socket with
        flow.persistWaiting := true
        timers.progressAt := stack.now
        timers.persistDelay := socket.timers.rto
        timers.persistRetryAt := stack.now + socket.timers.rto }
  else
    stack

/-- Bookkeeping after one segment of a write was sent. -/
def advanceSend (count : Nat) : Stack :=
  let socket := stack.socket index
  stack.setSocket index
    { socket with
      timers.progressAt :=
        if socket.sendUnacknowledged = socket.sendNext then stack.now
        else socket.timers.progressAt
      acknowledgementRetries := 0
      sendNext := socket.sendNext + UInt32.ofNat count }

/-- Queue segments until the input or the space is used up, or the driver
refuses one.  Every round but the last fills a transmission slot, so a bound of
one more than their number is never reached. -/
def writeLoop (index : Fin socketCapacity) (input : List UInt8) (available : Nat) :
    Nat → Stack → Nat → ReadResult × Stack
  | 0, stack, written => (⟨.success, written⟩, stack)
  | fuel + 1, stack, written =>
    if written < input.length ∧ written < available then
      let socket := stack.socket index
      let count := min (min (input.length - written) (available - written))
        (min transmitSegmentCapacity socket.flow.peerMss.toNat)
      let queued := queueTransmission driver stack index (tcpAck ||| tcpPsh)
        ((input.drop written).take count) socket.sendNext
      if queued.1 then
        writeLoop index input available fuel (queued.2.advanceSend index count)
          (written + count)
      else
        (if written = 0 then ⟨.wouldBlock, 0⟩ else ⟨.success, written⟩, queued.2)
    else
      (⟨.success, written⟩, stack)

def socketWrite (now : UInt64) (handle : SocketHandle) (input : List UInt8) : ReadResult × Stack :=
  let stack := { stack with now }
  match handle, stack.sockets.slot handle with
  | some index, some socket =>
    if socket.state = .reset then
      (⟨socket.failure, 0⟩, stack)
    else if stack.sockets.writable handle = false then
      (⟨.notConnected, 0⟩, stack)
    else if input = [] then
      (⟨.success, 0⟩, stack)
    else
      let restarted := stack.restartIdle index
      let available := sendSpace (restarted.socket index)
      if available = 0 then
        (⟨.wouldBlock, 0⟩, restarted.awaitWindow index)
      else
        writeLoop driver index input available.toNat (transmitCapacity + 1) restarted 0
  | _, _ => (⟨.badHandle, 0⟩, stack)

def socketShutdown (now : UInt64) (handle : SocketHandle) (how : UInt32) : SocketResult × Stack :=
  let stack := { stack with now }
  match handle, stack.sockets.slot handle with
  | some index, some socket =>
    if 2 < how then
      (.invalidArgument, stack)
    else if isConnection socket.state = false ∨ socket.state = .synReceived ∨
        socket.state = .reset then
      (.notConnected, stack)
    else
      let closing := if how ≠ 0 then requestFin driver stack index else stack
      (.success,
        if how ≠ 1 then
          closing.setSocket index
            { closing.socket index with
              readClosed := true
              receiveBuffer := []
              acknowledgementRetries := 1 }
        else closing)
  | _, _ => (.badHandle, stack)

def socketReadable (handle : SocketHandle) : Bool :=
  stack.sockets.readable handle

end Stack

/-! ## Runs -/

/-- What can happen to a stack: a call of its interface or a poll. -/
inductive StackEvent where
  | start (device : Option MacAddress)
  | poll (now : UInt64) (frame : Option (List UInt8))
  | ioctl (request : UInt32) (value : Ifreq32)
  | «open» (type : SocketType)
  | retain (handle : SocketHandle)
  | close (now : UInt64) (handle : SocketHandle)
  | bind (handle : SocketHandle) (localEnd : Endpoint)
  | listen (handle : SocketHandle) (backlog : UInt32)
  | accept (handle : SocketHandle)
  | read (now : UInt64) (handle : SocketHandle) (size : Nat)
  | write (now : UInt64) (handle : SocketHandle) (input : List UInt8)
  | shutdown (now : UInt64) (handle : SocketHandle) (how : UInt32)
  deriving DecidableEq, Repr

namespace Stack
variable (driver : Nat → Bool)

def after (stack : Stack) : StackEvent → Stack
  | .start device => (stack.initializeStack device).2
  | .poll now frame => stack.poll driver now frame
  | .ioctl request value => (stack.ioctl request value).2
  | .open type => (stack.socketOpen type).2
  | .retain handle => (stack.socketRetain handle).2
  | .close now handle => (stack.socketClose driver now handle).2
  | .bind handle localEnd => (stack.socketBind handle localEnd).2
  | .listen handle backlog => (stack.socketListen handle backlog).2
  | .accept handle => (stack.socketAccept handle).2
  | .read now handle size => (stack.socketRead now handle size).2
  | .write now handle input => (stack.socketWrite driver now handle input).2
  | .shutdown now handle how => (stack.socketShutdown driver now handle how).2

end Stack
end Mikos.Network
