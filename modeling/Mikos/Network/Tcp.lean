import Mikos.Network.Basic

/-!
# Frames on the wire

Decoding and encoding of the packet formats the stack speaks.  Multi-byte header
fields are stored here in host order; the source keeps them in network order and
converts at each use.
-/

namespace Mikos.Network

/-! ## Octets -/

/-- The octet at an offset; callers check the length first. -/
def octetAt (bytes : List UInt8) (offset : Nat) : UInt8 :=
  bytes.getD offset 0

/-- Big-endian 16-bit field. -/
def net16At (bytes : List UInt8) (offset : Nat) : UInt16 :=
  ((octetAt bytes offset).toUInt16 <<< 8) ||| (octetAt bytes (offset + 1)).toUInt16

/-- Big-endian 32-bit field. -/
def net32At (bytes : List UInt8) (offset : Nat) : UInt32 :=
  ((net16At bytes offset).toUInt32 <<< 16) ||| (net16At bytes (offset + 2)).toUInt32

def net16Octets (value : UInt16) : List UInt8 :=
  [(value >>> 8).toUInt8, value.toUInt8]

def net32Octets (value : UInt32) : List UInt8 :=
  net16Octets (value >>> 16).toUInt16 ++ net16Octets value.toUInt16

def macAt (bytes : List UInt8) (offset : Nat) : MacAddress :=
  ⟨#v[octetAt bytes offset, octetAt bytes (offset + 1), octetAt bytes (offset + 2),
    octetAt bytes (offset + 3), octetAt bytes (offset + 4), octetAt bytes (offset + 5)]⟩

def ipv4At (bytes : List UInt8) (offset : Nat) : Ipv4Address :=
  ⟨#v[octetAt bytes offset, octetAt bytes (offset + 1), octetAt bytes (offset + 2),
    octetAt bytes (offset + 3)]⟩

/-- Overwrite part of a buffer in place. -/
def overwrite (bytes : List UInt8) (offset : Nat) (values : List UInt8) : List UInt8 :=
  bytes.take offset ++ values ++ bytes.drop (offset + values.length)

/-! ## Checksums -/

/-- Add a byte string to a running checksum as big-endian 16-bit words; an odd
last byte counts as the upper half of a word. -/
def checksumAdd (sum : UInt32) : List UInt8 → UInt32
  | [] => sum
  | [last] => sum + (last.toUInt32 <<< 8)
  | high :: low :: rest =>
    checksumAdd (sum + ((high.toUInt32 <<< 8) ||| low.toUInt32)) rest

/-- Fold the carries back; three rounds bring every 32-bit sum below `2 ^ 16`. -/
def checksumCarry : Nat → UInt32 → UInt32
  | 0, sum => sum
  | rounds + 1, sum =>
    if sum >>> 16 = 0 then sum
    else checksumCarry rounds ((sum &&& (0xffff : UInt32)) + (sum >>> 16))

def checksumFinish (sum : UInt32) : UInt16 :=
  ~~~ (checksumCarry 3 sum).toUInt16

def internetChecksum (bytes : List UInt8) : UInt16 :=
  checksumFinish (checksumAdd 0 bytes)

def tcpChecksum (source destination : Ipv4Address) (segment : List UInt8) : UInt16 :=
  let size := segment.length
  let pseudo : List UInt8 := [0, 6, UInt8.ofNat (size / 256), UInt8.ofNat size]
  checksumFinish
    (checksumAdd
      (checksumAdd (checksumAdd (checksumAdd 0 source.octet.toList) destination.octet.toList)
        pseudo)
      segment)

/-! ## Headers -/

structure EthernetHeader where
  destination : MacAddress
  source : MacAddress
  type : UInt16
  deriving DecidableEq, Repr

structure Ipv4Header where
  versionIhl : UInt8
  dscpEcn : UInt8
  totalLength : UInt16
  identification : UInt16
  flagsFragment : UInt16
  ttl : UInt8
  protocol : UInt8
  checksum : UInt16
  source : Ipv4Address
  destination : Ipv4Address
  deriving DecidableEq, Repr

structure TcpHeader where
  sourcePort : UInt16
  destinationPort : UInt16
  sequence : UInt32
  acknowledgement : UInt32
  dataOffset : UInt8
  flags : UInt8
  window : UInt16
  checksum : UInt16
  urgent : UInt16
  deriving DecidableEq, Repr

def ethernetHeaderSize : Nat := 14

def ipv4HeaderSize : Nat := 20

def tcpHeaderSize : Nat := 20

def decodeEthernet (bytes : List UInt8) : EthernetHeader where
  destination := macAt bytes 0
  source := macAt bytes 6
  type := net16At bytes 12

def decodeIpv4 (bytes : List UInt8) : Ipv4Header where
  versionIhl := octetAt bytes 0
  dscpEcn := octetAt bytes 1
  totalLength := net16At bytes 2
  identification := net16At bytes 4
  flagsFragment := net16At bytes 6
  ttl := octetAt bytes 8
  protocol := octetAt bytes 9
  checksum := net16At bytes 10
  source := ipv4At bytes 12
  destination := ipv4At bytes 16

def decodeTcp (bytes : List UInt8) : TcpHeader where
  sourcePort := net16At bytes 0
  destinationPort := net16At bytes 2
  sequence := net32At bytes 4
  acknowledgement := net32At bytes 8
  dataOffset := octetAt bytes 12
  flags := octetAt bytes 13
  window := net16At bytes 14
  checksum := net16At bytes 16
  urgent := net16At bytes 18

def encodeEthernet (header : EthernetHeader) : List UInt8 :=
  header.destination.octet.toList ++ header.source.octet.toList ++ net16Octets header.type

def encodeIpv4 (header : Ipv4Header) : List UInt8 :=
  [header.versionIhl, header.dscpEcn] ++ net16Octets header.totalLength ++
    net16Octets header.identification ++ net16Octets header.flagsFragment ++
    [header.ttl, header.protocol] ++ net16Octets header.checksum ++
    header.source.octet.toList ++ header.destination.octet.toList

def encodeTcp (header : TcpHeader) : List UInt8 :=
  net16Octets header.sourcePort ++ net16Octets header.destinationPort ++
    net32Octets header.sequence ++ net32Octets header.acknowledgement ++
    [header.dataOffset, header.flags] ++ net16Octets header.window ++
    net16Octets header.checksum ++ net16Octets header.urgent

def tcpFin : UInt8 := 0x01

def tcpSyn : UInt8 := 0x02

def tcpRst : UInt8 := 0x04

def tcpPsh : UInt8 := 0x08

def tcpAck : UInt8 := 0x10

/-! ## Incoming segments -/

structure TcpOptions where
  maximumSegmentSize : Option UInt16 := none
  windowScale : Option UInt8 := none
  deriving DecidableEq, Repr

/-- One framed option of kind at least two; `none` rejects the segment. -/
def applyTcpOption (result : TcpOptions) (kind : UInt8) (option : List UInt8) : Option TcpOptions :=
  match kind.toNat with
  | 2 =>
    if option.length ≠ 4 ∨ result.maximumSegmentSize.isSome then none
    else if net16At option 2 = 0 then none
    else some { result with maximumSegmentSize := some (net16At option 2) }
  | 3 =>
    if option.length ≠ 3 ∨ result.windowScale.isSome then none
    else some { result with windowScale := some (min (octetAt option 2) 14) }
  | 4 => if option.length ≠ 2 then none else some result
  | 5 =>
    if option.length < 10 ∨ (option.length - 2) % 8 ≠ 0 then none else some result
  | 8 => if option.length ≠ 10 then none else some result
  | _ => some result

/-- Every iteration consumes at least one byte, so the length bounds the loop. -/
def parseTcpOptionsLoop : Nat → TcpOptions → List UInt8 → Option TcpOptions
  | 0, result, _ => some result
  | fuel + 1, result, bytes =>
    match bytes with
    | [] => some result
    | kind :: rest =>
      if kind = 0 then some result
      else if kind = 1 then parseTcpOptionsLoop fuel result rest
      else
        match rest with
        | [] => none
        | size :: _ =>
          if size < 2 ∨ bytes.length < size.toNat then none
          else
            match applyTcpOption result kind (bytes.take size.toNat) with
            | none => none
            | some next => parseTcpOptionsLoop fuel next (bytes.drop size.toNat)

def parseTcpOptions (bytes : List UInt8) : Option TcpOptions :=
  parseTcpOptionsLoop bytes.length {} bytes

/-- A parsed segment. -/
structure TcpView where
  ethernet : EthernetHeader
  ip : Ipv4Header
  tcp : TcpHeader
  payload : List UInt8
  options : TcpOptions
  deriving DecidableEq, Repr

def parseTcp (bytes : List UInt8) (localIp : Ipv4Address) : Option TcpView :=
  if bytes.length < ethernetHeaderSize + ipv4HeaderSize + tcpHeaderSize then none
  else
    let ethernet := decodeEthernet bytes
    let ipBytes := bytes.drop ethernetHeaderSize
    let ip := decodeIpv4 ipBytes
    let ipHeaderSize := (ip.versionIhl &&& 0x0f).toNat * 4
    let ipSize := ip.totalLength.toNat
    if ethernet.type ≠ 0x0800 ∨ ip.versionIhl >>> 4 ≠ 4 ∨ ipHeaderSize < ipv4HeaderSize ∨
        ipBytes.length < ipHeaderSize ∨ ipSize < ipHeaderSize + tcpHeaderSize ∨
        ipBytes.length < ipSize ∨ ip.protocol ≠ 6 ∨ ip.flagsFragment &&& 0x3fff ≠ 0 ∨
        ip.destination ≠ localIp ∨ internetChecksum (ipBytes.take ipHeaderSize) ≠ 0 then
      none
    else
      let tcpBytes := (ipBytes.drop ipHeaderSize).take (ipSize - ipHeaderSize)
      let tcp := decodeTcp tcpBytes
      let headerSize := (tcp.dataOffset >>> 4).toNat * 4
      if headerSize < tcpHeaderSize ∨ tcpBytes.length < headerSize ∨
          tcpChecksum ip.source localIp tcpBytes ≠ 0 then
        none
      else
        match parseTcpOptions ((tcpBytes.drop tcpHeaderSize).take
            (headerSize - tcpHeaderSize)) with
        | none => none
        | some options => some ⟨ethernet, ip, tcp, tcpBytes.drop headerSize, options⟩

theorem applyTcpOption_mss (valid : result.maximumSegmentSize ≠ some 0)
    (applied : applyTcpOption result kind option = some next) :
    next.maximumSegmentSize ≠ some 0 := by
  unfold applyTcpOption at applied
  split at applied <;> (try split at applied) <;> (try split at applied) <;> cases applied <;>
    simp_all

theorem parseTcpOptionsLoop_mss (fuel : Nat) (valid : result.maximumSegmentSize ≠ some 0)
    (parsed : parseTcpOptionsLoop fuel result bytes = some next) :
    next.maximumSegmentSize ≠ some 0 := by
  induction fuel generalizing result bytes with
  | zero =>
    cases parsed
    exact valid
  | succ fuel ih =>
    unfold parseTcpOptionsLoop at parsed
    split at parsed
    · cases parsed
      exact valid
    split at parsed
    · cases parsed
      exact valid
    split at parsed
    · exact ih valid parsed
    split at parsed
    · cases parsed
    split at parsed
    · cases parsed
    split at parsed
    · cases parsed
    next applied => exact ih (applyTcpOption_mss valid applied) parsed

theorem parseTcp_mss (parsed : parseTcp bytes localIp = some view) :
    view.options.maximumSegmentSize ≠ some 0 := by
  simp only [parseTcp] at parsed
  split at parsed
  · cases parsed
  split at parsed
  · cases parsed
  split at parsed
  · cases parsed
  split at parsed
  · cases parsed
  next options =>
    cases parsed
    exact parseTcpOptionsLoop_mss _ (by simp) options

/-! ## Replies made in place -/

/-- Turn an address request for us into its reply, in the request's buffer. -/
def makeArpReply (bytes : List UInt8) (localMac : MacAddress) (localIp : Ipv4Address) :
    Option (List UInt8) :=
  if bytes.length < 42 then none
  else if net16At bytes 12 ≠ 0x0806 ∨ net16At bytes 14 ≠ 1 ∨ net16At bytes 16 ≠ 0x0800 ∨
      octetAt bytes 18 ≠ 6 ∨ octetAt bytes 19 ≠ 4 ∨ net16At bytes 20 ≠ 1 then
    none
  else if ipv4At bytes 38 ≠ localIp then none
  else
    let requesterMac := macAt bytes 22
    let requesterIp := ipv4At bytes 28
    some (requesterMac.octet.toList ++ localMac.octet.toList ++
      (bytes.drop 12).take 8 ++ net16Octets 2 ++ localMac.octet.toList ++
      localIp.octet.toList ++ requesterMac.octet.toList ++ requesterIp.octet.toList)

/-- Turn an echo request for us into its reply, in the request's buffer. -/
def makeIcmpEchoReply (bytes : List UInt8) (localMac : MacAddress) (localIp : Ipv4Address) :
    Option (List UInt8) :=
  if bytes.length < 42 then none
  else
    let ip := decodeIpv4 (bytes.drop ethernetHeaderSize)
    if net16At bytes 12 ≠ 0x0800 ∨ ip.versionIhl ≠ 0x45 ∨ ip.protocol ≠ 1 ∨
        internetChecksum ((bytes.drop ethernetHeaderSize).take ipv4HeaderSize) ≠ 0 then
      none
    else if ip.destination ≠ localIp then none
    else
      let ipSize := ip.totalLength.toNat
      if ipSize < 28 ∨ bytes.length - ethernetHeaderSize < ipSize then none
      else
        let icmp := (bytes.drop 34).take (ipSize - ipv4HeaderSize)
        if octetAt icmp 0 ≠ 8 ∨ octetAt icmp 1 ≠ 0 ∨ internetChecksum icmp ≠ 0 then none
        else
          let answer := { ip with
            source := localIp, destination := ip.source, ttl := 64, checksum := 0 }
          let header := encodeIpv4 { answer with
            checksum := internetChecksum (encodeIpv4 answer) }
          let body := overwrite icmp 0 [0, 0, 0, 0]
          let echo := overwrite body 2 (net16Octets (internetChecksum body))
          some ((decodeEthernet bytes).source.octet.toList ++ localMac.octet.toList ++
            net16Octets 0x0800 ++ header ++ echo)

end Mikos.Network
