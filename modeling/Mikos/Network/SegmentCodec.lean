import Mikos.Library.OnesComplement
import Mikos.Network.Stack

/-!
# Segments on the wire read back

A frame that `sendSegment` hands to the driver is written in several passes over
one transmit buffer: the headers with a zero checksum, the options, the payload,
and then the transport header a second time.  The frame is accepted by `parseTcp`
on the receiving side and reads as the segment that was sent.
-/

namespace Mikos.Network
open Library Function
section Frames
open List

/-! ## Header fields -/

theorem shiftLeft_or_eq (lower : low < 2 ^ shift) (upper : high * 2 ^ shift < 2 ^ bits) :
    high <<< shift % 2 ^ bits ||| low = 2 ^ shift * high + low := by
  rw [Nat.mod_eq_of_lt (by rwa [Nat.shiftLeft_eq]), ← Nat.shiftLeft_add_eq_or_of_lt lower,
    Nat.shiftLeft_eq, Nat.mul_comm]

theorem toNat_word16 (high low : UInt8) :
    ((high.toUInt16 <<< 8) ||| low.toUInt16).toNat = 0x100 * high.toNat + low.toNat := by
  have upper := high.toNat_lt
  rw [UInt16.toNat_or, UInt16.toNat_shiftLeft, UInt8.toNat_toUInt16, UInt8.toNat_toUInt16]
  exact shiftLeft_or_eq low.toNat_lt (show high.toNat * 2 ^ 8 < 2 ^ 16 by omega)

theorem toNat_word32 (high low : UInt16) :
    ((high.toUInt32 <<< 16) ||| low.toUInt32).toNat = 0x10000 * high.toNat + low.toNat := by
  have upper := high.toNat_lt
  rw [UInt32.toNat_or, UInt32.toNat_shiftLeft, UInt16.toNat_toUInt32, UInt16.toNat_toUInt32]
  exact shiftLeft_or_eq low.toNat_lt (show high.toNat * 2 ^ 16 < 2 ^ 32 by omega)

theorem toNat_summand (high low : UInt8) :
    ((high.toUInt32 <<< 8) ||| low.toUInt32).toNat = 0x100 * high.toNat + low.toNat := by
  have upper := high.toNat_lt
  rw [UInt32.toNat_or, UInt32.toNat_shiftLeft, UInt8.toNat_toUInt32, UInt8.toNat_toUInt32]
  exact shiftLeft_or_eq low.toNat_lt (show high.toNat * 2 ^ 8 < 2 ^ 32 by omega)

theorem word16_octets (value : UInt16) :
    ((value >>> 8).toUInt8.toUInt16 <<< 8) ||| value.toUInt8.toUInt16 = value := by
  have small := value.toNat_lt
  apply UInt16.toNat_inj.mp
  rw [toNat_word16]
  simp only [UInt16.toNat_toUInt8, UInt16.toNat_shiftRight, Nat.shiftRight_eq_div_pow]
  show 0x100 * (value.toNat / 2 ^ 8 % 2 ^ 8) + value.toNat % 2 ^ 8 = value.toNat
  omega

theorem word32_octets (value : UInt32) :
    ((value >>> 16).toUInt16.toUInt32 <<< 16) ||| value.toUInt16.toUInt32 = value := by
  have small := value.toNat_lt
  apply UInt32.toNat_inj.mp
  rw [toNat_word32]
  simp only [UInt32.toNat_toUInt16, UInt32.toNat_shiftRight, Nat.shiftRight_eq_div_pow]
  show 0x10000 * (value.toNat / 2 ^ 16 % 2 ^ 16) + value.toNat % 2 ^ 16 = value.toNat
  omega

theorem MacAddress.exists_octets (address : MacAddress) :
    ∃ a b c d e f, address = ⟨#v[a, b, c, d, e, f]⟩ := by
  match address with
  | ⟨⟨⟨[a, b, c, d, e, f]⟩, _⟩⟩ => exact ⟨a, b, c, d, e, f, rfl⟩

theorem Ipv4Address.exists_octets (address : Ipv4Address) :
    ∃ a b c d, address = ⟨#v[a, b, c, d]⟩ := by
  match address with
  | ⟨⟨⟨[a, b, c, d]⟩, _⟩⟩ => exact ⟨a, b, c, d, rfl⟩

section Headers
variable (rest : List UInt8)

theorem decodeEthernet_append (header : EthernetHeader) :
    decodeEthernet (encodeEthernet header ++ rest) = header := by
  obtain ⟨destination, source, type⟩ := header
  obtain ⟨a, b, c, d, e, f, rfl⟩ := source.exists_octets
  obtain ⟨a', b', c', d', e', f', rfl⟩ := destination.exists_octets
  simp only [decodeEthernet, encodeEthernet, net16Octets, net16At, octetAt, macAt, Vector.toList_mk,
    cons_append, nil_append, getD_cons_succ, getD_cons_zero, word16_octets]

theorem decodeIpv4_append (header : Ipv4Header) :
    decodeIpv4 (encodeIpv4 header ++ rest) = header := by
  obtain ⟨versionIhl, dscpEcn, totalLength, identification, flagsFragment, ttl, protocol,
    checksum, source, destination⟩ := header
  obtain ⟨a, b, c, d, rfl⟩ := source.exists_octets
  obtain ⟨e, f, g, h, rfl⟩ := destination.exists_octets
  simp only [decodeIpv4, encodeIpv4, net16Octets, net16At, octetAt, ipv4At, Vector.toList_mk,
    cons_append, nil_append, getD_cons_succ, getD_cons_zero, word16_octets]

theorem decodeTcp_append (header : TcpHeader) : decodeTcp (encodeTcp header ++ rest) = header := by
  simp only [decodeTcp, encodeTcp, net32Octets, net32At, net16Octets, net16At, octetAt,
    cons_append, nil_append, getD_cons_succ, getD_cons_zero, word16_octets,
    word32_octets]

@[simp] theorem length_encodeEthernet (header : EthernetHeader) :
    (encodeEthernet header).length = ethernetHeaderSize := by
  simp [encodeEthernet, net16Octets, ethernetHeaderSize]

@[simp] theorem length_encodeIpv4 (header : Ipv4Header) :
    (encodeIpv4 header).length = ipv4HeaderSize := by
  simp [encodeIpv4, net16Octets, ipv4HeaderSize]

@[simp] theorem length_encodeTcp (header : TcpHeader) :
    (encodeTcp header).length = tcpHeaderSize := by
  simp [encodeTcp, net16Octets, net32Octets, tcpHeaderSize]

end Headers

/-! ## Checksums -/

/-- A running checksum is a plain sum of words as long as it stays below `2 ^ 32`. -/
theorem toNat_checksumAdd {sum : UInt32} (small : sum.toNat + wordSum bytes < 0x100000000) :
    (checksumAdd sum bytes).toNat = sum.toNat + wordSum bytes := by
  fun_induction checksumAdd sum bytes with
  | case1 sum => simp [wordSum]
  | case2 sum last =>
    have word := toNat_summand last 0
    rw [show ((0 : UInt8).toUInt32) = 0 from rfl, UInt32.or_zero] at word
    rw [wordSum] at small ⊢
    rw [UInt32.toNat_add, word, UInt8.toNat_zero, Nat.add_zero]
    exact Nat.mod_eq_of_lt small
  | case3 sum high low rest ih =>
    rw [wordSum] at small ⊢
    have step : (sum + ((high.toUInt32 <<< 8) ||| low.toUInt32)).toNat =
        sum.toNat + (0x100 * high.toNat + low.toNat) := by
      rw [UInt32.toNat_add, toNat_summand]
      exact Nat.mod_eq_of_lt (by omega)
    rw [step] at ih
    rw [ih (by omega)]
    omega

theorem toNat_carried (sum : UInt32) :
    ((sum &&& (0xffff : UInt32)) + (sum >>> 16)).toNat = endAround 0x10000 sum.toNat := by
  have small := sum.toNat_lt
  rw [UInt32.toNat_add, UInt32.toNat_and, UInt32.toNat_shiftRight, Nat.shiftRight_eq_div_pow,
    endAround, show (0xffff : UInt32).toNat = 2 ^ 16 - 1 from rfl, Nat.and_two_pow_sub_one_eq_mod]
  show (sum.toNat % 2 ^ 16 + sum.toNat / 2 ^ 16) % 2 ^ 32 = _
  omega

/-- The loop ends with the folded sum if its rounds bring the sum below the radix. -/
theorem checksumCarry_residue {sum : UInt32}
    (spent : (endAround 0x10000)^[rounds] sum.toNat < 0x10000) :
    OnesResidue 0x10000 sum.toNat (checksumCarry rounds sum).toNat := by
  induction rounds generalizing sum with
  | zero => exact .of_lt spent
  | succ rounds ih =>
    rw [checksumCarry]
    split
    next short =>
      have high : sum.toNat / 2 ^ 16 = 0 := by
        rw [← Nat.shiftRight_eq_div_pow]
        exact congrArg UInt32.toNat short
      exact .of_lt (by omega)
    rw [iterate_succ_apply, ← toNat_carried] at spent
    have folded := ih spent
    rw [toNat_carried] at folded
    exact folded.of_endAround

/-- Three rounds are enough for every sum, and what is returned is the complement. -/
theorem checksumFinish_residue (sum : UInt32) :
    OnesResidue 0x10000 sum.toNat (0xffff - (checksumFinish sum).toNat) := by
  have first : endAround 0x10000 sum.toNat ≤ 2 * (0x10000 - 1) := endAround_le sum.toNat_lt
  have second := endAround_lt (by decide) first
  have folded : OnesResidue 0x10000 sum.toNat (checksumCarry 3 sum).toNat := by
    apply checksumCarry_residue
    simp only [iterate_succ_apply, iterate_zero_apply]
    rwa [endAround_of_lt second]
  have small := folded.bounded
  have complement : 0xffff - (checksumFinish sum).toNat = (checksumCarry 3 sum).toNat := by
    rw [checksumFinish, UInt16.toNat_not, UInt32.toNat_toUInt16, UInt16.size]
    omega
  rwa [complement]

theorem checksumFinish_completed (sum : UInt32)
    (completed : whole.toNat = sum.toNat + (checksumFinish sum).toNat) :
    checksumFinish whole = 0 := by
  have folded := (checksumFinish_residue sum).completed (by decide)
  have small := (checksumFinish sum).toNat_lt
  have complement : 0x10000 - 1 - (0xffff - (checksumFinish sum).toNat) =
      (checksumFinish sum).toNat := by
    omega
  rw [complement, ← completed] at folded
  have ones := (checksumFinish_residue whole).unique folded
  apply UInt16.toNat_inj.mp
  rw [UInt16.toNat_zero]
  omega

theorem wordSum_net16Octets (value : UInt16) : wordSum (net16Octets value) = value.toNat := by
  rw [net16Octets, wordSum, wordSum, Nat.add_zero, ← toNat_word16, word16_octets]

theorem wordSum_field (even : front.length % 2 = 0) (back : List UInt8) (value : UInt16) :
    wordSum (front ++ (net16Octets value ++ back)) =
      wordSum (front ++ (net16Octets 0 ++ back)) + value.toNat := by
  have pair (value : UInt16) : (net16Octets value).length % 2 = 0 := by simp [net16Octets]
  rw [wordSum_append _ even, wordSum_append _ even, wordSum_append back (pair value),
    wordSum_append back (pair 0), wordSum_net16Octets, wordSum_net16Octets, UInt16.toNat_zero]
  omega

/-- A message completed by its checksum, in a field at an even position, verifies. -/
theorem internetChecksum_field (even : front.length % 2 = 0) (back : List UInt8)
    (small : front.length + back.length ≤ 0x10000) : internetChecksum (front ++ (net16Octets
      (internetChecksum (front ++ (net16Octets 0 ++ back))) ++ back)) = 0 := by
  have sum (value : UInt16) : (checksumAdd 0 (front ++ (net16Octets value ++ back))).toNat =
      wordSum (front ++ (net16Octets value ++ back)) := by
    have bound := wordSum_le (front ++ (net16Octets value ++ back))
    simp only [net16Octets, length_append, length_cons, length_nil] at bound
    rw [toNat_checksumAdd, UInt32.toNat_zero, Nat.zero_add]
    rw [UInt32.toNat_zero, net16Octets]
    omega
  apply checksumFinish_completed (checksumAdd 0 (front ++ (net16Octets 0 ++ back)))
  rw [sum, sum, wordSum_field even, internetChecksum]

section Completed
variable {ip : Ipv4Header} {tcp : TcpHeader}

theorem wordSum_encodeTcp (empty : tcp.checksum = 0) (checksum : UInt16) (body : List UInt8) :
    wordSum (encodeTcp { tcp with checksum } ++ body) =
      wordSum (encodeTcp tcp ++ body) + checksum.toNat := by
  have even : (net16Octets tcp.sourcePort ++ net16Octets tcp.destinationPort ++
      net32Octets tcp.sequence ++ net32Octets tcp.acknowledgement ++
      [tcp.dataOffset, tcp.flags] ++ net16Octets tcp.window).length % 2 = 0 := by
    simp [net16Octets, net32Octets]
  have field := wordSum_field even (net16Octets tcp.urgent ++ body) checksum
  rw [← empty] at field
  simpa only [encodeTcp, append_assoc] using field

theorem internetChecksum_completed (empty : ip.checksum = 0) :
    internetChecksum (encodeIpv4 { ip with checksum := internetChecksum (encodeIpv4 ip) }) = 0 := by
  have even : ([ip.versionIhl, ip.dscpEcn] ++ net16Octets ip.totalLength ++
      net16Octets ip.identification ++ net16Octets ip.flagsFragment ++
      [ip.ttl, ip.protocol]).length % 2 = 0 := by simp [net16Octets]
  have field := internetChecksum_field even (ip.source.octet.toList ++ ip.destination.octet.toList)
    (by simp [net16Octets])
  simpa only [encodeIpv4, append_assoc, empty] using field

/-- The sum of the pseudo header that a transport checksum starts from. -/
def pseudoSum (source destination : Ipv4Address) (size : Nat) : UInt32 :=
  checksumAdd
    (checksumAdd (checksumAdd 0 source.octet.toList) destination.octet.toList)
    [0, 6, UInt8.ofNat (size / 256), UInt8.ofNat size]

variable (source destination : Ipv4Address)

theorem toNat_pseudoSum_le (size : Nat) : (pseudoSum source destination size).toNat ≤ 0x100000 := by
  have first := wordSum_le source.octet.toList
  have second := wordSum_le destination.octet.toList
  have third := wordSum_le [0, 6, UInt8.ofNat (size / 256), UInt8.ofNat size]
  simp only [Vector.length_toList, length_cons, length_nil] at first second third
  have sum : (checksumAdd 0 source.octet.toList).toNat = wordSum source.octet.toList := by
    rw [toNat_checksumAdd, UInt32.toNat_zero, Nat.zero_add]
    rw [UInt32.toNat_zero]
    omega
  have sum' : (checksumAdd (checksumAdd 0 source.octet.toList) destination.octet.toList).toNat =
      wordSum source.octet.toList + wordSum destination.octet.toList := by
    rw [toNat_checksumAdd (by omega), sum]
  rw [pseudoSum, toNat_checksumAdd (by omega), sum']
  omega

/-- A transport segment completed by its checksum verifies. -/
theorem tcpChecksum_completed (empty : tcp.checksum = 0) (small : body.length ≤ 0xffff) :
    tcpChecksum source destination (encodeTcp
      { tcp with
        checksum := tcpChecksum source destination (encodeTcp tcp ++ body) } ++ body) = 0 := by
  have size (header : TcpHeader) :
      (encodeTcp header ++ body).length = tcpHeaderSize + body.length := by
    rw [length_append, length_encodeTcp]
  have checksum (header : TcpHeader) : tcpChecksum source destination (encodeTcp header ++ body) =
      checksumFinish (checksumAdd (pseudoSum source destination (tcpHeaderSize + body.length))
        (encodeTcp header ++ body)) := by
    rw [← size header]
    rfl
  have sum (header : TcpHeader) :
      (checksumAdd (pseudoSum source destination (tcpHeaderSize + body.length))
        (encodeTcp header ++ body)).toNat =
      (pseudoSum source destination (tcpHeaderSize + body.length)).toNat +
        wordSum (encodeTcp header ++ body) := by
    have bound := wordSum_le (encodeTcp header ++ body)
    have start := toNat_pseudoSum_le source destination (tcpHeaderSize + body.length)
    rw [size, tcpHeaderSize] at bound
    exact toNat_checksumAdd (by omega)
  rw [checksum]
  apply checksumFinish_completed
    (checksumAdd (pseudoSum source destination (tcpHeaderSize + body.length))
      (encodeTcp tcp ++ body))
  rw [sum, sum, wordSum_encodeTcp empty, ← checksum, Nat.add_assoc]

end Completed

/-! ## The transmit buffer -/

theorem overwrite_append (place : done.length = offset) (fits : old.length = values.length) :
    overwrite (done ++ (old ++ rest)) offset values = done ++ (values ++ rest) := by
  rw [← place, overwrite, take_left, append_assoc, ← drop_drop, drop_left, ← fits, drop_left]

/-- A buffer of some size that was filled from its start. -/
structure Filled (size : Nat) (buffer done : List UInt8) : Prop where
  starts : done <+: buffer
  size : buffer.length = size

theorem Filled.next {size offset : Nat} (filled : Filled size buffer done)
    (place : done.length = offset) (fits : offset + values.length ≤ size) :
    Filled size (overwrite buffer offset values) (done ++ values) where
  starts := by
    obtain ⟨⟨rest, rfl⟩, whole⟩ := filled
    rw [length_append] at whole
    have split := take_append_drop values.length rest
    rw [← split, overwrite_append place (by rw [length_take]; omega), ← append_assoc]
    exact prefix_append ..
  size := by
    have whole := filled.size
    simp only [overwrite, length_append, length_take, length_drop]
    omega

namespace Segment

/-- The size of all headers, options included. -/
def headers (segment : Segment) : Nat :=
  ethernetHeaderSize + ipv4HeaderSize + (tcpHeaderSize + segment.options.length)

/-- The internet header as it is sent. -/
def completeIpv4Header (segment : Segment) : Ipv4Header :=
  { segment.ipv4Header with checksum := internetChecksum (encodeIpv4 segment.ipv4Header) }

/-- The transport header as it is sent. -/
def completeTcpHeader (segment : Segment) : TcpHeader :=
  { segment.tcpHeader with
    checksum := tcpChecksum segment.socket.localEnd.address segment.socket.remoteEnd.address
      (encodeTcp segment.tcpHeader ++ (segment.options ++ segment.payload)) }

/-- The transmit buffer after the first pass, with a zero transport checksum. -/
def layOut (segment : Segment) (buffer : List UInt8) : List UInt8 :=
  let start := ethernetHeaderSize + ipv4HeaderSize
  let buffer := overwrite buffer 0 (encodeEthernet segment.ethernetHeader)
  let buffer := overwrite buffer ethernetHeaderSize (encodeIpv4 segment.completeIpv4Header)
  let buffer := overwrite buffer start (encodeTcp segment.tcpHeader)
  let buffer := overwrite buffer (start + tcpHeaderSize) segment.options
  overwrite buffer segment.headers segment.payload

/-- The transmit buffer after the second pass, which sums the segment in the
buffer and writes its header again. -/
def write (segment : Segment) (buffer : List UInt8) : List UInt8 :=
  let start := ethernetHeaderSize + ipv4HeaderSize
  let buffer := segment.layOut buffer
  let bytes := (buffer.drop start).take
    (tcpHeaderSize + segment.options.length + segment.payload.length)
  overwrite buffer start (encodeTcp
    { segment.tcpHeader with
      checksum := tcpChecksum segment.socket.localEnd.address segment.socket.remoteEnd.address
        bytes })

/-- The part of the transmit buffer that is handed to the driver. -/
def handed (segment : Segment) (buffer : List UInt8) : List UInt8 :=
  (segment.write buffer).take (segment.headers + segment.payload.length)

variable {segment : Segment} {buffer : List UInt8}

theorem frame_eq (segment : Segment) :
    segment.frame = encodeEthernet segment.ethernetHeader ++
      (encodeIpv4 segment.completeIpv4Header ++
        (encodeTcp segment.completeTcpHeader ++ (segment.options ++ segment.payload))) := by
  rw [← append_assoc, ← append_assoc]
  rfl

theorem length_frame (segment : Segment) :
    segment.frame.length = segment.headers + segment.payload.length := by
  rw [frame_eq, headers]
  simp only [length_append, length_encodeEthernet, length_encodeIpv4, length_encodeTcp]
  omega

theorem layOut_filled (fits : segment.headers + segment.payload.length ≤ buffer.length) :
    Filled buffer.length (segment.layOut buffer)
      ([] ++ encodeEthernet segment.ethernetHeader ++ encodeIpv4 segment.completeIpv4Header ++
        encodeTcp segment.tcpHeader ++ segment.options ++ segment.payload) := by
  rw [headers] at fits
  rw [layOut]
  apply Filled.next (Filled.next (Filled.next (Filled.next (Filled.next ⟨ nil_prefix, rfl⟩
    rfl ?_) ?_ ?_) ?_ ?_) ?_ ?_) ?_ fits
  all_goals
    try simp only [length_append, length_nil, length_encodeEthernet,
      length_encodeIpv4, length_encodeTcp]
    omega

/-- The passes over the buffer leave the frame at its start, whatever it held before. -/
theorem handed_eq_frame (fits : segment.headers + segment.payload.length ≤ buffer.length) :
    segment.handed buffer = segment.frame := by
  obtain ⟨⟨rest, whole⟩, -⟩ := layOut_filled fits
  have place : (encodeEthernet segment.ethernetHeader ++
      encodeIpv4 segment.completeIpv4Header).length = ethernetHeaderSize + ipv4HeaderSize := by
    rw [length_append, length_encodeEthernet, length_encodeIpv4]
  have laidOut : segment.layOut buffer =
      encodeEthernet segment.ethernetHeader ++ encodeIpv4 segment.completeIpv4Header ++
        (encodeTcp segment.tcpHeader ++ (segment.options ++ segment.payload ++ rest)) := by
    simp only [← whole, nil_append, append_assoc]
  -- The second pass sums exactly the bytes of the segment and not what lies behind them.
  have bytes : ((segment.layOut buffer).drop (ethernetHeaderSize + ipv4HeaderSize)).take
      (tcpHeaderSize + segment.options.length + segment.payload.length) =
      encodeTcp segment.tcpHeader ++ (segment.options ++ segment.payload) := by
    rw [laidOut, drop_left' place, ← append_assoc]
    apply take_left'
    simp only [length_append, length_encodeTcp]
    omega
  have written : segment.write buffer = segment.frame ++ rest := by
    rw [write, bytes, laidOut, overwrite_append place (by simp), frame_eq]
    simp only [append_assoc]
    rfl
  rw [handed, written, ← length_frame, take_left]

end Segment

/-! ## Reading a segment back -/

/-- The options a receiver reads from a segment. -/
def announcedOptions (socket : SocketSlot) (flags : UInt8) : TcpOptions :=
  if flags &&& tcpSyn ≠ 0 then
    { maximumSegmentSize := some 1460
      windowScale := if socket.flow.scaleNegotiated then some 0 else none }
  else {}

section
variable (socket : SocketSlot) (flags : UInt8)

theorem parseTcpOptions_segmentOptions :
    parseTcpOptions (segmentOptions socket flags) = some (announcedOptions socket flags) := by
  rw [segmentOptions, announcedOptions]
  split
  · cases socket.flow.scaleNegotiated <;> decide
  · rfl

/-- The header of a segment is a whole number of words, and its size is written in
four bits. -/
theorem dataOffset_segmentOptions :
    (UInt8.ofNat ((tcpHeaderSize + (segmentOptions socket flags).length) / 4)
      <<< 4 >>> 4).toNat * 4 = tcpHeaderSize + (segmentOptions socket flags).length := by
  rw [segmentOptions]
  split
  · cases socket.flow.scaleNegotiated <;> decide
  · decide

theorem length_segmentOptions_le : (segmentOptions socket flags).length ≤ 8 := by
  rw [segmentOptions]
  split
  · exact length_take_le' ..
  · decide

end

namespace Segment
variable {segment : Segment}

theorem toNat_totalLength (small : segment.payload.length ≤ 0x8000) :
    segment.completeIpv4Header.totalLength.toNat =
      ipv4HeaderSize + (tcpHeaderSize + segment.options.length) + segment.payload.length := by
  have options : segment.options.length ≤ 8 := length_segmentOptions_le _ _
  show (UInt16.ofNat _).toNat = _
  rw [UInt16.toNat_ofNat']
  apply Nat.mod_eq_of_lt
  rw [ipv4HeaderSize, tcpHeaderSize]
  omega

/-- The receiver of a frame reads the headers as they were sent. -/
theorem parseTcp_frame (small : segment.payload.length ≤ 0x8000) :
    parseTcp segment.frame segment.socket.remoteEnd.address =
      some ⟨segment.ethernetHeader, segment.completeIpv4Header, segment.completeTcpHeader,
        segment.payload, announcedOptions segment.socket segment.flags⟩ := by
  have options : segment.options.length ≤ 8 := length_segmentOptions_le _ _
  have enough : ¬ segment.frame.length < ethernetHeaderSize + ipv4HeaderSize + tcpHeaderSize := by
    rw [length_frame, headers]
    omega
  have headerSize :
      (segment.completeIpv4Header.versionIhl &&& 0x0f).toNat * 4 = ipv4HeaderSize := by
    show ((0x45 : UInt8) &&& 0x0f).toNat * 4 = 20
    decide
  have version : segment.completeIpv4Header.versionIhl >>> 4 = 4 := by
    show (0x45 : UInt8) >>> 4 = 4
    decide
  have unfragmented : segment.completeIpv4Header.flagsFragment &&& 0x3fff = 0 := by
    show (0 : UInt16) &&& 0x3fff = 0
    decide
  have verified : internetChecksum (encodeIpv4 segment.completeIpv4Header) = 0 :=
    internetChecksum_completed rfl
  have size : (encodeTcp segment.completeTcpHeader ++ (segment.options ++ segment.payload)).length =
      tcpHeaderSize + segment.options.length + segment.payload.length := by
    simp only [length_append, length_encodeTcp]
    omega
  have verified' : tcpChecksum segment.completeIpv4Header.source
      segment.socket.remoteEnd.address (encodeTcp segment.completeTcpHeader ++
        (segment.options ++ segment.payload)) = 0 :=
    tcpChecksum_completed _ _ rfl (by rw [length_append]; omega)
  have offset : (segment.completeTcpHeader.dataOffset >>> 4).toNat * 4 =
      tcpHeaderSize + segment.options.length :=
    dataOffset_segmentOptions segment.socket segment.flags
  have read := parseTcpOptions_segmentOptions segment.socket segment.flags
  rw [parseTcp, if_neg enough, frame_eq]
  simp only [decodeEthernet_append, decodeIpv4_append, toNat_totalLength small, headerSize,
    drop_left' (length_encodeEthernet segment.ethernetHeader),
    take_left' (length_encodeIpv4 segment.completeIpv4Header),
    drop_left' (length_encodeIpv4 segment.completeIpv4Header)]
  rw [if_neg]
  · rw [Nat.add_assoc, Nat.add_sub_cancel_left, take_of_length_le (by omega),
      decodeTcp_append, offset, if_neg]
    · rw [drop_left' (length_encodeTcp _), Nat.add_sub_cancel_left, take_left]
      rw [← append_assoc, drop_left' (by rw [length_append, length_encodeTcp])]
      rw [show parseTcpOptions segment.options = _ from read]
    rw [size]
    rintro (short | short | wrong)
    · omega
    · omega
    · exact wrong verified'
  rw [length_append, size, length_encodeIpv4]
  rintro (wrong | wrong | short | short | short | short | wrong | wrong | wrong | wrong)
  · exact wrong rfl
  · exact wrong version
  · omega
  · omega
  · omega
  · omega
  · exact wrong rfl
  · exact wrong unfragmented
  · exact wrong rfl
  · exact wrong verified

end Segment

/-- A parsed segment carries what a socket sent. -/
structure Conveys (socket : SocketSlot) (flags : UInt8) (payload : List UInt8) (sequence : UInt32)
    (view : TcpView) : Prop where
  source : view.ip.source = socket.localEnd.address
  destination : view.ip.destination = socket.remoteEnd.address
  sourcePort : view.tcp.sourcePort = socket.localEnd.port
  destinationPort : view.tcp.destinationPort = socket.remoteEnd.port
  sequence : view.tcp.sequence = sequence
  acknowledgement : view.tcp.acknowledgement = socket.receiveNext
  window : view.tcp.window.toNat =
    if flags &&& tcpRst ≠ 0 then 0 else socketReceiveCapacity - socket.receiveBuffer.length
  options : view.options = announcedOptions socket flags
  flags : view.tcp.flags = flags
  payload : view.payload = payload

/-- The view of a frame, which is read from the headers the sender filled in. -/
theorem Segment.conveys (segment : Segment) :
    Conveys segment.socket segment.flags segment.payload segment.sequence
      ⟨segment.ethernetHeader, segment.completeIpv4Header, segment.completeTcpHeader,
        segment.payload, announcedOptions segment.socket segment.flags⟩ where
  source := rfl
  destination := rfl
  sourcePort := rfl
  destinationPort := rfl
  sequence := rfl
  acknowledgement := rfl
  window := by
    show (if segment.flags &&& tcpRst ≠ 0 then 0 else
      UInt16.ofNat (socketReceiveCapacity - segment.socket.receiveBuffer.length)).toNat = _
    split
    · rfl
    · rw [UInt16.toNat_ofNat']
      apply Nat.mod_eq_of_lt
      rw [socketReceiveCapacity]
      omega
  options := rfl
  flags := rfl
  payload := rfl

end Frames

namespace Stack

/-- A segment that fits is handed to the driver as a frame that its receiver
accepts and reads as it was sent, whatever frame the transmit buffer held before. -/
theorem sendSegment_conveyed (driver : Nat → Bool) (stack : Stack) (owner : SocketHandle)
    (socket : SocketSlot) (flags : UInt8) (payload : List UInt8) (sequence : UInt32)
    (buffer : Vector UInt8 transmitBufferSize)
    (accepted : payload.length ≤ transmitBufferSize - (ethernetHeaderSize + ipv4HeaderSize +
      (tcpHeaderSize + (segmentOptions socket flags).length))) :
    ∃ segment view,
      (sendSegment driver stack owner socket flags payload sequence).2.transmitted =
        stack.transmitted ++
          [.segment segment (sendSegment driver stack owner socket flags payload sequence).1] ∧
      parseTcp (segment.handed buffer.toList) socket.remoteEnd.address = some view ∧
      (segment.handed buffer.toList).length = ethernetHeaderSize + view.ip.totalLength.toNat ∧
      Conveys socket flags payload sequence view := by
  have options := length_segmentOptions_le socket flags
  let segment : Segment :=
    ⟨owner, socket, stack.interface.mac, stack.nextIdentification, flags, payload, sequence⟩
  have sent : sendSegment driver stack owner socket flags payload sequence =
      transmit driver { stack with nextIdentification := stack.nextIdentification + 1 }
        (.segment segment) := by
    rw [sendSegment, if_neg (Nat.not_lt.mpr accepted)]
  rw [transmitBufferSize] at accepted
  have small : payload.length ≤ 0x8000 := by omega
  have handed : segment.handed buffer.toList = segment.frame := by
    apply Segment.handed_eq_frame
    rw [Vector.length_toList]
    show ethernetHeaderSize + ipv4HeaderSize +
      (tcpHeaderSize + (segmentOptions socket flags).length) + payload.length ≤ 1536
    rw [ethernetHeaderSize, ipv4HeaderSize, tcpHeaderSize] at *
    omega
  refine ⟨segment, _, ?_, ?_, ?_, segment.conveys⟩
  · rw [sent]
    rfl
  · rw [handed]
    exact Segment.parseTcp_frame small
  · rw [handed, Segment.length_frame, Segment.toNat_totalLength small, Segment.headers]
    show _ + payload.length = ethernetHeaderSize + (_ + payload.length)
    omega

/-- The answer to a connection request with three bytes of data, over a buffer
full of ones. -/
theorem sendSegment_conveyed_odd :
    ∃ segment view,
      (sendSegment (fun _ => false) {} none { flow := { scaleNegotiated := true } }
        (tcpSyn ||| tcpAck) [1, 2, 3] 7).2.transmitted = [.segment segment false] ∧
      parseTcp (segment.handed (Vector.replicate transmitBufferSize 0xff).toList) {} =
        some view ∧
      (segment.handed (Vector.replicate transmitBufferSize 0xff).toList).length =
        ethernetHeaderSize + view.ip.totalLength.toNat ∧
      Conveys { flow := { scaleNegotiated := true } } (tcpSyn ||| tcpAck) [1, 2, 3] 7 view :=
  sendSegment_conveyed (fun _ => false) {} none { flow := { scaleNegotiated := true } }
    (tcpSyn ||| tcpAck) [1, 2, 3] 7 (Vector.replicate transmitBufferSize 0xff) (by decide)

end Stack
end Mikos.Network
