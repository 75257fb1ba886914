import Mikos.Network.SegmentCodec

/-!
# Replies in the buffer of the request

The two routines that answer for the interface itself write their reply over the frame they
were given, field by field and through views of it that overlap.
-/

namespace Mikos.Network
open Library Function List

/-! ## The routines -/

/-- The `make_arp_reply` of the source on a buffer whose first `size` octets are the frame. -/
def makeArpReplyInPlace (bytes : List UInt8) (size : Nat) (localMac : MacAddress)
    (localIp : Ipv4Address) : Nat × List UInt8 :=
  if size < 42 then (0, bytes)
  else if net16At bytes 12 ≠ 0x0806 ∨ net16At bytes 14 ≠ 1 ∨ net16At bytes 16 ≠ 0x0800 ∨
      octetAt bytes 18 ≠ 6 ∨ octetAt bytes 19 ≠ 4 ∨ net16At bytes 20 ≠ 1 then
    (0, bytes)
  else if ipv4At bytes 38 ≠ localIp then (0, bytes)
  else
    let requesterMac := macAt bytes 22
    let requesterIp := ipv4At bytes 28
    let bytes := overwrite bytes 0 requesterMac.octet.toList
    let bytes := overwrite bytes 6 localMac.octet.toList
    let bytes := overwrite bytes 20 (net16Octets 2)
    let bytes := overwrite bytes 32 requesterMac.octet.toList
    let bytes := overwrite bytes 38 requesterIp.octet.toList
    let bytes := overwrite bytes 22 localMac.octet.toList
    let bytes := overwrite bytes 28 localIp.octet.toList
    (42, bytes)

/-- The `make_icmp_echo_reply` of the source on such a buffer. -/
def makeIcmpEchoReplyInPlace (bytes : List UInt8) (size : Nat) (localMac : MacAddress)
    (localIp : Ipv4Address) : Nat × List UInt8 :=
  if size < 42 then (0, bytes)
  else
    let ip := decodeIpv4 (bytes.drop ethernetHeaderSize)
    if net16At bytes 12 ≠ 0x0800 ∨ ip.versionIhl ≠ 0x45 ∨ ip.protocol ≠ 1 ∨
        internetChecksum ((bytes.drop ethernetHeaderSize).take ipv4HeaderSize) ≠ 0 then
      (0, bytes)
    else if ip.destination ≠ localIp then (0, bytes)
    else
      let ipSize := ip.totalLength.toNat
      if ipSize < 28 ∨ size - ethernetHeaderSize < ipSize then (0, bytes)
      else
        let icmpSize := ipSize - ipv4HeaderSize
        if octetAt bytes 34 ≠ 8 ∨ octetAt bytes 35 ≠ 0 ∨
            internetChecksum ((bytes.drop 34).take icmpSize) ≠ 0 then
          (0, bytes)
        else
          let requesterMac := macAt bytes 6
          let requesterIp := ipv4At bytes 26
          let bytes := overwrite bytes 0 requesterMac.octet.toList
          let bytes := overwrite bytes 6 localMac.octet.toList
          let bytes := overwrite bytes 30 requesterIp.octet.toList
          let bytes := overwrite bytes 26 localIp.octet.toList
          let bytes := overwrite bytes 22 [64]
          let bytes := overwrite bytes 24 (net16Octets 0)
          let bytes := overwrite bytes 24
            (net16Octets (internetChecksum ((bytes.drop ethernetHeaderSize).take ipv4HeaderSize)))
          let bytes := overwrite bytes 34 [0]
          let bytes := overwrite bytes 36 (net16Octets 0)
          let bytes := overwrite bytes 36
            (net16Octets (internetChecksum ((bytes.drop 34).take icmpSize)))
          (ethernetHeaderSize + ipSize, bytes)

/-! ## The reply as a frame of its own -/

/-- A reply stands at the start of the buffer, and what follows it is as before. -/
def placed (bytes : List UInt8) : Option (List UInt8) → Nat × List UInt8
  | none => (0, bytes)
  | some reply => (reply.length, reply ++ bytes.drop reply.length)

section Placed
variable {bytes : List UInt8} {size : Nat} {localMac : MacAddress} {localIp : Ipv4Address}

theorem placed_refuse [Decidable refused] [Decidable refused'] (same : refused ↔ refused')
    (next : ¬ refused → outcome = placed bytes reply) : (if refused then (0, bytes) else outcome) =
      placed bytes (if refused' then none else reply) := by
  by_cases condition : refused
  · rw [if_pos condition, if_pos (same.mp condition)]
    rfl
  · rw [if_neg condition, if_neg (fun refuses => condition (same.mpr refuses))]
    exact next condition

theorem exists_octets {count : Nat} (long : ¬ size < count) (inside : size ≤ bytes.length) :
    ∃ (octet : Nat → UInt8) (rest : List UInt8), bytes = (range count).map octet ++ rest ∧
      bytes.take size = (range count).map octet ++ rest.take (size - count) := by
  refine ⟨octetAt bytes, bytes.drop count, ?_⟩
  have front : (range count).map (octetAt bytes) = bytes.take count := by
    refine ext_getElem (by simp; omega) fun i left right => ?_
    simp only [length_map, length_range] at left
    simp [octetAt, getD_eq_getElem?_getD, getElem?_eq_getElem (show i < bytes.length by omega)]
  have start : bytes.take count = (bytes.take size).take count := by
    rw [take_take, Nat.min_eq_left (Nat.not_lt.mp long)]
  refine ⟨by rw [front, take_append_drop], ?_⟩
  rw [front, start, take_drop, Nat.add_sub_cancel' (Nat.not_lt.mp long), take_append_drop]

theorem makeArpReplyInPlace_eq (inside : size ≤ bytes.length) :
    makeArpReplyInPlace bytes size localMac localIp =
      placed bytes (makeArpReply (bytes.take size) localMac localIp) := by
  refine placed_refuse (by rw [length_take, Nat.min_eq_left inside]) fun long => ?_
  obtain ⟨octet, rest, frame, cut⟩ := exists_octets long inside
  obtain ⟨a, b, c, d, e, f, rfl⟩ := localMac.exists_octets
  obtain ⟨g, h, i, j, rfl⟩ := localIp.exists_octets
  rw [cut, frame]
  simp only [range, range.loop, map_cons, map_nil, cons_append, nil_append]
  refine placed_refuse .rfl fun _ => placed_refuse .rfl fun _ => ?_
  simp only [overwrite, macAt, ipv4At, octetAt, getD_cons_succ, getD_cons_zero, Vector.toList_mk,
    net16Octets, take_succ_cons, take_zero, drop_succ_cons, drop_zero, cons_append, nil_append,
    length_cons, length_nil, placed, Nat.reduceAdd, Nat.zero_add]

theorem net16Octets_word16 (high low : UInt8) :
    net16Octets ((high.toUInt16 <<< 8) ||| low.toUInt16) = [high, low] := by
  have word := toNat_word16 high low
  have upper := high.toNat_lt
  have lower := low.toNat_lt
  simp only [net16Octets, cons.injEq, and_true]
  constructor <;> apply UInt8.toNat_inj.mp
  · rw [UInt16.toNat_toUInt8, UInt16.toNat_shiftRight, word, Nat.shiftRight_eq_div_pow]
    show (0x100 * high.toNat + low.toNat) / 2 ^ 8 % 2 ^ 8 = high.toNat
    omega
  · rw [UInt16.toNat_toUInt8, word]
    omega

theorem makeIcmpEchoReplyInPlace_eq (inside : size ≤ bytes.length) :
    makeIcmpEchoReplyInPlace bytes size localMac localIp =
      placed bytes (makeIcmpEchoReply (bytes.take size) localMac localIp) := by
  refine placed_refuse (by rw [length_take, Nat.min_eq_left inside]) fun long => ?_
  obtain ⟨octet, rest, frame, cut⟩ := exists_octets long inside
  obtain ⟨a, b, c, d, e, f, rfl⟩ := localMac.exists_octets
  obtain ⟨g, h, i, j, rfl⟩ := localIp.exists_octets
  rw [length_take, Nat.min_eq_left inside, cut, frame]
  simp only [range, range.loop, map_cons, map_nil, cons_append, nil_append, ethernetHeaderSize,
    decodeIpv4, decodeEthernet, macAt, ipv4At, net16At, octetAt, getD_cons_succ, getD_cons_zero,
    Vector.toList_mk, drop_succ_cons, drop_zero]
  refine placed_refuse .rfl fun known => placed_refuse .rfl fun _ =>
    placed_refuse .rfl fun fits => ?_
  obtain ⟨data, whole⟩ : ∃ data,
      ((octet 16).toUInt16 <<< 8 ||| (octet 17).toUInt16).toNat = data + 28 :=
    ⟨_, (Nat.sub_add_cancel (by omega)).symm⟩
  have short : min data (size - 42) = data := by omega
  simp only [whole, ipv4HeaderSize, Nat.reduceSubDiff, take_succ_cons, take_take, short,
    getD_cons_succ, getD_cons_zero]
  refine placed_refuse .rfl fun asked => ?_
  simp only [not_or, Decidable.not_not] at known asked
  rw [← known.1]
  simp only [encodeIpv4, net16Octets_word16]
  simp only [overwrite, net16Octets, take_succ_cons, take_zero, drop_succ_cons, drop_zero,
    cons_append, nil_append, length_cons, length_nil, placed, Nat.reduceAdd, Nat.zero_add,
    Vector.toList_mk, asked.2.1]
  have enough : (take data rest).length = data := by
    have total := congrArg length frame
    rw [length_append, length_map, length_range] at total
    rw [length_take]
    omega
  rw [enough, take_append_drop]
  exact Prod.ext (by omega) rfl

end Placed

/-! ## What a reply says -/

/-- What a routine left that answers a frame in the buffer of the frame. -/
inductive Answered (Correct : List UInt8 → Prop) (bytes : List UInt8) (size : Nat) :
    Nat × List UInt8 → Prop
  | silent : Answered Correct bytes size (0, bytes)
  | reply {reply : List UInt8} (correct : Correct reply) (fits : reply.length ≤ size) :
      Answered Correct bytes size (reply.length, reply ++ bytes.drop reply.length)

/-- The reply to an address request, which names us as its sender. -/
structure ArpReply (request : List UInt8) (localMac : MacAddress) (localIp : Ipv4Address)
    (reply : List UInt8) : Prop where
  length : reply.length = 42
  ethernet : decodeEthernet reply = ⟨macAt request 22, localMac, 0x0806⟩
  kinds : net16At reply 14 = 1 ∧ net16At reply 16 = 0x0800
  sizes : octetAt reply 18 = 6 ∧ octetAt reply 19 = 4
  operation : net16At reply 20 = 2
  sender : macAt reply 22 = localMac ∧ ipv4At reply 28 = localIp
  target : macAt reply 32 = macAt request 22 ∧ ipv4At reply 38 = ipv4At request 28
  asked : ipv4At request 38 = localIp

/-- The reply to an echo request: the addresses are exchanged, the identifier, the sequence
number and the data are those of the request, and both checksums verify. -/
structure EchoReply (request : List UInt8) (localMac : MacAddress) (localIp : Ipv4Address)
    (reply : List UInt8) : Prop where
  length : reply.length =
    ethernetHeaderSize + (decodeIpv4 (request.drop ethernetHeaderSize)).totalLength.toNat
  ethernet : decodeEthernet reply = ⟨macAt request 6, localMac, 0x0800⟩
  ip : ∃ checksum, decodeIpv4 (reply.drop ethernetHeaderSize) =
    { decodeIpv4 (request.drop ethernetHeaderSize) with
      ttl := 64, checksum, source := localIp,
      destination := (decodeIpv4 (request.drop ethernetHeaderSize)).source }
  asked : (decodeIpv4 (request.drop ethernetHeaderSize)).destination = localIp
  header : internetChecksum ((reply.drop ethernetHeaderSize).take ipv4HeaderSize) = 0
  type : octetAt reply 34 = 0 ∧ octetAt reply 35 = 0
  kept : reply.drop 38 = (request.take reply.length).drop 38
  message : internetChecksum (reply.drop 34) = 0

section Correct
variable {request reply : List UInt8} {localMac : MacAddress} {localIp : Ipv4Address}

theorem ArpReply.of_made (made : makeArpReply request localMac localIp = some reply) :
    ArpReply request localMac localIp reply ∧ reply.length ≤ request.length := by
  rw [makeArpReply] at made
  split at made
  · cases made
  rename_i long
  obtain ⟨octet, rest, frame, -⟩ := exists_octets long le_rfl
  obtain ⟨a, b, c, d, e, f, rfl⟩ := localMac.exists_octets
  obtain ⟨g, h, i, j, rfl⟩ := localIp.exists_octets
  simp only [frame, range, range.loop, map_cons, map_nil, cons_append, nil_append, net16At,
    macAt, ipv4At, octetAt, getD_cons_succ, getD_cons_zero, Vector.toList_mk, drop_succ_cons,
    drop_zero, take_succ_cons, take_zero, net16Octets] at made
  split at made
  · cases made
  rename_i known
  split at made
  · cases made
  rename_i asked
  simp only [not_or, Decidable.not_not] at known asked
  obtain ⟨type, hardware, protocol, sizes⟩ := known
  have whole : reply.length = 42 := by
    cases made
    rfl
  refine ⟨⟨whole, ?_, ⟨?_, ?_⟩, ⟨?_, ?_⟩, ?_, ⟨?_, ?_⟩, ⟨?_, ?_⟩, ?_⟩, by omega⟩ <;>
    simp only [frame, ← Option.some.inj made, decodeEthernet, range, range.loop, map_cons,
      map_nil, cons_append, nil_append, net16At, macAt, ipv4At, octetAt, getD_cons_succ,
      getD_cons_zero, type, hardware, protocol, sizes, asked]
  rfl

/-- The message of a reply: type, code and checksum are written over, the rest is kept. -/
theorem echo_written (checksum : UInt16) :
    overwrite (overwrite message 0 [0, 0, 0, 0]) 2 (net16Octets checksum) =
      [0, 0] ++ (net16Octets checksum ++ message.drop 4) := by
  simp only [overwrite, take_zero, nil_append]
  rfl

theorem EchoReply.of_made (made : makeIcmpEchoReply request localMac localIp = some reply) :
    EchoReply request localMac localIp reply ∧ reply.length ≤ request.length := by
  rw [makeIcmpEchoReply] at made
  dsimp only at made
  split at made
  · cases made
  split at made
  · cases made
  split at made
  · cases made
  split at made
  · cases made
  split at made
  · cases made
  rename_i long _ asked fits _
  generalize ip_eq : decodeIpv4 (request.drop ethernetHeaderSize) = ip at *
  generalize message_eq : (request.drop 34).take (ip.totalLength.toNat - ipv4HeaderSize) =
    message at *
  rw [ethernetHeaderSize] at fits
  have size : message.length = ip.totalLength.toNat - 20 := by
    rw [← message_eq, length_take, length_drop, ipv4HeaderSize]
    omega
  have bounded := ip.totalLength.toNat_lt
  rw [echo_written] at made
  obtain ⟨checksum, checksum_eq⟩ : ∃ checksum, checksum = internetChecksum
    (overwrite message 0 [0, 0, 0, 0]) := ⟨_, rfl⟩
  obtain ⟨header, header_eq⟩ : ∃ header, header = { ip with
      source := localIp, destination := ip.source, ttl := 64,
      checksum := internetChecksum (encodeIpv4 { ip with
        source := localIp, destination := ip.source, ttl := 64, checksum := 0 }) } := ⟨_, rfl⟩
  rw [← checksum_eq, ← header_eq] at made
  have reply_eq : reply = encodeEthernet ⟨macAt request 6, localMac, 0x0800⟩ ++
      (encodeIpv4 header ++ ([0, 0] ++ (net16Octets checksum ++ message.drop 4))) := by
    rw [← Option.some.inj made]
    simp only [encodeEthernet, append_assoc, decodeEthernet]
  have body : reply.drop 34 = [0, 0] ++ (net16Octets checksum ++ message.drop 4) := by
    rw [reply_eq, ← append_assoc, drop_left' (by simp [ethernetHeaderSize, ipv4HeaderSize])]
  have length : reply.length = ethernetHeaderSize + ip.totalLength.toNat := by
    rw [reply_eq]
    simp only [length_append, length_encodeEthernet, length_encodeIpv4, net16Octets, length_cons,
      length_nil, length_drop, size, ipv4HeaderSize]
    omega
  have octet (i : Nat) : octetAt reply (34 + i) = octetAt (reply.drop 34) i := by
    simp [octetAt, getD_eq_getElem?_getD]
  refine ⟨⟨by rw [ip_eq, length], by rw [reply_eq, decodeEthernet_append], ?_, ?_, ?_, ?_, ?_,
    ?_⟩, ?_⟩
  · rw [reply_eq, drop_left' (length_encodeEthernet _), decodeIpv4_append, ip_eq, header_eq]
    exact ⟨_, rfl⟩
  · rw [ip_eq]
    exact Decidable.not_not.mp asked
  · rw [reply_eq, drop_left' (length_encodeEthernet _), take_left' (length_encodeIpv4 _), header_eq]
    exact @internetChecksum_completed { ip with
      source := localIp, destination := ip.source, ttl := 64, checksum := 0 } rfl
  · rw [octet 0, octet 1, body]
    exact ⟨rfl, rfl⟩
  · have tail : reply.drop 38 = message.drop 4 := by
      rw [show 38 = 34 + 4 from rfl, ← drop_drop, body]
      rfl
    rw [tail, ← message_eq, drop_take, drop_take, drop_drop, length, ethernetHeaderSize,
      ipv4HeaderSize]
    congr 1
    omega
  · rw [body, checksum_eq]
    refine internetChecksum_field rfl _ ?_
    simp only [length_cons, length_nil, length_drop, size]
    omega
  · rw [length, ethernetHeaderSize]
    omega

end Correct

/-- Both routines leave the buffer as it was and return nothing, or write a correct reply to
the frame over its start. -/
theorem replies_answered {bytes : List UInt8} {size : Nat} (inside : size ≤ bytes.length)
    (localMac : MacAddress) (localIp : Ipv4Address) :
    Answered (ArpReply (bytes.take size) localMac localIp) bytes size
        (makeArpReplyInPlace bytes size localMac localIp) ∧
      Answered (EchoReply (bytes.take size) localMac localIp) bytes size
        (makeIcmpEchoReplyInPlace bytes size localMac localIp) := by
  have frame : (bytes.take size).length = size := by rw [length_take, Nat.min_eq_left inside]
  rw [makeArpReplyInPlace_eq inside, makeIcmpEchoReplyInPlace_eq inside]
  constructor
  · cases made : makeArpReply (bytes.take size) localMac localIp with
    | none => exact .silent
    | some reply =>
      obtain ⟨correct, fits⟩ := ArpReply.of_made made
      exact .reply correct (by omega)
  cases made : makeIcmpEchoReply (bytes.take size) localMac localIp with
  | none => exact .silent
  | some reply =>
    obtain ⟨correct, fits⟩ := EchoReply.of_made made
    exact .reply correct (by omega)

/-- An echo request with one octet of data, in a larger buffer. -/
def pingFrame : List UInt8 :=
  [0x52, 0x54, 0, 0x12, 0x34, 0x56, 2, 0, 0, 0, 0, 1, 8, 0,
    0x45, 0, 0, 29, 0, 1, 0, 0, 64, 1, 0x66, 0xcf, 10, 0, 0, 2, 10, 0, 0, 15,
    8, 0, 0x56, 0xfc, 0, 1, 0, 2, 0xa1, 0xee, 0xee]

/-- The echo request is answered by a frame of its size. -/
theorem replies_answered_ping :
    (makeIcmpEchoReplyInPlace pingFrame 43 ⟨#v[0x52, 0x54, 0, 0x12, 0x34, 0x56]⟩
        ⟨#v[10, 0, 0, 15]⟩).1 = 43 ∧
      Answered (ArpReply (pingFrame.take 43) ⟨#v[0x52, 0x54, 0, 0x12, 0x34, 0x56]⟩
          ⟨#v[10, 0, 0, 15]⟩) pingFrame 43
          (makeArpReplyInPlace pingFrame 43 ⟨#v[0x52, 0x54, 0, 0x12, 0x34, 0x56]⟩
            ⟨#v[10, 0, 0, 15]⟩) ∧
        Answered (EchoReply (pingFrame.take 43) ⟨#v[0x52, 0x54, 0, 0x12, 0x34, 0x56]⟩
          ⟨#v[10, 0, 0, 15]⟩) pingFrame 43
          (makeIcmpEchoReplyInPlace pingFrame 43 ⟨#v[0x52, 0x54, 0, 0x12, 0x34, 0x56]⟩
            ⟨#v[10, 0, 0, 15]⟩) :=
  ⟨by decide, replies_answered (by decide) _ _⟩

end Mikos.Network
