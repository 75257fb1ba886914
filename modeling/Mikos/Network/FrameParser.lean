import Mikos.Network.Tcp

/-!
# The frames that are accepted

Every length the parser uses is the sender's.  The parser is written here a second time with
reads that are checked, and the frames it accepts are described by a grammar.
-/

namespace Mikos.Network
open List

/-! ## Checked reads -/

/-- The first octets of a span; there is no outcome if it is shorter. -/
def spanFirst (bytes : List UInt8) (count : Nat) : Option (List UInt8) :=
  if count ≤ bytes.length then some (bytes.take count) else none

/-- The octets of a span from an offset on. -/
def subspan (bytes : List UInt8) (offset : Nat) : Option (List UInt8) :=
  if offset ≤ bytes.length then some (bytes.drop offset) else none

/-- So many octets of a span from an offset on. -/
def subspanOf (bytes : List UInt8) (offset count : Nat) : Option (List UInt8) := do
  spanFirst (← subspan bytes offset) count

/-- A framed option; only the first two kinds are judged by more than their length. -/
def readTcpOption (result : TcpOptions) (kind : UInt8) (option : List UInt8) :
    Option (Option TcpOptions) :=
  match kind.toNat with
  | 2 =>
    if option.length ≠ 4 ∨ result.maximumSegmentSize.isSome then some none
    else do
      let high ← option[2]?
      let low ← option[3]?
      let value := (high.toUInt16 <<< 8) ||| low.toUInt16
      if value = 0 then some none
      else some (some { result with maximumSegmentSize := some value })
  | 3 =>
    if option.length ≠ 3 ∨ result.windowScale.isSome then some none
    else do
      let scale ← option[2]?
      some (some { result with windowScale := some (min scale 14) })
  | _ => some (applyTcpOption result kind option)

/-- The loop over the options has no outcome either if it goes on after so many rounds. -/
def readTcpOptionsLoop : Nat → TcpOptions → List UInt8 → Option (Option TcpOptions)
  | 0, _, _ => none
  | rounds + 1, result, bytes =>
    if bytes = [] then some (some result)
    else do
      let kind ← bytes[0]?
      if kind = 0 then some (some result)
      else if kind = 1 then do
        let rest ← subspan bytes 1
        readTcpOptionsLoop rounds result rest
      else if bytes.length < 2 then some none
      else do
        let size ← bytes[1]?
        if size < 2 ∨ bytes.length < size.toNat then some none
        else do
          let option ← spanFirst bytes size.toNat
          let applied ← readTcpOption result kind option
          match applied with
          | none => some none
          | some next =>
            let rest ← subspan bytes option.length
            readTcpOptionsLoop rounds next rest

/-- The parser with checked reads. -/
def readTcp (bytes : List UInt8) (localIp : Ipv4Address) : Option (Option TcpView) :=
  if bytes.length < ethernetHeaderSize + ipv4HeaderSize + tcpHeaderSize then some none
  else do
    let ethernetBytes ← spanFirst bytes ethernetHeaderSize
    let ethernet := decodeEthernet ethernetBytes
    let ipBytes ← subspan bytes ethernetHeaderSize
    let headerBytes ← spanFirst ipBytes ipv4HeaderSize
    let ip := decodeIpv4 headerBytes
    let ipHeaderSize := (ip.versionIhl &&& 0x0f).toNat * 4
    let ipSize := ip.totalLength.toNat
    if ethernet.type ≠ 0x0800 ∨ ip.versionIhl >>> 4 ≠ 4 ∨ ipHeaderSize < ipv4HeaderSize ∨
        ipBytes.length < ipHeaderSize ∨ ipSize < ipHeaderSize + tcpHeaderSize ∨
        ipBytes.length < ipSize ∨ ip.protocol ≠ 6 ∨ ip.flagsFragment &&& 0x3fff ≠ 0 ∨
        ip.destination ≠ localIp then
      some none
    else do
      let summed ← spanFirst ipBytes ipHeaderSize
      if internetChecksum summed ≠ 0 then some none
      else do
        let tcpBytes ← subspanOf ipBytes ipHeaderSize (ipSize - ipHeaderSize)
        let segmentBytes ← spanFirst tcpBytes tcpHeaderSize
        let tcp := decodeTcp segmentBytes
        let headerSize := (tcp.dataOffset >>> 4).toNat * 4
        if headerSize < tcpHeaderSize ∨ tcpBytes.length < headerSize ∨
            tcpChecksum ip.source localIp tcpBytes ≠ 0 then
          some none
        else do
          let area ← subspanOf tcpBytes tcpHeaderSize (headerSize - tcpHeaderSize)
          let options ← readTcpOptionsLoop (area.length + 1) {} area
          match options with
          | none => some none
          | some options =>
            let payload ← subspan tcpBytes headerSize
            some (some ⟨ethernet, ip, tcp, payload, options⟩)

section Reads
variable {bytes : List UInt8} {offset count size : Nat}

theorem spanFirst_of_le (inside : count ≤ bytes.length) :
    spanFirst bytes count = some (bytes.take count) := if_pos inside

theorem subspan_of_le (inside : offset ≤ bytes.length) :
    subspan bytes offset = some (bytes.drop offset) := if_pos inside

theorem subspanOf_of_le (inside : offset + count ≤ bytes.length) :
    subspanOf bytes offset count = some ((bytes.drop offset).take count) := by
  rw [subspanOf, subspan_of_le (by omega)]
  exact spanFirst_of_le (by rw [length_drop]; omega)

theorem octetAt_take (inside : i < size) : octetAt (bytes.take size) i = octetAt bytes i := by
  simp [octetAt, getD_eq_getElem?_getD, inside]

theorem getElem?_eq_octetAt (inside : i < bytes.length) : bytes[i]? = some (octetAt bytes i) := by
  simp [octetAt, getD_eq_getElem?_getD, getElem?_eq_getElem inside]

theorem decodeEthernet_take :
    decodeEthernet (bytes.take ethernetHeaderSize) = decodeEthernet bytes := by
  simp (disch := decide) only [decodeEthernet, macAt, net16At, octetAt_take]

theorem decodeIpv4_take : decodeIpv4 (bytes.take ipv4HeaderSize) = decodeIpv4 bytes := by
  simp (disch := decide) only [decodeIpv4, ipv4At, net16At, octetAt_take]

theorem decodeTcp_take : decodeTcp (bytes.take tcpHeaderSize) = decodeTcp bytes := by
  simp (disch := decide) only [decodeTcp, net32At, net16At, octetAt_take]

theorem readTcpOption_eq (result : TcpOptions) (kind : UInt8) (option : List UInt8) :
    readTcpOption result kind option = some (applyTcpOption result kind option) := by
  unfold readTcpOption
  split
  next isSize =>
    rw [applyTcpOption]
    simp only [isSize]
    split
    · rfl
    next known =>
      rw [getElem?_eq_octetAt (by omega), getElem?_eq_octetAt (by omega)]
      exact (apply_ite some _ _ _).symm
  next isScale =>
    rw [applyTcpOption]
    simp only [isScale]
    split
    · rfl
    next known =>
      rw [getElem?_eq_octetAt (by omega)]
      rfl
  · rfl

/-- The loop ends: each round takes an octet at least. -/
theorem readTcpOptionsLoop_eq (enough : bytes.length ≤ fuel) (more : bytes.length < rounds) :
    readTcpOptionsLoop rounds result bytes = some (parseTcpOptionsLoop fuel result bytes) := by
  induction fuel generalizing rounds result bytes with
  | zero =>
    obtain rfl := eq_nil_of_length_eq_zero (Nat.le_zero.mp enough)
    obtain ⟨rounds, rfl⟩ := Nat.exists_eq_succ_of_ne_zero (Nat.ne_zero_of_lt more)
    rfl
  | succ fuel ih =>
    obtain ⟨rounds, rfl⟩ := Nat.exists_eq_succ_of_ne_zero (Nat.ne_zero_of_lt more)
    rw [readTcpOptionsLoop, parseTcpOptionsLoop.eq_def]
    cases bytes with
    | nil => rfl
    | cons kind rest =>
      simp only [length_cons] at enough more
      simp only [if_neg (cons_ne_nil kind rest), getElem?_cons_zero, Option.bind_eq_bind,
        Option.bind_some]
      split
      · rfl
      split
      · exact ih (show rest.length ≤ fuel by omega) (show rest.length < rounds by omega)
      cases rest with
      | nil => rfl
      | cons size tail =>
        rw [if_neg (by simp)]
        simp only [getElem?_cons_succ, getElem?_cons_zero, Option.bind_some]
        split
        · rfl
        rename_i framed
        rw [not_or, Nat.not_lt, UInt8.lt_iff_toNat_lt] at framed
        simp only [length_cons, UInt8.reduceToNat] at framed enough more
        rw [spanFirst_of_le framed.2, Option.bind_some, readTcpOption_eq, Option.bind_some]
        cases applyTcpOption result kind ((kind :: size :: tail).take size.toNat) with
        | none => rfl
        | some next =>
          have whole : ((kind :: size :: tail).take size.toNat).length = size.toNat := by
            rw [length_take, length_cons, length_cons]
            omega
          simp only [whole]
          rw [subspan_of_le framed.2]
          have shorter := length_drop (i := size.toNat) (l := kind :: size :: tail)
          simp only [length_cons] at shorter
          exact ih (by omega) (by omega)

/-- No read is outside of the frame, and the loop over the options ends. -/
theorem readTcp_eq (localIp : Ipv4Address) :
    readTcp bytes localIp = some (parseTcp bytes localIp) := by
  unfold readTcp parseTcp
  split
  · rfl
  rename_i long
  have rest : (bytes.drop ethernetHeaderSize).length = bytes.length - ethernetHeaderSize :=
    length_drop
  rw [spanFirst_of_le (by omega), subspan_of_le (by omega)]
  simp only [Option.bind_eq_bind, Option.bind_some, decodeEthernet_take]
  rw [spanFirst_of_le (by omega)]
  simp only [Option.bind_some, decodeIpv4_take]
  generalize decodeIpv4 (bytes.drop ethernetHeaderSize) = ip
  generalize bytes.drop ethernetHeaderSize = ipBytes at rest ⊢
  generalize (ip.versionIhl &&& 0x0f).toNat * 4 = ipHeaderSize
  simp only [← or_assoc]
  split
  next refused => rw [if_pos (.inl refused)]
  rename_i known
  simp only [not_or, Nat.not_lt] at known
  rw [spanFirst_of_le (by omega), Option.bind_some]
  split
  next damaged => rw [if_pos (.inr damaged)]
  rename_i verified
  rw [if_neg (not_or.mpr ⟨by simpa only [not_or, Nat.not_lt] using known, verified⟩),
    subspanOf_of_le (by omega), Option.bind_some]
  have whole : ((ipBytes.drop ipHeaderSize).take (ip.totalLength.toNat -
      ipHeaderSize)).length = ip.totalLength.toNat - ipHeaderSize := by
    rw [length_take, length_drop]
    omega
  generalize (ipBytes.drop ipHeaderSize).take (ip.totalLength.toNat - ipHeaderSize) =
    tcpBytes at whole ⊢
  rw [spanFirst_of_le (by omega), Option.bind_some, decodeTcp_take]
  split
  · rfl
  rename_i fits
  simp only [not_or, Nat.not_lt] at fits
  rw [subspanOf_of_le (by omega), Option.bind_some,
    readTcpOptionsLoop_eq (Nat.le_refl _) (Nat.lt_succ_self _), Option.bind_some,
    parseTcpOptions]
  generalize parseTcpOptionsLoop _ {} _ = options
  cases options with
  | none => rfl
  | some options =>
    rw [subspan_of_le fits.1.2]
    rfl

end Reads

/-! ## The grammar of options -/

/-- The data of a record by its kind.  A record of an unknown kind holds anything. -/
def RecordForm (kind : UInt8) (data : List UInt8) : Prop :=
  match kind.toNat with
  | 2 => data.length = 2 ∧ net16At data 0 ≠ 0
  | 3 => data.length = 1
  | 4 => data.length = 0
  | 5 => ∃ blocks, 1 ≤ blocks ∧ data.length = 8 * blocks
  | 8 => data.length = 8
  | _ => True

/-- The maximum segment size and the window scale. -/
def GivenOnce (kind : UInt8) : Prop := kind.toNat = 2 ∨ kind.toNat = 3

/-- An area of options behind records of some kinds. -/
inductive OptionArea : List UInt8 → List UInt8 → Prop
  | empty : OptionArea seen []
  | endOfList (padding : List UInt8) : OptionArea seen (0 :: padding)
  | noOperation : OptionArea seen rest → OptionArea seen (1 :: rest)
  | record {data : List UInt8} {kind size : UInt8} (isRecord : kind ≠ 0 ∧ kind ≠ 1)
      (framed : size.toNat = data.length + 2) (form : RecordForm kind data)
      (fresh : GivenOnce kind → kind ∉ seen) :
      OptionArea (kind :: seen) rest → OptionArea seen (kind :: size :: (data ++ rest))

section Options
variable {seen bytes tail : List UInt8} {kind size : UInt8} {result : TcpOptions}

theorem optionArea_noOperation : OptionArea seen (1 :: tail) ↔ OptionArea seen tail := by
  constructor
  · intro area
    cases area with
    | noOperation rest => exact rest
    | record isRecord => exact absurd rfl isRecord.2
  · exact .noOperation

theorem optionArea_record (isRecord : kind ≠ 0 ∧ kind ≠ 1) :
    OptionArea seen (kind :: size :: tail) ↔
      (2 ≤ size.toNat ∧ size.toNat ≤ tail.length + 2) ∧
        (RecordForm kind (tail.take (size.toNat - 2)) ∧ (GivenOnce kind → kind ∉ seen)) ∧
        OptionArea (kind :: seen) (tail.drop (size.toNat - 2)) := by
  constructor
  · intro area
    cases area with
    | endOfList => exact absurd rfl isRecord.1
    | noOperation => exact absurd rfl isRecord.2
    | record _ framed form fresh rest =>
      rw [framed, Nat.add_sub_cancel, take_left, drop_left, length_append]
      exact ⟨⟨by omega, by omega⟩, ⟨form, fresh⟩, rest⟩
  rintro ⟨framed, ⟨form, fresh⟩, rest⟩
  rw [← take_append_drop (size.toNat - 2) tail]
  refine .record isRecord ?_ form fresh rest
  rw [length_take]
  omega

/-- What the parser has noted of the records before. -/
structure Noted (result : TcpOptions) (seen : List UInt8) : Prop where
  size : result.maximumSegmentSize.isSome = true ↔ 2 ∈ seen
  scale : result.windowScale.isSome = true ↔ 3 ∈ seen

theorem Noted.skip (noted : Noted result seen) (other : ¬ GivenOnce kind) :
    Noted result (kind :: seen) := by
  refine ⟨noted.size.trans ⟨mem_cons_of_mem kind, fun mem => ?_⟩,
    noted.scale.trans ⟨mem_cons_of_mem kind, fun mem => ?_⟩⟩
  · rcases mem_cons.mp mem with rfl | older
    · exact absurd (.inl rfl) other
    · exact older
  · rcases mem_cons.mp mem with rfl | older
    · exact absurd (.inr rfl) other
    · exact older

theorem Noted.skip_spec (noted : Noted result seen) (other : ¬ GivenOnce kind) [Decidable refused]
    (same : form ↔ ¬ refused) : (form ∧ (GivenOnce kind → kind ∉ seen) ∧
        ∃ next, (if refused then none else some result) = some next ∧ Noted next (kind :: seen)) ∨
      ¬ (form ∧ (GivenOnce kind → kind ∉ seen)) ∧
        (if refused then none else some result) = none := by
  by_cases judged : refused
  · exact .inr ⟨fun wrong => same.mp wrong.1 judged, if_pos judged⟩
  · exact .inl ⟨same.mpr judged, fun once => absurd once other, result, if_neg judged,
      noted.skip other⟩

/-- One record: it is applied if it has the form of its kind and is not given twice. -/
theorem applyTcpOption_spec (noted : Noted result seen) (kind size : UInt8) (data : List UInt8) :
    (RecordForm kind data ∧ (GivenOnce kind → kind ∉ seen) ∧
        ∃ next, applyTcpOption result kind (kind :: size :: data) = some next ∧
          Noted next (kind :: seen)) ∨
      ¬ (RecordForm kind data ∧ (GivenOnce kind → kind ∉ seen)) ∧
        applyTcpOption result kind (kind :: size :: data) = none := by
  rw [applyTcpOption]
  have length : (kind :: size :: data).length = data.length + 2 := rfl
  have value : net16At (kind :: size :: data) 2 = net16At data 0 := rfl
  split
  next isSize =>
    obtain rfl : kind = 2 := UInt8.toNat_inj.mp isSize
    have once : GivenOnce 2 := .inl rfl
    simp only [RecordForm, isSize, length, value, once, forall_const, noted.size]
    by_cases seenBefore : 2 ∈ seen
    · exact .inr ⟨fun wrong => wrong.2 seenBefore, if_pos (.inr seenBefore)⟩
    by_cases whole : data.length = 2
    case neg => exact .inr ⟨fun wrong => whole wrong.1.1, if_pos (.inl (by omega))⟩
    rw [if_neg (by simp [whole, seenBefore])]
    by_cases zero : net16At data 0 = 0
    · exact .inr ⟨fun wrong => wrong.1.2 zero, if_pos zero⟩
    rw [if_neg zero]
    exact .inl ⟨⟨whole, zero⟩, seenBefore, _, rfl, by simp, by simp [noted.scale]⟩
  next isScale =>
    obtain rfl : kind = 3 := UInt8.toNat_inj.mp isScale
    have once : GivenOnce 3 := .inr rfl
    simp only [RecordForm, isScale, length, once, forall_const, noted.scale]
    by_cases seenBefore : 3 ∈ seen
    · exact .inr ⟨fun wrong => wrong.2 seenBefore, if_pos (.inr seenBefore)⟩
    by_cases whole : data.length = 1
    case neg => exact .inr ⟨fun wrong => whole wrong.1, if_pos (.inl (by omega))⟩
    rw [if_neg (by simp [whole, seenBefore])]
    exact .inl ⟨whole, seenBefore, _, rfl, by simp [noted.size], by simp⟩
  next isPermitted =>
    have other : ¬ GivenOnce kind := by rw [GivenOnce]; omega
    simpa only [RecordForm, isPermitted] using noted.skip_spec other (by simp)
  next isBlocks =>
    have other : ¬ GivenOnce kind := by rw [GivenOnce]; omega
    simp only [RecordForm, isBlocks]
    refine noted.skip_spec other ⟨?_, fun judged => ?_⟩
    · rintro ⟨blocks, some, whole⟩
      omega
    · exact ⟨data.length / 8, by omega, by omega⟩
  next isStamps =>
    have other : ¬ GivenOnce kind := by rw [GivenOnce]; omega
    simpa only [RecordForm, isStamps] using noted.skip_spec other (by simp)
  rename_i notSize notScale notPermitted notBlocks notStamps
  have other : ¬ GivenOnce kind := fun once => once.elim notSize notScale
  refine .inl ⟨?_, fun once => absurd once other, result, rfl, noted.skip other⟩
  rw [RecordForm]
  split <;> trivial

/-- The options that are accepted are those of the grammar. -/
theorem parseTcpOptionsLoop_isSome (enough : bytes.length ≤ fuel) (noted : Noted result seen) :
    (parseTcpOptionsLoop fuel result bytes).isSome = true ↔ OptionArea seen bytes := by
  induction fuel generalizing result seen bytes with
  | zero =>
    obtain rfl := eq_nil_of_length_eq_zero (Nat.le_zero.mp enough)
    exact iff_of_true rfl .empty
  | succ fuel ih =>
    rw [parseTcpOptionsLoop.eq_def]
    cases bytes with
    | nil => exact iff_of_true rfl .empty
    | cons kind rest =>
      dsimp only
      simp only [length_cons] at enough
      split
      next zero =>
        rw [zero]
        exact iff_of_true rfl (.endOfList rest)
      rename_i notZero
      split
      next one =>
        rw [one, optionArea_noOperation]
        exact ih (by omega) noted
      rename_i notOne
      cases rest with
      | nil =>
        refine iff_of_false (by simp) fun area => ?_
        cases area with
        | endOfList => exact notZero rfl
        | noOperation => exact notOne rfl
      | cons size tail =>
        simp only [length_cons] at enough
        rw [optionArea_record ⟨notZero, notOne⟩]
        dsimp only
        split
        next refused =>
          refine iff_of_false (by simp) fun framed => ?_
          rw [UInt8.lt_iff_toNat_lt, length_cons, length_cons] at refused
          simp only [UInt8.reduceToNat] at refused
          omega
        rename_i framed
        rw [not_or, Nat.not_lt, UInt8.lt_iff_toNat_lt] at framed
        simp only [length_cons, UInt8.reduceToNat] at framed
        obtain ⟨data, whole⟩ : ∃ data, size.toNat = data + 2 :=
          ⟨_, (Nat.sub_add_cancel (by omega)).symm⟩
        rw [whole, Nat.add_sub_cancel, take_succ_cons, take_succ_cons, drop_succ_cons,
          drop_succ_cons]
        have bounds : 2 ≤ data + 2 ∧ data + 2 ≤ tail.length + 2 := by omega
        rcases applyTcpOption_spec noted kind size (tail.take data) with
          ⟨form, fresh, next, applied, renoted⟩ | ⟨wrong, refused⟩
        · simp only [applied, bounds, form, true_and, and_true]
          rw [ih (by rw [length_drop]; omega) renoted]
          exact ⟨fun rest => ⟨fresh, rest⟩, And.right⟩
        · simp only [refused]
          exact iff_of_false (by simp) fun area => wrong area.2.1

theorem parseTcpOptions_isSome : (parseTcpOptions bytes).isSome = true ↔ OptionArea [] bytes :=
  parseTcpOptionsLoop_isSome (Nat.le_refl _) ⟨by simp, by simp⟩

end Options

/-! ## The accepted frames -/

section Frames
variable (bytes : List UInt8)

def frameIp : Ipv4Header := decodeIpv4 (bytes.drop ethernetHeaderSize)

def frameIpHeaderSize : Nat := ((frameIp bytes).versionIhl &&& 0x0f).toNat * 4

/-- What lies between the internet header and the total length; padding comes after it. -/
def frameSegment : List UInt8 :=
  (bytes.take (ethernetHeaderSize + (frameIp bytes).totalLength.toNat)).drop
    (ethernetHeaderSize + frameIpHeaderSize bytes)

def frameTcpHeaderSize : Nat := ((decodeTcp (frameSegment bytes)).dataOffset >>> 4).toNat * 4

/-- A whole and undamaged segment for an address. -/
structure TcpFrame (localIp : Ipv4Address) : Prop where
  type : (decodeEthernet bytes).type = 0x0800
  version : (frameIp bytes).versionIhl >>> 4 = 4
  header : ipv4HeaderSize ≤ frameIpHeaderSize bytes
  total : ethernetHeaderSize + (frameIp bytes).totalLength.toNat ≤ bytes.length
  protocol : (frameIp bytes).protocol = 6
  unfragmented : (frameIp bytes).flagsFragment &&& 0x3fff = 0
  addressed : (frameIp bytes).destination = localIp
  headerChecksum :
    internetChecksum ((bytes.drop ethernetHeaderSize).take (frameIpHeaderSize bytes)) = 0
  offset : tcpHeaderSize ≤ frameTcpHeaderSize bytes ∧
    frameTcpHeaderSize bytes ≤ (frameSegment bytes).length
  segmentChecksum : tcpChecksum (frameIp bytes).source localIp (frameSegment bytes) = 0
  options : OptionArea [] (((frameSegment bytes).drop tcpHeaderSize).take
    (frameTcpHeaderSize bytes - tcpHeaderSize))

theorem frameSegment_eq : ((bytes.drop ethernetHeaderSize).drop (frameIpHeaderSize bytes)).take
    ((frameIp bytes).totalLength.toNat - frameIpHeaderSize bytes) = frameSegment bytes := by
  rw [frameSegment, drop_take, drop_drop, Nat.add_sub_add_left]

variable {bytes} {localIp : Ipv4Address}

theorem TcpFrame.of_parsed (parsed : parseTcp bytes localIp = some view) : TcpFrame bytes localIp ∧
      view.payload = (frameSegment bytes).drop (frameTcpHeaderSize bytes) := by
  simp only [parseTcp] at parsed
  split at parsed
  · cases parsed
  split at parsed
  · cases parsed
  rename_i long known
  have segment := frameSegment_eq bytes
  simp only [frameIpHeaderSize, frameIp] at segment
  rw [segment] at parsed
  split at parsed
  · cases parsed
  split at parsed
  · cases parsed
  rename_i fits _ options parsedOptions
  cases parsed
  simp only [not_or, Decidable.not_not, Nat.not_lt, length_drop] at known fits
  obtain ⟨type, version, header, -, -, total, protocol, fragment, address, sum⟩ := known
  refine ⟨⟨type, version, header, ?_, protocol, fragment, address, sum, ⟨fits.1, fits.2.1⟩,
    fits.2.2, parseTcpOptions_isSome.mp ?_⟩, rfl⟩
  · rw [frameIp]
    omega
  · exact Option.isSome_of_mem parsedOptions

theorem TcpFrame.accepted (frame : TcpFrame bytes localIp) :
    (parseTcp bytes localIp).isSome = true := by
  have sizes : ethernetHeaderSize = 14 ∧ ipv4HeaderSize = 20 ∧ tcpHeaderSize = 20 := ⟨rfl, rfl, rfl⟩
  have whole : (frameSegment bytes).length =
      (frameIp bytes).totalLength.toNat - frameIpHeaderSize bytes := by
    have total := frame.total
    rw [frameSegment, length_drop, length_take]
    omega
  obtain ⟨type, version, header, total, protocol, fragment, address, sum, ⟨lower, upper⟩,
    segmentSum, options⟩ := frame
  have segment := frameSegment_eq bytes
  rw [parseTcp, if_neg (by omega)]
  dsimp only
  rw [← frameIp, ← frameIpHeaderSize, segment, if_neg, if_neg]
  · rw [← frameTcpHeaderSize]
    have taken := parseTcpOptions_isSome.mpr options
    cases parsed : parseTcpOptions _ with
    | some _ => rfl
    | none =>
      rw [parsed] at taken
      cases taken
  · simp only [not_or, Decidable.not_not, Nat.not_lt]
    exact ⟨lower, upper, segmentSum⟩
  · simp only [not_or, Decidable.not_not, Nat.not_lt, length_drop]
    exact ⟨type, version, header, by omega, by omega, by omega, protocol, fragment, address, sum⟩

variable (bytes localIp) in
/-- The parser never reads outside of a frame and its loop ends, it accepts the frames of the
grammar, and the payload is what follows the header up to the total length. -/
theorem parseTcp_accepts :
    readTcp bytes localIp = some (parseTcp bytes localIp) ∧
      ((parseTcp bytes localIp).isSome = true ↔ TcpFrame bytes localIp) ∧
      ∀ view, parseTcp bytes localIp = some view →
        view.payload = (bytes.take (ethernetHeaderSize + (frameIp bytes).totalLength.toNat)).drop
          (ethernetHeaderSize + frameIpHeaderSize bytes + frameTcpHeaderSize bytes) := by
  refine ⟨readTcp_eq localIp, ⟨fun accepted => ?_, TcpFrame.accepted⟩, fun view parsed => ?_⟩
  · obtain ⟨view, parsed⟩ := Option.isSome_iff_exists.mp accepted
    exact (TcpFrame.of_parsed parsed).1
  · rw [(TcpFrame.of_parsed parsed).2, frameSegment, drop_drop]

end Frames

/-- A first segment that offers a segment size and carries one octet, with padding. -/
def offerFrame : List UInt8 :=
  [0x52, 0x54, 0, 0x12, 0x34, 0x56, 2, 0, 0, 0, 0, 1, 8, 0,
    0x45, 0, 0, 45, 0, 1, 64, 0, 64, 6, 0x26, 0xba, 10, 0, 0, 2, 10, 0, 0, 15,
    0x9c, 64, 0, 80, 0, 0, 0, 1, 0, 0, 0, 0, 0x60, 2, 0xfa, 0xf0, 0x8b, 0x92, 0, 0,
    2, 4, 5, 0xb4, 0x61, 0]

/-- The segment is accepted, and the padding is not part of its data. -/
theorem parseTcp_accepts_offer :
    ∃ view, parseTcp offerFrame ⟨#v[10, 0, 0, 15]⟩ = some view ∧ view.payload = [0x61] :=
  ⟨_, (Option.some_get (by decide)).symm,
    ((parseTcp_accepts offerFrame ⟨#v[10, 0, 0, 15]⟩).2.2 _
      (Option.some_get (by decide)).symm).trans (by decide)⟩

end Mikos.Network
