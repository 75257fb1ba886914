import Mikos.Library.LittleEndian

/-!
# The sector cache of a block device

Byte ranges of a device that is read and written in whole sectors.  Whole sectors go
straight between the device and an aligned buffer; everything else goes through a cache
of one sector, which a write stores before it counts as written.  Every call to the
device may fail.
-/

namespace Mikos.Storage
open Library

/-! ## The device -/

/-- How a device answers one call.  A failed read leaves anything in the buffer, and a
failed write stores any of its sectors. -/
inductive Answer where
  | done
  | failed (garbage : Bytes) (stored : Nat → Bool)

/-- A device with its contents, the number of the calls made to it, and its answers to
the calls by their number. -/
structure SectorDevice where
  sectorSize : Nat
  sectorCount : Nat
  bytes : Bytes
  answers : Nat → Answer
  calls : Nat := 0
  positive : 0 < sectorSize
  sectorSize_lt : sectorSize < 2 ^ 32
  sectorCount_lt : sectorCount < 2 ^ 64

namespace SectorDevice
variable (device : SectorDevice)

def answer : Answer := device.answers device.calls

def called : SectorDevice := { device with calls := device.calls + 1 }

def capacity : Nat := device.sectorCount * device.sectorSize

def readSectors (sector : Nat) (memory : Bytes) (output size : Nat) : Bool × SectorDevice × Bytes :=
  match device.answer with
  | .done =>
    (true, device.called, splice memory output size fun position =>
      device.bytes (sector * device.sectorSize + position))
  | .failed garbage _ => (false, device.called, splice memory output size garbage)

def writeSectors (sector : Nat) (memory : Bytes) (input size : Nat) : Bool × SectorDevice :=
  let start := sector * device.sectorSize
  let given : Bytes := fun position => memory (input + position)
  match device.answer with
  | .done => (true, { device.called with bytes := splice device.bytes start size given })
  | .failed _ stored =>
    -- each sector keeps its old bytes or has the new ones
    let mixed : Bytes := fun position =>
      if stored (position / device.sectorSize) then given position
      else device.bytes (start + position)
    (false, { device.called with bytes := splice device.bytes start size mixed })

def readSector (sector : Nat) (buffer : Bytes) : Bool × SectorDevice × Bytes :=
  device.readSectors sector buffer 0 device.sectorSize

def writeSector (sector : Nat) (buffer : Bytes) : Bool × SectorDevice :=
  device.writeSectors sector buffer 0 device.sectorSize

def flush : Bool × SectorDevice :=
  match device.answer with
  | .done => (true, device.called)
  | .failed _ _ => (false, device.called)

end SectorDevice

/-! ## The reader -/

structure SectorReader where
  device : SectorDevice
  cache : Bytes := zeroBytes
  cachedSector : Nat := 0
  cacheValid : Bool := false

namespace SectorReader
variable (reader : SectorReader)

def sectorSize : Nat := reader.device.sectorSize

/-- The addressable bytes, as many as fit in 64 bits. -/
def size : Nat :=
  if (2 ^ 64 - 1) / reader.sectorSize < reader.device.sectorCount then 2 ^ 64 - 1
  else reader.device.sectorCount * reader.sectorSize

def invalidate : SectorReader := { reader with cacheValid := false }

/-- Bring a sector into the cache. -/
def fetch (sector : Nat) : Bool × SectorReader :=
  if ¬ reader.cacheValid ∨ reader.cachedSector ≠ sector then
    match reader.device.readSector sector reader.cache with
    | (false, device, cache) => (false, { reader with device, cache, cacheValid := false })
    | (true, device, cache) =>
      (true, { device, cache, cachedSector := sector, cacheValid := true })
  else
    (true, reader)

/-- Whole sectors from or to an aligned buffer do not go through the cache. -/
def Direct (offset address count : Nat) : Prop :=
  offset % reader.sectorSize = 0 ∧ reader.sectorSize ≤ count ∧ address % 8 = 0
deriving Decidable

/-- The part of a request that whole sectors serve. -/
def direct (count : Nat) : Nat := count - count % reader.sectorSize

/-- The part of a request that lies in its first sector. -/
def chunk (offset count : Nat) : Nat := min (reader.sectorSize - offset % reader.sectorSize) count

/-- One turn of the loop of `read`: the bytes it has delivered, unless the device failed. -/
def readPart (memory : Bytes) (offset output count : Nat) : Option Nat × SectorReader × Bytes :=
  let sector := offset / reader.sectorSize
  let within := offset % reader.sectorSize
  if reader.Direct offset output count then
    match reader.device.readSectors sector memory output (reader.direct count) with
    | (false, device, memory) => (none, { reader with device, cacheValid := false }, memory)
    | (true, device, memory) =>
      (some (reader.direct count), { reader with device, cacheValid := false }, memory)
  else
    match reader.fetch sector with
    | (false, reader) => (none, reader, memory)
    | (true, fetched) =>
      (some (reader.chunk offset count), fetched,
        splice memory output (reader.chunk offset count) fun position =>
          fetched.cache (within + position))

/-- The loop of `read`; every turn delivers at least one byte, so that `count` turns are
enough. -/
def readLoop : Nat → SectorReader → Bytes → Nat → Nat → Nat → Bool × SectorReader × Bytes
  | 0, reader, memory, _, _, count => (count == 0, reader, memory)
  | turns + 1, reader, memory, offset, output, count =>
    if count = 0 then (true, reader, memory)
    else
      match reader.readPart memory offset output count with
      | (none, reader, memory) => (false, reader, memory)
      | (some done, reader, memory) =>
        readLoop turns reader memory (offset + done) (output + done) (count - done)

/-- Requests that are refused: a null buffer, or bytes the device does not have. -/
def Refused (offset address count : Nat) : Prop :=
  (address = 0 ∧ count ≠ 0) ∨ reader.size < offset ∨ reader.size - offset < count
deriving Decidable

def read (memory : Bytes) (offset : UInt64) (output : Nat) (count : UInt32) :
    Bool × SectorReader × Bytes :=
  if reader.Refused offset.toNat output count.toNat then (false, reader, memory)
  else readLoop count.toNat reader memory offset.toNat output count.toNat

/-- One turn of the loop of `write`: the bytes it has stored, unless the device failed. -/
def writePart (memory : Bytes) (offset input count : Nat) : Option Nat × SectorReader :=
  let sector := offset / reader.sectorSize
  let within := offset % reader.sectorSize
  if reader.Direct offset input count then
    match reader.device.writeSectors sector memory input (reader.direct count) with
    | (false, device) => (none, { reader with device, cacheValid := false })
    | (true, device) =>
      (some (reader.direct count), { reader with device, cacheValid := false })
  else
    match reader.fetch sector with
    | (false, reader) => (none, reader)
    | (true, fetched) =>
      let cache := splice fetched.cache within (reader.chunk offset count) fun position =>
        memory (input + position)
      match fetched.device.writeSector sector cache with
      | (false, device) => (none, { fetched with device, cache, cacheValid := false })
      | (true, device) => (some (reader.chunk offset count), { fetched with device, cache })

def writeLoop : Nat → SectorReader → Bytes → Nat → Nat → Nat → Bool × SectorReader
  | 0, reader, _, _, _, count => (count == 0, reader)
  | turns + 1, reader, memory, offset, input, count =>
    if count = 0 then (true, reader)
    else
      match reader.writePart memory offset input count with
      | (none, reader) => (false, reader)
      | (some done, reader) =>
        writeLoop turns reader memory (offset + done) (input + done) (count - done)

def write (memory : Bytes) (offset : UInt64) (input : Nat) (count : UInt32) : Bool × SectorReader :=
  if reader.Refused offset.toNat input count.toNat then (false, reader)
  else writeLoop count.toNat reader memory offset.toNat input count.toNat

def flush : Bool × SectorReader :=
  let (done, device) := reader.device.flush
  (done, { reader with device })

/-- `read` of a span, whose length may not fit the pointer version. -/
def readSpan (memory : Bytes) (offset : UInt64) (output length : Nat) :
    Bool × SectorReader × Bytes :=
  if length ≤ 2 ^ 32 - 1 then reader.read memory offset output (UInt32.ofNat length)
  else (false, reader, memory)

def writeSpan (memory : Bytes) (offset : UInt64) (input length : Nat) : Bool × SectorReader :=
  if length ≤ 2 ^ 32 - 1 then reader.write memory offset input (UInt32.ofNat length)
  else (false, reader)

end SectorReader

/-! ## Transfers -/

/-- The outcome of copying `count` bytes of `source` from `start` on into `target` at
`offset`: they are there and nothing else changed, or after a failure nothing outside
their range changed. -/
def Transferred (source : Bytes) (start : Nat) (target : Bytes) (offset count : Nat)
    (done : Bool) (after : Bytes) : Prop :=
  if done then after = splice target offset count fun position => source (start + position)
  else ∀ position, position < offset ∨ offset + count ≤ position → after position = target position

section Transferred
variable {source target middle after : Bytes} {start offset count first : Nat} {done : Bool}

theorem transferred_splice :
    Transferred source start target offset count true
      (splice target offset count fun i => source (start + i)) := by
  rw [Transferred, if_pos rfl]

theorem transferred_failed (inside : size ≤ count) :
    Transferred source start target offset count false (splice target offset size garbage) := by
  rw [Transferred, if_neg Bool.false_ne_true]
  intro i outside
  exact splice_outside (by omega)

theorem transferred_unchanged : Transferred source start target offset count false target := by
  rw [Transferred, if_neg Bool.false_ne_true]
  exact fun _ _ => rfl

theorem transferred_zero : Transferred source start target offset 0 true target := by
  rw [Transferred, if_pos rfl]
  funext i
  exact (splice_outside (by omega)).symm

theorem Transferred.outside (transfer : Transferred source start target offset count done after)
    (outside : i < offset ∨ offset + count ≤ i) : after i = target i := by
  cases done with
  | true =>
    rw [Transferred, if_pos rfl] at transfer
    rw [transfer, splice_outside outside]
  | false =>
    rw [Transferred, if_neg Bool.false_ne_true] at transfer
    exact transfer i outside

theorem Transferred.widen (failed : Transferred source start target offset first false after)
    (inside : first ≤ count) : Transferred source start target offset count false after := by
  rw [Transferred, if_neg Bool.false_ne_true]
  exact fun i outside => failed.outside (by omega)

theorem Transferred.trans (inside : first ≤ count)
    (head : Transferred source start target offset first true middle)
    (rest : Transferred source (start + first) middle (offset + first) (count - first) done after) :
    Transferred source start target offset count done after := by
  cases done with
  | true =>
    rw [Transferred, if_pos rfl] at head rest ⊢
    rw [rest, head, splice_append, Nat.add_sub_cancel' inside]
  | false =>
    rw [Transferred, if_neg Bool.false_ne_true]
    intro i outside
    exact (rest.outside (by omega)).trans (head.outside (by omega))

end Transferred

namespace SectorDevice
variable (device : SectorDevice) (sector : Nat) (memory : Bytes) (address size : Nat)

theorem readSectors_spec : ∃ done after memory',
    device.readSectors sector memory address size = (done, after, memory') ∧ after = device.called ∧
      Transferred device.bytes (sector * device.sectorSize) memory address size done memory' := by
  unfold readSectors
  cases device.answer with
  | done => exact ⟨true, _, _, rfl, rfl, transferred_splice⟩
  | failed garbage stored => exact ⟨false, _, _, rfl, rfl, transferred_failed (Nat.le_refl _)⟩

/-- A write moves the memory's bytes; where it fails, every byte is old or new. -/
theorem writeSectors_spec : ∃ done after,
    device.writeSectors sector memory address size = (done, after) ∧
      after.sectorSize = device.sectorSize ∧
      Transferred memory address device.bytes (sector * device.sectorSize) size done after.bytes ∧
      ∀ i, after.bytes i = device.bytes i ∨
        after.bytes i = splice device.bytes (sector * device.sectorSize) size
          (fun i => memory (address + i)) i := by
  unfold writeSectors
  cases device.answer with
  | done => exact ⟨true, _, rfl, rfl, transferred_splice, fun _ => .inr rfl⟩
  | failed garbage stored =>
    refine ⟨false, _, rfl, rfl, ?_, fun i => ?_⟩
    · dsimp only [called]
      exact transferred_failed (Nat.le_refl size)
    dsimp only
    rw [splice, splice]
    split
    next inside =>
      split
      · exact .inr rfl
      · exact .inl (by rw [Nat.add_sub_cancel' inside.1])
    · exact .inl rfl

end SectorDevice

namespace SectorReader

/-! ## One turn of a loop -/

section Parts
variable (reader : SectorReader) (offset count : Nat)

theorem direct_le : reader.direct count ≤ count := Nat.sub_le ..

theorem direct_pos (enough : reader.sectorSize ≤ count) : 0 < reader.direct count := by
  have small : count % reader.sectorSize < reader.sectorSize :=
    Nat.mod_lt count reader.device.positive
  rw [direct]
  omega

theorem chunk_le : reader.chunk offset count ≤ count := Nat.min_le_right ..

theorem within_add_chunk_le :
    offset % reader.sectorSize + reader.chunk offset count ≤ reader.sectorSize := by
  have small : offset % reader.sectorSize < reader.sectorSize :=
    Nat.mod_lt offset reader.device.positive
  rw [chunk]
  omega

theorem chunk_pos (wanted : 0 < count) : 0 < reader.chunk offset count := by
  have small : offset % reader.sectorSize < reader.sectorSize :=
    Nat.mod_lt offset reader.device.positive
  rw [chunk]
  omega

theorem sector_start_add :
    offset / reader.sectorSize * reader.sectorSize + offset % reader.sectorSize = offset :=
  Nat.div_add_mod' ..

theorem sector_start (aligned : offset % reader.sectorSize = 0) :
    offset / reader.sectorSize * reader.sectorSize = offset :=
  Nat.div_mul_cancel (Nat.dvd_of_mod_eq_zero aligned)

end Parts

/-- A valid cache holds the bytes of its sector. -/
def Coherent (reader : SectorReader) : Prop :=
  reader.cacheValid → ∀ position < reader.sectorSize,
    reader.cache position = reader.device.bytes (reader.cachedSector * reader.sectorSize + position)

variable {reader : SectorReader} {offset address count sector : Nat} {memory : Bytes}

theorem coherent_of_invalid (invalid : reader.cacheValid = false) : reader.Coherent := by
  intro valid
  rw [invalid] at valid
  cases valid

structure Fetched (sector : Nat) (before : SectorReader) (done : Bool) (after : SectorReader) :
    Prop where
  bytes : after.device.bytes = before.device.bytes
  sectorSize : after.sectorSize = before.sectorSize
  coherent : after.Coherent
  cached : done → after.cacheValid ∧ after.cachedSector = sector

variable (sector) in
theorem fetch_spec (coherent : reader.Coherent) :
    Fetched sector reader (reader.fetch sector).1 (reader.fetch sector).2 := by
  unfold fetch
  split
  next stale =>
    obtain ⟨done, device, cache, read, same, transfer⟩ :=
      reader.device.readSectors_spec sector reader.cache 0 reader.device.sectorSize
    rw [SectorDevice.readSector, read]
    subst same
    cases done with
    | false => exact ⟨rfl, rfl, coherent_of_invalid rfl, fun impossible => nomatch impossible⟩
    | true =>
      refine ⟨rfl, rfl, ?_, fun _ => ⟨rfl, rfl⟩⟩
      intro _ i inside
      change i < reader.device.sectorSize at inside
      rw [Transferred, if_pos rfl] at transfer
      change cache i = reader.device.bytes (sector * reader.device.sectorSize + i)
      rw [transfer, splice_inside (by omega), Nat.sub_zero]
  next fresh =>
    rw [not_or, not_not, not_not] at fresh
    exact ⟨rfl, rfl, coherent, fun _ => fresh⟩

/-- A cached sector shows the device from any place of the sector on. -/
theorem Fetched.cache_eq (fetched : Fetched (offset / reader.sectorSize) reader true after)
    (inside : offset % reader.sectorSize + i < reader.sectorSize) :
    after.cache (offset % reader.sectorSize + i) = reader.device.bytes (offset + i) := by
  obtain ⟨valid, same⟩ := fetched.cached rfl
  rw [fetched.coherent valid _ (by rw [fetched.sectorSize]; exact inside), fetched.bytes, same,
    fetched.sectorSize, ← Nat.add_assoc, sector_start_add]

/-- What a turn of the loop of `read` does. -/
inductive ReadPart (before : SectorReader) (memory : Bytes) (offset output count : Nat) :
    Option Nat × SectorReader × Bytes → Prop where
  | failed (bytes : after.device.bytes = before.device.bytes) (coherent : after.Coherent)
      (transfer : Transferred before.device.bytes offset memory output count false memory') :
      ReadPart before memory offset output count (none, after, memory')
  | advanced {size : Nat} {after : SectorReader} {memory' : Bytes}
      (bytes : after.device.bytes = before.device.bytes) (coherent : after.Coherent)
      (positive : 0 < size) (inside : size ≤ count)
      (transfer : Transferred before.device.bytes offset memory output size true memory') :
      ReadPart before memory offset output count (some size, after, memory')

variable (offset address memory) in
theorem readPart_spec (coherent : reader.Coherent) (wanted : 0 < count) :
    ReadPart reader memory offset address count (reader.readPart memory offset address count) := by
  unfold readPart
  dsimp only
  split
  next direct =>
    obtain ⟨done, device, memory', read, same, transfer⟩ :=
      reader.device.readSectors_spec (offset / reader.sectorSize) memory address
        (reader.direct count)
    rw [show offset / reader.sectorSize * reader.device.sectorSize = offset from
      reader.sector_start offset direct.1] at transfer
    rw [read]
    subst same
    cases done with
    | false => exact .failed rfl (coherent_of_invalid rfl) (transfer.widen (reader.direct_le count))
    | true =>
      exact .advanced rfl (coherent_of_invalid rfl) (reader.direct_pos count direct.2.1)
        (reader.direct_le count) transfer
  have fetched := fetch_spec (offset / reader.sectorSize) coherent
  generalize reader.fetch (offset / reader.sectorSize) = fetch at fetched ⊢
  obtain ⟨done, after⟩ := fetch
  cases done with
  | false => exact .failed fetched.bytes fetched.coherent transferred_unchanged
  | true =>
    refine .advanced fetched.bytes fetched.coherent (reader.chunk_pos offset count wanted)
      (reader.chunk_le offset count) ?_
    rw [Transferred, if_pos rfl]
    funext place
    by_cases inside : address ≤ place ∧ place < address + reader.chunk offset count
    · have fits := reader.within_add_chunk_le offset count
      rw [splice_inside inside, splice_inside inside, fetched.cache_eq (by omega)]
    · rw [splice_outside (by omega), splice_outside (by omega)]

/-- What a turn of the loop of `write` does. -/
inductive WritePart (before : SectorReader) (memory : Bytes) (offset input count : Nat) :
    Option Nat × SectorReader → Prop where
  | failed (coherent : after.Coherent)
      (transfer : Transferred memory input before.device.bytes offset count false
        after.device.bytes) : WritePart before memory offset input count (none, after)
  | advanced {size : Nat} {after : SectorReader} (coherent : after.Coherent)
      (positive : 0 < size) (inside : size ≤ count)
      (transfer : Transferred memory input before.device.bytes offset size true
        after.device.bytes) :
      WritePart before memory offset input count (some size, after)

/-- The bytes of the device after a sector of it was replaced by a changed copy. -/
theorem splice_sector {bytes cache given : Bytes} {start within size length : Nat}
    (copied : ∀ i < length, cache i = bytes (start + i)) (fits : within + size ≤ length) :
    splice bytes start length (splice cache within size given) =
      splice bytes (start + within) size given := by
  funext i
  by_cases changed : start + within ≤ i ∧ i < start + within + size
  · rw [splice_inside (by omega), splice_inside (by omega), splice_inside changed]
    congr 1
    omega
  rw [splice_outside (by omega : i < start + within ∨ start + within + size ≤ i), splice]
  split
  next inside =>
    rw [splice_outside (by omega), copied _ (by omega), Nat.add_sub_cancel' inside.1]
  · rfl

/-- The device after the read-modify-write of a part of a sector, and the cache with it. -/
theorem storeCache_spec {fetched : SectorReader} (wanted : 0 < count)
    (fetch : Fetched (offset / reader.sectorSize) reader true fetched) {cache : Bytes}
    (changed : cache = splice fetched.cache (offset % reader.sectorSize)
      (reader.chunk offset count) fun i => memory (address + i)) :
    WritePart reader memory offset address count <|
      match fetched.device.writeSector (offset / reader.sectorSize) cache with
      | (false, device) => (none, { fetched with device, cache, cacheValid := false })
      | (true, device) => (some (reader.chunk offset count), { fetched with device, cache }) := by
  obtain ⟨done, device, written, sectorSize, transfer, mixed⟩ :=
    fetched.device.writeSectors_spec (offset / reader.sectorSize) cache 0 fetched.device.sectorSize
  have width : fetched.device.sectorSize = reader.sectorSize := fetch.sectorSize
  obtain ⟨valid, cached⟩ := fetch.cached rfl
  have fits := reader.within_add_chunk_le offset count
  -- the whole sector that is written differs from the device in the given bytes only
  have stored : splice fetched.device.bytes (offset / reader.sectorSize * reader.sectorSize)
      reader.sectorSize cache =
        splice reader.device.bytes offset (reader.chunk offset count)
          fun i => memory (address + i) := by
    rw [changed, splice_sector _ fits, sector_start_add, fetch.bytes]
    intro i inside
    have copied := fetch.coherent valid i (by rw [fetch.sectorSize]; exact inside)
    rw [copied, cached, fetch.sectorSize]
  simp only [width, Nat.zero_add] at transfer mixed
  rw [stored] at mixed
  rw [SectorDevice.writeSector, written]
  cases done with
  | false =>
    refine .failed (coherent_of_invalid rfl) ?_
    rw [Transferred, if_neg Bool.false_ne_true]
    intro i outside
    have inside := reader.chunk_le offset count
    rcases mixed i with old | new
    · rw [old, fetch.bytes]
    · rw [new, splice_outside (by omega)]
  | true =>
    rw [Transferred, if_pos rfl] at transfer
    refine .advanced ?_ (reader.chunk_pos offset count wanted) (reader.chunk_le offset count) ?_
    · intro _ i inside
      change i < device.sectorSize at inside
      change cache i = device.bytes (fetched.cachedSector * device.sectorSize + i)
      rw [sectorSize, width] at inside ⊢
      rw [transfer, cached, splice_inside (by omega), Nat.zero_add, Nat.add_sub_cancel_left]
    · rw [Transferred, if_pos rfl, ← stored, transfer]
      simp only [Nat.zero_add]

variable (offset address memory) in
theorem writePart_spec (coherent : reader.Coherent) (wanted : 0 < count) :
    WritePart reader memory offset address count
      (reader.writePart memory offset address count) := by
  unfold writePart
  dsimp only
  split
  next direct =>
    obtain ⟨done, device, written, _, transfer, _⟩ :=
      reader.device.writeSectors_spec (offset / reader.sectorSize) memory address
        (reader.direct count)
    rw [show offset / reader.sectorSize * reader.device.sectorSize = offset from
      reader.sector_start offset direct.1] at transfer
    rw [written]
    cases done with
    | false => exact .failed (coherent_of_invalid rfl) (transfer.widen (reader.direct_le count))
    | true =>
      exact .advanced (coherent_of_invalid rfl) (reader.direct_pos count direct.2.1)
        (reader.direct_le count) transfer
  have fetched := fetch_spec (offset / reader.sectorSize) coherent
  generalize reader.fetch (offset / reader.sectorSize) = fetch at fetched ⊢
  obtain ⟨done, after⟩ := fetch
  cases done with
  | false =>
    refine .failed fetched.coherent ?_
    rw [fetched.bytes]
    exact transferred_unchanged
  | true => exact storeCache_spec wanted fetched rfl

/-! ## Whole calls -/

variable (offset address memory) in
theorem readLoop_spec (coherent : reader.Coherent) (enough : count ≤ turns) :
    ∃ done after memory', readLoop turns reader memory offset address count =
        (done, after, memory') ∧
      after.device.bytes = reader.device.bytes ∧ after.Coherent ∧
      Transferred reader.device.bytes offset memory address count done memory' := by
  induction turns generalizing reader memory offset address count with
  | zero =>
    obtain rfl : count = 0 := Nat.le_zero.mp enough
    exact ⟨true, reader, memory, rfl, rfl, coherent, transferred_zero⟩
  | succ turns ih =>
    rw [readLoop]
    split
    next none =>
      subst none
      exact ⟨true, reader, memory, rfl, rfl, coherent, transferred_zero⟩
    rename_i some
    have turn := readPart_spec offset address memory coherent (Nat.pos_of_ne_zero some)
    generalize reader.readPart memory offset address count = part at turn ⊢
    cases turn with
    | failed bytes coherent transfer => exact ⟨false, _, _, rfl, bytes, coherent, transfer⟩
    | @advanced size _ memory bytes coherent pos inside transfer =>
      have fewer : count - size ≤ turns := by omega
      obtain ⟨done, after, memory', ran, same, coherent, rest⟩ :=
        ih (offset + size) (address + size) memory coherent fewer
      refine ⟨done, after, memory', ran, same.trans bytes, coherent, ?_⟩
      rw [bytes] at rest
      exact transfer.trans inside rest

variable (offset address memory) in
theorem writeLoop_spec (coherent : reader.Coherent) (enough : count ≤ turns) :
    ∃ done after, writeLoop turns reader memory offset address count = (done, after) ∧
      after.Coherent ∧
      Transferred memory address reader.device.bytes offset count done after.device.bytes := by
  induction turns generalizing reader offset address count with
  | zero =>
    obtain rfl : count = 0 := Nat.le_zero.mp enough
    exact ⟨true, reader, rfl, coherent, transferred_zero⟩
  | succ turns ih =>
    rw [writeLoop]
    split
    next none =>
      subst none
      exact ⟨true, reader, rfl, coherent, transferred_zero⟩
    rename_i some
    have turn := writePart_spec offset address memory coherent (Nat.pos_of_ne_zero some)
    generalize reader.writePart memory offset address count = part at turn ⊢
    cases turn with
    | failed coherent transfer => exact ⟨false, _, rfl, coherent, transfer⟩
    | @advanced size _ coherent pos inside transfer =>
      have fewer : count - size ≤ turns := by omega
      obtain ⟨done, after, ran, coherent, rest⟩ :=
        ih (offset + size) (address + size) coherent fewer
      exact ⟨done, after, ran, coherent, transfer.trans inside rest⟩

theorem size_le_capacity : reader.size ≤ reader.device.capacity := by
  rw [size]
  split
  next large =>
    have bound := (Nat.div_lt_iff_lt_mul reader.device.positive).mp large
    exact Nat.le_of_lt bound
  · exact Nat.le_refl _

theorem refused_of_capacity_lt (beyond : reader.device.capacity < offset + count) :
    reader.Refused offset address count := by
  have bound := reader.size_le_capacity
  rw [Refused]
  omega

inductive Call where
  | read (offset : UInt64) (output : Nat) (count : UInt32)
  | readSpan (offset : UInt64) (output length : Nat)
  | write (offset : UInt64) (input : Nat) (count : UInt32)
  | writeSpan (offset : UInt64) (input length : Nat)
  | flush
  | invalidate

/-- A range of the device and the address of the buffer it is copied to or from. -/
structure Range where
  offset : Nat
  address : Nat
  count : Nat

def Call.reading : Call → Option Range
  | .read offset output count => some ⟨offset.toNat, output, count.toNat⟩
  | .readSpan offset output length => some ⟨offset.toNat, output, length⟩
  | _ => none

def Call.writing : Call → Option Range
  | .write offset input count => some ⟨offset.toNat, input, count.toNat⟩
  | .writeSpan offset input length => some ⟨offset.toNat, input, length⟩
  | _ => none

/-- A call with the caller's memory: what it returns, the reader and the memory after it. -/
def call (reader : SectorReader) (memory : Bytes) : Call → Bool × SectorReader × Bytes
  | .read offset output count => reader.read memory offset output count
  | .readSpan offset output length => reader.readSpan memory offset output length
  | .write offset input count =>
    let (done, after) := reader.write memory offset input count
    (done, after, memory)
  | .writeSpan offset input length =>
    let (done, after) := reader.writeSpan memory offset input length
    (done, after, memory)
  | .flush =>
    let (done, after) := reader.flush
    (done, after, memory)
  | .invalidate => (true, reader.invalidate, memory)

/-- A sequence of calls, between which the caller's memory changes freely. -/
def run (reader : SectorReader) (calls : List (Bytes × Call)) : SectorReader :=
  calls.foldl (fun reader (memory, call) => (reader.call memory call).2.1) reader

structure Reads (before : SectorReader) (memory : Bytes) (range : Range)
    (outcome : Bool × SectorReader × Bytes) : Prop where
  coherent : outcome.2.1.Coherent
  bytes : outcome.2.1.device.bytes = before.device.bytes
  transfer : Transferred before.device.bytes range.offset memory range.address range.count
    outcome.1 outcome.2.2
  refused : before.device.capacity < range.offset + range.count → outcome = (false, before, memory)

structure Writes (before : SectorReader) (memory : Bytes) (range : Range)
    (outcome : Bool × SectorReader) : Prop where
  coherent : outcome.2.Coherent
  transfer : Transferred memory range.address before.device.bytes range.offset range.count
    outcome.1 outcome.2.device.bytes
  refused : before.device.capacity < range.offset + range.count → outcome = (false, before)

variable (memory) in
theorem read_spec (coherent : reader.Coherent) (offset : UInt64) (output : Nat) (count : UInt32) :
    Reads reader memory ⟨offset.toNat, output, count.toNat⟩
      (reader.read memory offset output count) := by
  unfold read
  split
  · exact ⟨coherent, rfl, transferred_unchanged, fun _ => rfl⟩
  rename_i taken
  obtain ⟨done, after, memory', ran, bytes, coherent, transfer⟩ :=
    readLoop_spec offset.toNat output memory coherent (Nat.le_refl count.toNat)
  rw [ran]
  exact ⟨coherent, bytes, transfer, fun beyond => absurd (refused_of_capacity_lt beyond) taken⟩

variable (memory) in
theorem write_spec (coherent : reader.Coherent) (offset : UInt64) (input : Nat) (count : UInt32) :
    Writes reader memory ⟨offset.toNat, input, count.toNat⟩
      (reader.write memory offset input count) := by
  unfold write
  split
  · exact ⟨coherent, transferred_unchanged, fun _ => rfl⟩
  rename_i taken
  obtain ⟨done, after, ran, coherent, transfer⟩ :=
    writeLoop_spec offset.toNat input memory coherent (Nat.le_refl count.toNat)
  rw [ran]
  exact ⟨coherent, transfer, fun beyond => absurd (refused_of_capacity_lt beyond) taken⟩

theorem toNat_ofNat_of_le (short : length ≤ 2 ^ 32 - 1) : (UInt32.ofNat length).toNat = length := by
  rw [UInt32.toNat_ofNat']
  exact Nat.mod_eq_of_lt (by omega)

variable (memory) in
theorem readSpan_spec (coherent : reader.Coherent) (offset : UInt64) (output length : Nat) :
    Reads reader memory ⟨offset.toNat, output, length⟩
      (reader.readSpan memory offset output length) := by
  unfold readSpan
  split
  next short =>
    have whole := read_spec memory coherent offset output (UInt32.ofNat length)
    rwa [toNat_ofNat_of_le short] at whole
  · exact ⟨coherent, rfl, transferred_unchanged, fun _ => rfl⟩

variable (memory) in
theorem writeSpan_spec (coherent : reader.Coherent) (offset : UInt64) (input length : Nat) :
    Writes reader memory ⟨offset.toNat, input, length⟩
      (reader.writeSpan memory offset input length) := by
  unfold writeSpan
  split
  next short =>
    have whole := write_spec memory coherent offset input (UInt32.ofNat length)
    rwa [toNat_ofNat_of_le short] at whole
  · exact ⟨coherent, transferred_unchanged, fun _ => rfl⟩

theorem flush_device (reader : SectorReader) :
    reader.flush.2 = { reader with device := reader.device.called } := by
  unfold flush SectorDevice.flush
  cases reader.device.answer with
  | done => rfl
  | failed garbage stored => rfl

variable (memory) in
/-- Every call reads a range, writes one or leaves the bytes of the device alone. -/
theorem call_cases (coherent : reader.Coherent) (call : Call) :
    (∃ range, call.reading = some range ∧ call.writing = none ∧
        Reads reader memory range (reader.call memory call)) ∨
      (∃ range outcome, call.reading = none ∧ call.writing = some range ∧
        reader.call memory call = (outcome.1, outcome.2, memory) ∧
        Writes reader memory range outcome) ∨
      call.reading = none ∧ call.writing = none ∧ (reader.call memory call).2.1.Coherent ∧
        (reader.call memory call).2.1.device.bytes = reader.device.bytes := by
  cases call with
  | read offset output count =>
    exact .inl ⟨_, rfl, rfl, read_spec memory coherent offset output count⟩
  | readSpan offset output length =>
    exact .inl ⟨_, rfl, rfl, readSpan_spec memory coherent offset output length⟩
  | write offset input count =>
    exact .inr (.inl ⟨_, _, rfl, rfl, rfl, write_spec memory coherent offset input count⟩)
  | writeSpan offset input length =>
    exact .inr (.inl ⟨_, _, rfl, rfl, rfl, writeSpan_spec memory coherent offset input length⟩)
  | flush =>
    have same := reader.flush_device
    refine .inr (.inr ⟨rfl, rfl, ?_, congrArg (·.device.bytes) same⟩)
    change reader.flush.2.Coherent
    rw [same]
    exact coherent
  | invalidate => exact .inr (.inr ⟨rfl, rfl, coherent_of_invalid rfl, rfl⟩)

theorem coherent_call (coherent : reader.Coherent) (memory : Bytes) (call : Call) :
    (reader.call memory call).2.1.Coherent := by
  rcases call_cases memory coherent call with
    ⟨_, -, -, reads⟩ | ⟨_, _, -, -, ran, writes⟩ | ⟨-, -, coherent, -⟩
  · exact reads.coherent
  · rw [ran]
    exact writes.coherent
  · exact coherent

/-- The cache agrees with the device after any calls. -/
theorem coherent_run (coherent : reader.Coherent) (calls : List (Bytes × Call)) :
    (reader.run calls).Coherent := by
  induction calls generalizing reader with
  | nil => exact coherent
  | cons first rest ih => exact ih (coherent_call coherent first.1 first.2)

/-- The cache is transparent.  Whatever calls were made and whatever the device answered,
after the next call a valid cache equals its sector of the device; a read that returned
`true` delivered the device's bytes and a write that returned `true` stored the given ones;
bytes outside a written range are unchanged; and a request beyond the device is refused
without a call to the device. -/
theorem call_transparent (device : SectorDevice) (calls : List (Bytes × Call)) (memory : Bytes)
    (call : Call) :
    let before := run { device } calls
    let outcome := before.call memory call
    let returned := outcome.1
    let after := outcome.2.1
    let memory' := outcome.2.2
    after.Coherent ∧
    (∀ range, call.reading = some range → returned = true →
      memory' = splice memory range.address range.count fun position =>
        before.device.bytes (range.offset + position)) ∧
    (∀ range, call.writing = some range → returned = true →
      after.device.bytes = splice before.device.bytes range.offset range.count fun position =>
        memory (range.address + position)) ∧
    (∀ position, after.device.bytes position ≠ before.device.bytes position →
      ∃ range, call.writing = some range ∧
        range.offset ≤ position ∧ position < range.offset + range.count) ∧
    (∀ range, call.reading = some range ∨ call.writing = some range →
      before.device.capacity < range.offset + range.count →
      returned = false ∧ after = before ∧ memory' = memory) := by
  intro before outcome returned after memory'
  have coherent : before.Coherent := coherent_run (coherent_of_invalid rfl) calls
  have kept : after.Coherent := coherent_call coherent memory call
  rcases call_cases memory coherent call with ⟨range, reading, writing, reads⟩ |
    ⟨range, written, reading, writing, ran, writes⟩ | ⟨reading, writing, -, same⟩
  · refine ⟨kept, fun _ chosen done => ?_, by simp [writing], fun position changed => ?_, ?_⟩
    · cases reading.symm.trans chosen
      have transfer := reads.transfer
      rwa [Transferred, if_pos done] at transfer
    · exact absurd (congrFun reads.bytes position) changed
    rintro _ (chosen | chosen) beyond
    · cases reading.symm.trans chosen
      have refused : outcome = (false, before, memory) := reads.refused beyond
      simp only [returned, after, memory', refused, and_self]
    · cases writing.symm.trans chosen
  · have ran : outcome = (written.1, written.2, memory) := ran
    simp only [returned, after, memory', ran] at kept ⊢
    refine ⟨kept, by simp [reading], fun _ chosen done => ?_, fun position changed => ?_, ?_⟩
    · cases writing.symm.trans chosen
      have transfer := writes.transfer
      rwa [Transferred, if_pos done] at transfer
    · refine ⟨range, writing, ?_⟩
      by_contra outside
      exact changed (writes.transfer.outside (by omega))
    · rintro _ (chosen | chosen) beyond
      · cases reading.symm.trans chosen
      · cases writing.symm.trans chosen
        simp only [writes.refused beyond, and_self]
  · refine ⟨kept, by simp [reading], by simp [writing], fun position changed => ?_,
      by simp [reading, writing]⟩
    exact absurd (congrFun same position) changed

end SectorReader
end Mikos.Storage
