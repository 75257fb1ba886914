import Mikos.Process.Basic

/-!
# Executables: the ELF loader and the initial stack

The loader validates all loadable segments of a file before it writes the first one to the
flat memory.  Its reader is the file, or for a preloaded executable the memory that holds
the file's bytes.
-/

namespace Mikos.Process
open Library List

/-! ## Files -/

inductive FileType where
  | regular | directory | symbolicLink | other
  deriving DecidableEq, Repr

/-- A node of the root file system with the contents of the file. -/
structure FileNode where
  inode : Nat := 0
  type : FileType := .regular
  mode : UInt32 := 0
  size : Nat := 0
  bytes : Bytes := zeroBytes

/-- Read bytes of a file; a reader may look at the memory. -/
abbrev Reader := Bytes → Nat → Nat → Option Bytes

namespace FileNode

/-- Reads that get all bytes they ask for. -/
def reader (file : FileNode) : Reader := fun _ offset size =>
  if offset + size ≤ file.size then some fun position => file.bytes (offset + position) else none

end FileNode

def preloadedReader (base : Nat) : Reader := fun memory offset _ =>
  some fun position => memory (base + offset + position)

/-! ## Headers -/

structure ElfHeader where
  ident : Bytes
  type : Nat
  machine : Nat
  entry : Nat
  programOffset : Nat
  programEntrySize : Nat
  programCount : Nat

def elfHeaderSize : Nat := 52

def decodeElfHeader (data : Bytes) : ElfHeader where
  ident := data
  type := littleU16 data 16
  machine := littleU16 data 18
  entry := littleU32 data 24
  programOffset := littleU32 data 28
  programEntrySize := littleU16 data 42
  programCount := littleU16 data 44

structure ProgramHeader where
  type : Nat
  offset : Nat
  virtualAddress : Nat
  fileSize : Nat
  memorySize : Nat
  flags : Nat

def programHeaderSize : Nat := 32

def decodeProgramHeader (data : Bytes) : ProgramHeader where
  type := littleU32 data 0
  offset := littleU32 data 4
  virtualAddress := littleU32 data 8
  fileSize := littleU32 data 16
  memorySize := littleU32 data 20
  flags := littleU32 data 24

namespace ProgramHeader

def Loads (segment : ProgramHeader) : Prop := segment.type = 1
deriving Decidable

def Interprets (segment : ProgramHeader) : Prop := segment.type = 3
deriving Decidable

def Writable (segment : ProgramHeader) : Prop := segment.flags / 2 % 2 = 1
deriving Decidable

def Covers (segment : ProgramHeader) (address : Nat) : Prop :=
  segment.virtualAddress ≤ address ∧ address < segment.virtualAddress + segment.memorySize
deriving Decidable

def limit (segment : ProgramHeader) : Nat := segment.virtualAddress + segment.memorySize

/-- The bytes that a segment takes from the file hold the whole table of program headers. -/
def HoldsTable (header : ElfHeader) (segment : ProgramHeader) : Prop :=
  segment.offset ≤ header.programOffset ∧
    header.programOffset + header.programCount * programHeaderSize ≤
      segment.offset + segment.fileSize

end ProgramHeader

def ValidElf (header : ElfHeader) (fileSize : Nat) : Prop :=
  header.ident 0 = 0x7f ∧ header.ident 1 = 0x45 ∧ header.ident 2 = 0x4c ∧ header.ident 3 = 0x46 ∧
    header.ident 4 = 1 ∧ header.ident 5 = 1 ∧ header.type = 2 ∧ header.machine = 243 ∧
    UserContains header.entry 1 ∧ header.programEntrySize = programHeaderSize ∧
    header.programOffset ≤ fileSize ∧
    header.programCount ≤ (fileSize - header.programOffset) / programHeaderSize
deriving Decidable

/-! ## The loader -/

structure Image where
  entry : Nat := 0
  programHeaders : Nat := 0
  programCount : Nat := 0
  brk : Nat := 0
  mutableBegin : Nat := 0

/-- What the first pass over the segments collects. -/
structure Survey where
  imageEnd : Nat := userBegin
  mutableBegin : Nat := userEnd
  programHeaders : Nat := 0

section Loader
variable (reader : Reader) (header : ElfHeader) (fileSize : Nat)

def readProgramHeader (memory : Bytes) (index : Nat) : Option ProgramHeader :=
  (reader memory (header.programOffset + index * programHeaderSize) programHeaderSize).map
    decodeProgramHeader

/-- A loadable segment lies within the file and within user memory. -/
def SegmentFits (segment : ProgramHeader) : Prop :=
  segment.fileSize ≤ segment.memorySize ∧ segment.offset ≤ fileSize ∧
    segment.fileSize ≤ fileSize - segment.offset ∧
    UserContains segment.virtualAddress segment.memorySize
deriving Decidable

/-- Where the program headers are in memory, if the segment holds them. -/
def locateHeaders (segment : ProgramHeader) (known : Nat) : Nat :=
  let tableSize := header.programCount * programHeaderSize
  if segment.offset ≤ header.programOffset ∧ tableSize ≤ segment.fileSize ∧
      header.programOffset - segment.offset ≤ segment.fileSize - tableSize then
    segment.virtualAddress + header.programOffset - segment.offset
  else known

def surveySegment (survey : Survey) (segment : ProgramHeader) : Option Survey :=
  if segment.Interprets then none
  else if ¬ segment.Loads then some survey
  else if ¬ SegmentFits fileSize segment then none
  else
    some
      { imageEnd := max survey.imageEnd (segment.virtualAddress + segment.memorySize)
        mutableBegin :=
          if segment.Writable ∧ segment.virtualAddress < survey.mutableBegin then
            segment.virtualAddress
          else survey.mutableBegin
        programHeaders := locateHeaders header segment survey.programHeaders }

/-- The first pass: every segment is validated before memory changes. -/
def surveySegments (memory : Bytes) : List Nat → Survey → Option Survey
  | [], survey => some survey
  | index :: rest, survey =>
    match readProgramHeader reader header memory index with
    | none => none
    | some segment =>
      match surveySegment header fileSize survey segment with
      | none => none
      | some survey => surveySegments memory rest survey

variable (preloadedBase : Nat) (writableOnly : Bool)

/-- Copy the bytes of one segment into place.  A preloaded segment that is in place already is
not copied. -/
def placeSegment (segment : ProgramHeader) (memory : Bytes) : Option Bytes :=
  let source := wrap 32 (preloadedBase + segment.offset)
  if preloadedBase ≠ 0 then
    if segment.virtualAddress ≠ source then
      some (splice memory segment.virtualAddress segment.fileSize fun position =>
        memory (source + position))
    else some memory
  else
    (reader memory segment.offset segment.fileSize).map
      (splice memory segment.virtualAddress segment.fileSize)

/-- One segment of the second pass; the rest of a segment is zero. -/
def loadSegment (segment : ProgramHeader) (memory : Bytes) : Option Bytes :=
  (placeSegment reader preloadedBase segment memory).map fun memory =>
    splice memory (segment.virtualAddress + segment.fileSize)
      (segment.memorySize - segment.fileSize) zeroBytes

/-- The second pass: whether it came to its end, and the memory. -/
def loadSegments : List Nat → Bytes → Bool × Bytes
  | [], memory => (true, memory)
  | index :: rest, memory =>
    match readProgramHeader reader header memory index with
    | none => (false, memory)
    | some segment =>
      if ¬ segment.Loads ∨ (writableOnly ∧ ¬ segment.Writable) then
        loadSegments rest memory
      else
        match loadSegment reader preloadedBase segment memory with
        | none => (false, memory)
        | some memory => loadSegments rest memory

end Loader

/-- `load_image_from`: the image, unless the file is refused, and the memory. -/
def loadImageFrom (fileSize : Nat) (reader : Reader) (writableOnly : Bool) (preloadedBase : Nat)
    (memory : Bytes) : Option Image × Bytes :=
  if fileSize < elfHeaderSize then (none, memory)
  else
    match reader memory 0 elfHeaderSize with
    | none => (none, memory)
    | some data =>
      let header := decodeElfHeader data
      if ¬ ValidElf header fileSize then (none, memory)
      else
        let indices := List.range header.programCount
        match surveySegments reader header fileSize memory indices {} with
        | none => (none, memory)
        | some survey =>
          if survey.programHeaders = 0 then (none, memory)
          else
            match loadSegments reader header preloadedBase writableOnly indices memory with
            | (false, memory) => (none, memory)
            | (true, memory) =>
              (some
                { entry := header.entry
                  programHeaders := survey.programHeaders
                  programCount := header.programCount
                  brk := alignUp survey.imageEnd 4096
                  mutableBegin := survey.mutableBegin },
                memory)

def loadImage (file : FileNode) (writableOnly : Bool) (memory : Bytes) : Option Image × Bytes :=
  if file.type ≠ .regular ∨ 0xffffffff < file.size then (none, memory)
  else loadImageFrom file.size file.reader writableOnly 0 memory

/-- Load a file whose bytes stand at `base`. -/
def loadPreloadedImage (file : FileNode) (base size : Nat) (memory : Bytes) :
    Option Image × Bytes :=
  if file.type ≠ .regular ∨ file.size ≠ size ∨ 0xffffffff < file.size then (none, memory)
  else loadImageFrom file.size (preloadedReader base) false base memory

/-! ## The initial stack -/

/-- A text in memory, with the zero byte at its end. -/
def textBytes (text : Text) : Bytes := fun position => text.getD position 0

/-- Put texts on the stack, the last one highest: the new top, their addresses, the memory. -/
def copyStringsDown (texts : List Text) (cursor : Nat) (memory : Bytes) : Nat × List Nat × Bytes :=
  texts.foldr
    (fun text (cursor, addresses, memory) =>
      let size := text.length + 1
      (cursor - size, (cursor - size) :: addresses,
        splice memory (cursor - size) size (textBytes text)))
    (cursor, [], memory)

/-- Write words one behind the other. -/
def putWords : List Nat → Nat → Bytes → Bytes
  | [], _, memory => memory
  | word :: rest, address, memory => putWords rest (address + 4) (put32 memory address word)

/-- The bytes that a program may use as random ones. -/
def stackRandom : Bytes := fun position => 0xa5 ^^^ UInt8.ofNat (position * 29)

def auxiliaryVector (image : Image) (random firstArgument : Nat) : List Nat :=
  [3, image.programHeaders, 4, programHeaderSize, 5, image.programCount, 6, 4096, 7, 0, 8, 0,
    9, image.entry, 11, 0, 12, 0, 13, 0, 14, 0, 16, 0, 17, 100, 23, 0, 25, random,
    31, firstArgument, 0, 0]

/-- The stack pointer of a new program and the memory with its arguments. -/
def makeInitialStack (image : Image) (arguments environment : List Text) (memory : Bytes) :
    Nat × Bytes :=
  let (cursor, environmentAddresses, memory) := copyStringsDown environment userStackTop memory
  let (cursor, argumentAddresses, memory) := copyStringsDown arguments cursor memory
  let random := cursor - 16
  let memory := splice memory random 16 stackRandom
  let words := arguments.length :: argumentAddresses ++ 0 :: environmentAddresses ++
    0 :: auxiliaryVector image random (argumentAddresses.headD 0)
  let stack := alignDown (random - words.length * 4) 16
  (stack, putWords words stack memory)


/-! ## What loading leaves alone -/

/-- A reader that does not look at the memory. -/
def Steady (reader : Reader) : Prop :=
  ∀ memory memory' offset size, reader memory offset size = reader memory' offset size

theorem FileNode.reader_steady (file : FileNode) : Steady file.reader := fun _ _ _ _ => rfl

section Loading
variable {reader : Reader} {header : ElfHeader} {fileSize base : Nat} {writableOnly : Bool}
  {memory memory' : Bytes} {indices : List Nat} {survey survey' : Survey}
  {segment : ProgramHeader} {address : Nat}

/-- What the first pass has found out about the loadable segments so far. -/
structure Surveyed (header : ElfHeader) (fileSize : Nat) (loadable : List ProgramHeader)
    (survey : Survey) : Prop where
  fits : ∀ segment ∈ loadable, SegmentFits fileSize segment
  ends : ∀ segment ∈ loadable, segment.limit ≤ survey.imageEnd
  imageEnd : survey.imageEnd = userBegin ∨ ∃ segment ∈ loadable, survey.imageEnd = segment.limit
  begins : ∀ segment ∈ loadable, segment.Writable → survey.mutableBegin ≤ segment.virtualAddress
  mutableBegin : survey.mutableBegin = userEnd ∨
    ∃ segment ∈ loadable, segment.Writable ∧ survey.mutableBegin = segment.virtualAddress
  programHeaders : survey.programHeaders = 0 ∨
    ∃ segment ∈ loadable, segment.HoldsTable header ∧
      survey.programHeaders = segment.virtualAddress + (header.programOffset - segment.offset)

variable {loadable : List ProgramHeader}

theorem Surveyed.start : Surveyed header fileSize [] {} :=
  ⟨by simp, by simp, .inl rfl, by simp, .inl rfl, .inl rfl⟩

theorem Surveyed.add (surveyed : Surveyed header fileSize loadable survey)
    (fits : SegmentFits fileSize segment) :
    Surveyed header fileSize (loadable ++ [segment])
      { imageEnd := max survey.imageEnd segment.limit
        mutableBegin :=
          if segment.Writable ∧ segment.virtualAddress < survey.mutableBegin then
            segment.virtualAddress
          else survey.mutableBegin
        programHeaders := locateHeaders header segment survey.programHeaders } where
  fits := by simpa [or_imp, forall_and, fits] using surveyed.fits
  ends other mem := by
    rcases mem_append.mp mem with earlier | last
    · exact Nat.le_trans (surveyed.ends other earlier) (Nat.le_max_left ..)
    · rw [mem_singleton.mp last]
      exact Nat.le_max_right ..
  imageEnd := by
    rcases Nat.le_total segment.limit survey.imageEnd with low | high
    · rw [Nat.max_eq_left low]
      exact surveyed.imageEnd.imp_right fun ⟨other, mem, same⟩ =>
        ⟨other, mem_append_left _ mem, same⟩
    · exact .inr ⟨segment, by simp, Nat.max_eq_right high⟩
  begins other mem writable := by
    rcases mem_append.mp mem with earlier | last
    · have above := surveyed.begins other earlier writable
      dsimp only
      split <;> omega
    cases mem_singleton.mp last
    split
    · exact Nat.le_refl _
    next higher => exact Nat.not_lt.mp fun lower => higher ⟨writable, lower⟩
  mutableBegin := by
    split
    next lower => exact .inr ⟨segment, by simp, lower.1, rfl⟩
    · exact surveyed.mutableBegin.imp_right fun ⟨other, mem, found⟩ =>
      ⟨other, mem_append_left _ mem, found⟩
  programHeaders := by
    rw [locateHeaders]
    dsimp only
    split
    next holds =>
      refine .inr ⟨segment, by simp, ⟨holds.1, by omega⟩, ?_⟩
      exact Nat.add_sub_assoc holds.1 _
    · exact surveyed.programHeaders.imp_right fun ⟨other, mem, found⟩ =>
      ⟨other, mem_append_left _ mem, found⟩

/-- The first pass reads every program header and judges the loadable segments. -/
theorem surveySegments_surveyed (before : Surveyed header fileSize loadable survey)
    (surveyed : surveySegments reader header fileSize memory indices survey = some survey') :
    ∃ segments : List ProgramHeader,
      indices.map (readProgramHeader reader header memory) = segments.map some ∧
      Surveyed header fileSize (loadable ++ segments.filter (·.Loads)) survey' := by
  induction indices generalizing survey loadable with
  | nil =>
    cases surveyed
    exact ⟨[], rfl, by simpa using before⟩
  | cons first rest ih =>
    rw [surveySegments] at surveyed
    split at surveyed
    · cases surveyed
    rename_i segment reading
    rw [surveySegment] at surveyed
    by_cases interprets : segment.Interprets
    · rw [if_pos interprets] at surveyed
      cases surveyed
    by_cases loads : segment.Loads
    · by_cases fits : SegmentFits fileSize segment
      · rw [if_neg interprets, if_neg (not_not.mpr loads), if_neg (not_not.mpr fits)] at surveyed
        obtain ⟨segments, read, found⟩ := ih (before.add fits) surveyed
        exact ⟨segment :: segments, by simp [reading, read], by simpa [loads] using found⟩
      · rw [if_neg interprets, if_neg (not_not.mpr loads), if_pos fits] at surveyed
        cases surveyed
    · rw [if_neg interprets, if_pos loads] at surveyed
      obtain ⟨segments, read, found⟩ := ih before surveyed
      exact ⟨segment :: segments, by simp [reading, read], by simpa [loads] using found⟩

/-- A file is refused before memory changes, or both passes are made. -/
theorem loadImageFrom_cases (fileSize : Nat) (reader : Reader) (writableOnly : Bool) (base : Nat)
    (memory : Bytes) :
    loadImageFrom fileSize reader writableOnly base memory = (none, memory) ∨
      ∃ header, ∃ segments : List ProgramHeader, ∃ survey,
        (reader memory 0 elfHeaderSize).map decodeElfHeader = some header ∧
        ValidElf header fileSize ∧
        (range header.programCount).map (readProgramHeader reader header memory) =
          segments.map some ∧
        Surveyed header fileSize (segments.filter (·.Loads)) survey ∧
        survey.programHeaders ≠ 0 ∧
        loadImageFrom fileSize reader writableOnly base memory =
          let done := loadSegments reader header base writableOnly (range header.programCount) memory
          (if done.1 then
            some
              { entry := header.entry
                programHeaders := survey.programHeaders
                programCount := header.programCount
                brk := alignUp survey.imageEnd 4096
                mutableBegin := survey.mutableBegin }
          else none, done.2) := by
  rw [loadImageFrom]
  split
  · exact .inl rfl
  split
  · exact .inl rfl
  rename_i data reading
  dsimp only
  split
  · exact .inl rfl
  rename_i valid
  split
  · exact .inl rfl
  rename_i survey surveyed
  split
  · exact .inl rfl
  rename_i found
  obtain ⟨segments, read, judged⟩ := surveySegments_surveyed .start surveyed
  refine .inr ⟨decodeElfHeader data, segments, survey, by rw [reading]; rfl,
    not_not.mp valid, read, judged, found, ?_⟩
  split <;> simp [*]

theorem loadSegment_outside (fits : SegmentFits fileSize segment)
    (loaded : loadSegment reader base segment memory = some memory')
    (outside : ¬ segment.Covers address) : memory' address = memory address := by
  rw [ProgramHeader.Covers] at outside
  have small := fits.1
  rw [loadSegment] at loaded
  obtain ⟨placed, placing, rfl⟩ := Option.map_eq_some_iff.mp loaded
  rw [splice_outside (by omega)]
  rw [placeSegment] at placing
  split at placing
  · split at placing
    · cases placing
      exact splice_outside (by omega)
    · cases placing
      rfl
  · obtain ⟨bytes, -, rfl⟩ := Option.map_eq_some_iff.mp placing
    exact splice_outside (by omega)

theorem SegmentFits.user (fits : SegmentFits fileSize segment) (covered : segment.Covers address) :
    UserAddress address := by
  have inside := fits.2.2.2
  rw [UserContains] at inside
  rw [ProgramHeader.Covers] at covered
  rw [UserAddress]
  omega

theorem loadSegments_outside (steady : Steady reader) (before : Bytes)
    (fits : ∀ i ∈ indices, ∀ segment, readProgramHeader reader header before i =
      some segment → segment.Loads → SegmentFits fileSize segment)
    (outside : ¬ UserAddress address) :
    (loadSegments reader header base writableOnly indices memory).2 address = memory address := by
  induction indices generalizing memory with
  | nil => rfl
  | cons first rest ih =>
    have later := fun i mem => fits i (mem_cons_of_mem first mem)
    rw [loadSegments]
    split
    · rfl
    rename_i segment reading
    rw [readProgramHeader, steady memory before] at reading
    split
    · exact ih later
    rename_i chosen
    have fitting := fits first mem_cons_self segment reading
      (not_not.mp fun skipped => chosen (.inl skipped))
    split
    · rfl
    rename_i loaded
    rw [ih later]
    exact loadSegment_outside fitting loaded fun covered => outside (fitting.user covered)

theorem loadImageFrom_outside (steady : Steady reader) (outside : ¬ UserAddress address) :
    (loadImageFrom fileSize reader writableOnly base memory).2 address = memory address := by
  obtain refused | ⟨header, segments, survey, -, -, read, surveyed, -, loaded⟩ :=
    loadImageFrom_cases fileSize reader writableOnly base memory
  · rw [refused]
  rw [loaded]
  refine @loadSegments_outside reader header fileSize base writableOnly memory _ address steady
    memory (fun i mem segment reading loads => ?_) outside
  have known : some segment ∈ segments.map some := by
    rw [← read, ← reading]
    exact mem_map_of_mem mem
  exact surveyed.fits segment (by simpa [loads] using known)

theorem loadImage_outside (file : FileNode) (outside : ¬ UserAddress address) :
    (loadImage file writableOnly memory).2 address = memory address := by
  rw [loadImage]
  split
  · rfl
  · exact loadImageFrom_outside file.reader_steady outside

end Loading

structure Image.Inside (image : Image) : Prop where
  mutableBegin : userBegin ≤ image.mutableBegin ∧ image.mutableBegin ≤ userEnd
  brk : userBegin ≤ image.brk ∧ image.brk ≤ userEnd

theorem alignUp_user (low : userBegin ≤ address) (high : address ≤ userEnd) :
    userBegin ≤ alignUp address 4096 ∧ alignUp address 4096 ≤ userEnd := by
  have below : userBegin = 0x81000000 := rfl
  have above : userEnd = 0x82000000 := rfl
  rw [alignUp, wrap_of_lt (by omega), alignDown]
  omega

theorem loadImageFrom_inside
    (loaded : loadImageFrom fileSize reader writableOnly base memory = (some image, memory')) :
    image.Inside := by
  obtain refused | ⟨header, segments, survey, -, -, -, surveyed, -, done⟩ :=
    loadImageFrom_cases fileSize reader writableOnly base memory
  · rw [refused] at loaded
    cases loaded
  rw [done] at loaded
  dsimp only at loaded
  split at loaded
  · cases loaded
    have below : userBegin ≤ userEnd := by decide
    refine ⟨?_, ?_⟩
    · rcases surveyed.mutableBegin with none | ⟨segment, mem, -, found⟩
      · dsimp only
        omega
      · have inside := (surveyed.fits segment mem).2.2.2
        exact found ▸ ⟨inside.1, inside.2.1⟩
    rcases surveyed.imageEnd with none | ⟨segment, mem, found⟩
    · exact alignUp_user (by omega) (by omega)
    · have inside := (surveyed.fits segment mem).2.2.2
      rw [UserContains] at inside
      rw [ProgramHeader.limit] at found
      exact alignUp_user (by omega) (by omega)
  · cases loaded

end Mikos.Process
