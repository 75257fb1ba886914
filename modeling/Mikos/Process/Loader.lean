import Mikos.Process.Executable

/-!
# What the loader does with a file

A file is refused and memory is not changed, or every address that a written segment covers gets
the byte that the last such segment defines.
-/

namespace Mikos.Process
open Library List

/-- A read within the file gets the bytes of the file.  Nothing is known of other reads. -/
def Reads (file : FileNode) (reader : Reader) : Prop :=
  ∀ memory offset size, offset + size ≤ file.size →
    reader memory offset size = some fun position => file.bytes (offset + position)

namespace FileNode
variable (file : FileNode) (writableOnly : Bool)

theorem reads : Reads file file.reader := fun _ _ _ within => if_pos within

def header : ElfHeader := decodeElfHeader file.bytes

def segment (index : Nat) : ProgramHeader :=
  decodeProgramHeader fun position =>
    file.bytes (file.header.programOffset + index * programHeaderSize + position)

/-- The loadable segments in the order of their table. -/
def loadable : List ProgramHeader :=
  ((range file.header.programCount).map file.segment).filter (·.Loads)

/-- The segments that a load writes. -/
def written : List ProgramHeader :=
  file.loadable.filter fun segment => !writableOnly || segment.Writable

def segmentByte (segment : ProgramHeader) (address : Nat) : UInt8 :=
  let position := address - segment.virtualAddress
  if position < segment.fileSize then file.bytes (segment.offset + position) else 0

def putSegment (memory : Bytes) (segment : ProgramHeader) : Bytes := fun address =>
  if segment.Covers address then file.segmentByte segment address else memory address

/-- Loading the file. -/
def load (memory : Bytes) : Option Image × Bytes :=
  if file.size < elfHeaderSize ∨ ¬ ValidElf file.header file.size then (none, memory)
  else
    match surveySegments file.reader file.header file.size memory
      (range file.header.programCount) {} with
    | none => (none, memory)
    | some survey =>
      if survey.programHeaders = 0 then (none, memory)
      else
        (some
          { entry := file.header.entry
            programHeaders := survey.programHeaders
            programCount := file.header.programCount
            brk := alignUp survey.imageEnd 4096
            mutableBegin := survey.mutableBegin },
          (file.written writableOnly).foldl file.putSegment memory)

/-- The outcome of a load that is not refused. -/
structure Loaded (memory : Bytes) (image : Image) (memory' : Bytes) : Prop where
  bytes : ∀ address, memory' address =
    ((file.written writableOnly).filter (·.Covers address)).getLast?.elim (memory address)
      (file.segmentByte · address)
  inside : ∀ segment ∈ file.loadable, ∀ address, segment.Covers address → UserAddress address
  brk : ∃ last ∈ file.loadable, (∀ segment ∈ file.loadable, segment.limit ≤ last.limit) ∧
    last.limit ≤ image.brk ∧ image.brk < last.limit + 4096 ∧ image.brk % 4096 = 0
  mutableBegin :
    (∀ segment ∈ file.loadable, segment.Writable → image.mutableBegin ≤ segment.virtualAddress) ∧
    ((∃ segment ∈ file.loadable, segment.Writable ∧
        image.mutableBegin = segment.virtualAddress) ∨
      image.mutableBegin = userEnd ∧ ∀ segment ∈ file.loadable, ¬ segment.Writable)
  programHeaders : ∃ segment ∈ file.loadable, segment.HoldsTable file.header ∧
    image.programHeaders =
      segment.virtualAddress + (file.header.programOffset - segment.offset)

end FileNode

section Files
variable {file : FileNode} {reader : Reader} {writableOnly : Bool} {memory : Bytes}
  {indices : List Nat} {segment : ProgramHeader} {segments : List ProgramHeader}

/-- The program header with a number lies in the file. -/
def InTable (file : FileNode) (index : Nat) : Prop :=
  file.header.programOffset + index * programHeaderSize + programHeaderSize ≤ file.size

theorem inTable_of_valid (valid : ValidElf file.header file.size) {i : Nat}
    (mem : i ∈ range file.header.programCount) : InTable file i := by
  have counted := mem_range.mp mem
  have size : programHeaderSize = 32 := rfl
  obtain ⟨-, -, -, -, -, -, -, -, -, -, begins, fits⟩ := valid
  rw [InTable]
  rw [size] at fits ⊢
  omega

/-- A reader that gets the bytes of the file in every memory of some kind.  The segments that are
loaded with it leave a memory of that kind. -/
structure Serves (file : FileNode) (Holds : Bytes → Prop) (base : Nat) (reader : Reader) : Prop where
  reads : ∀ {memory}, Holds memory → ∀ offset size, offset + size ≤ file.size →
    ∃ data, reader memory offset size = some data ∧
      ∀ position < size, data position = file.bytes (offset + position)
  loads : ∀ {memory}, Holds memory → ∀ segment ∈ file.loadable, SegmentFits file.size segment →
    loadSegment reader base segment memory = some (file.putSegment memory segment) ∧
      Holds (file.putSegment memory segment)

/-- Where a segment's bytes and the zeros behind them are put. -/
theorem putSegment_eq (fits : SegmentFits file.size segment) {data : Bytes}
    (same : ∀ i < segment.fileSize, data i = file.bytes (segment.offset + i)) :
    splice (splice memory segment.virtualAddress segment.fileSize data)
        (segment.virtualAddress + segment.fileSize) (segment.memorySize - segment.fileSize)
        zeroBytes = file.putSegment memory segment := by
  have small := fits.1
  funext address
  simp only [FileNode.putSegment, FileNode.segmentByte]
  by_cases covered : segment.Covers address
  · rw [if_pos covered]
    rw [ProgramHeader.Covers] at covered
    split
    · rw [splice_outside (by omega), splice_inside (by omega), same _ (by omega)]
    · rw [splice_inside (by omega)]
      rfl
  · rw [if_neg covered]
    rw [ProgramHeader.Covers] at covered
    rw [splice_outside (by omega), splice_outside (by omega)]

theorem Reads.serves (reads : Reads file reader) : Serves file (fun _ => True) 0 reader where
  reads _ _ _ within := ⟨_, reads _ _ _ within, fun _ _ => rfl⟩
  loads _ segment _ fits := by
    have within : segment.offset + segment.fileSize ≤ file.size := by
      have inside := fits.2
      omega
    rw [loadSegment, placeSegment, if_neg (by decide), reads _ _ _ within]
    exact ⟨congrArg some (putSegment_eq fits fun _ _ => rfl), trivial⟩

theorem surveySegments_congr (same : ∀ i ∈ indices, readProgramHeader reader header memory i =
      readProgramHeader reader' header memory i) :
    surveySegments reader { header with ident } fileSize memory indices survey =
      surveySegments reader' header fileSize memory indices survey := by
  induction indices generalizing survey with
  | nil => rfl
  | cons first rest ih =>
    have later := fun survey => @ih survey fun i mem => same i (mem_cons_of_mem first mem)
    have reading : readProgramHeader reader { header with ident } memory first = _ :=
      same first mem_cons_self
    rw [surveySegments, surveySegments, reading]
    simp only [later]
    rfl

section Serving
variable {Holds : Bytes → Prop} {base : Nat} (serves : Serves file Holds base reader)
include serves

/-- The header can differ from that of the file in bytes of its identification that do not
count. -/
theorem Serves.header (holds : Holds memory) (long : elfHeaderSize ≤ file.size) :
    ∃ data, reader memory 0 elfHeaderSize = some data ∧
      decodeElfHeader data = { file.header with ident := data } ∧
      (ValidElf { file.header with ident := data } file.size ↔ ValidElf file.header file.size) := by
  obtain ⟨data, reading, same⟩ := serves.reads holds 0 elfHeaderSize (by omega)
  have size : elfHeaderSize = 52 := rfl
  simp only [Nat.zero_add] at same
  refine ⟨data, reading, ?_, ?_⟩
  · simp (disch := omega) only [decodeElfHeader, FileNode.header, littleU16_below same,
      littleU32_below same]
  · have ident : file.header.ident = file.bytes := rfl
    simp [ValidElf, ident, same, size]

theorem Serves.programHeader (holds : Holds memory) (inside : InTable file i) :
    readProgramHeader reader file.header memory i = some (file.segment i) := by
  obtain ⟨data, reading, same⟩ := serves.reads holds _ programHeaderSize inside
  have size : programHeaderSize = 32 := rfl
  rw [readProgramHeader, reading]
  simp (disch := omega) [FileNode.segment, decodeProgramHeader, littleU32_below same]

theorem Serves.loadSegments (holds : Holds memory)
    (inside : ∀ i ∈ indices, InTable file i ∧ i < file.header.programCount)
    (fits : ∀ segment ∈ file.loadable, SegmentFits file.size segment) :
    loadSegments reader { file.header with ident } base writableOnly indices memory =
      (true, (((indices.map file.segment).filter (·.Loads)).filter
        fun segment => !writableOnly || segment.Writable).foldl file.putSegment memory) := by
  induction indices generalizing memory with
  | nil => rfl
  | cons first rest ih =>
    have later := fun memory holds => @ih memory holds
      (fun i mem => inside i (mem_cons_of_mem first mem))
    obtain ⟨table, counted⟩ := inside first mem_cons_self
    have reading : readProgramHeader reader { file.header with ident } memory first = _ :=
      serves.programHeader holds table
    rw [Process.loadSegments, reading]
    by_cases loads : (file.segment first).Loads
    · have mem : file.segment first ∈ file.loadable := by
        simpa [FileNode.loadable, loads] using ⟨first, counted, rfl⟩
      obtain ⟨loaded, kept⟩ := serves.loads holds _ mem (fits _ mem)
      dsimp only
      rw [loaded]
      cases writableOnly <;> by_cases writable : (file.segment first).Writable <;>
        simp [loads, writable, later, holds, kept]
    · simp [loads, later, holds]

end Serving

theorem loadable_eq (valid : ValidElf file.header file.size)
    (read : (range file.header.programCount).map (readProgramHeader file.reader file.header memory) =
      segments.map some) : segments.filter (·.Loads) = file.loadable := by
  rw [map_congr_left fun i mem =>
      file.reads.serves.programHeader trivial (inTable_of_valid valid mem),
    ← Function.comp_def, ← map_map] at read
  rw [FileNode.loadable, ← (map_inj_right fun _ _ => Option.some.inj).mp read]

theorem Serves.loadImageFrom (serves : Serves file Holds base reader) (holds : Holds memory) :
    loadImageFrom file.size reader writableOnly base memory = file.load writableOnly memory := by
  rw [Process.loadImageFrom, FileNode.load]
  by_cases short : file.size < elfHeaderSize
  · rw [if_pos short, if_pos (.inl short)]
  obtain ⟨data, reading, decoded, same⟩ := serves.header holds (Nat.not_lt.mp short)
  rw [if_neg short, reading]
  dsimp only
  rw [decoded]
  by_cases valid : ValidElf file.header file.size
  · have inside := fun i => @inTable_of_valid file valid i
    rw [if_neg (not_not.mpr (same.mpr valid)), if_neg (by simp [short, valid]),
      surveySegments_congr fun i mem => (serves.programHeader holds (inside i mem)).trans
        (file.reads.serves.programHeader trivial (inside i mem)).symm]
    cases surveyed : surveySegments file.reader file.header file.size memory
      (range file.header.programCount) {} with
    | none => rfl
    | some survey =>
      obtain ⟨segments, read, judged⟩ := surveySegments_surveyed .start surveyed
      rw [nil_append, loadable_eq valid read] at judged
      rw [serves.loadSegments holds (fun i mem => ⟨inside i mem, mem_range.mp mem⟩) judged.fits]
      rfl
  · rw [if_pos (mt same.mp valid), if_pos (.inr valid)]

theorem foldl_putSegment (address : Nat) :
    segments.foldl file.putSegment memory address =
      (segments.filter (·.Covers address)).getLast?.elim (memory address)
        (file.segmentByte · address) := by
  induction segments generalizing memory with
  | nil => rfl
  | cons first rest ih =>
    rw [foldl_cons, ih, FileNode.putSegment]
    by_cases covered : first.Covers address
    · simp only [covered, decide_true, if_true, filter_cons, getLast?_cons, Option.elim_some]
      cases (rest.filter (·.Covers address)).getLast? <;> rfl
    · simp [covered]

end Files

/-- A file is refused before memory changes, or loaded as a whole. -/
theorem FileNode.load_cases (file : FileNode) (writableOnly : Bool) (memory : Bytes) :
    file.load writableOnly memory = (none, memory) ∨
      ∃ survey, Surveyed file.header file.size file.loadable survey ∧ survey.programHeaders ≠ 0 ∧
        file.load writableOnly memory = (some
            { entry := file.header.entry
              programHeaders := survey.programHeaders
              programCount := file.header.programCount
              brk := alignUp survey.imageEnd 4096
              mutableBegin := survey.mutableBegin },
            (file.written writableOnly).foldl file.putSegment memory) := by
  rw [load]
  split
  · exact .inl rfl
  rename_i valid
  rw [not_or, not_not] at valid
  split
  · exact .inl rfl
  rename_i survey surveyed
  split
  · exact .inl rfl
  rename_i found
  obtain ⟨segments, read, judged⟩ := surveySegments_surveyed .start surveyed
  rw [nil_append, loadable_eq valid.2 read] at judged
  exact .inr ⟨survey, judged, found, rfl⟩

/-- Every reader of a file loads the segments that the file describes, or changes nothing. -/
theorem loadImageFrom_loads (file : FileNode) (writableOnly : Bool) (memory : Bytes) :
    ∃ image memory',
      (∀ reader, Reads file reader →
        loadImageFrom file.size reader writableOnly 0 memory = (image, memory')) ∧
      match image with
      | none => memory' = memory
      | some image => file.Loaded writableOnly memory image memory' := by
  refine ⟨(file.load writableOnly memory).1, (file.load writableOnly memory).2,
    fun reader reads => reads.serves.loadImageFrom trivial, ?_⟩
  obtain refused | ⟨survey, surveyed, found, loaded⟩ := file.load_cases writableOnly memory
  · rw [refused]
  rw [loaded]
  -- the table of program headers is in a loadable segment, which ends behind the begin
  obtain none | ⟨table, member, holds, address⟩ := surveyed.programHeaders
  · exact absurd none found
  refine ⟨fun address => foldl_putSegment address,
    fun segment member address => (surveyed.fits segment member).user, ?_, ⟨surveyed.begins, ?_⟩,
    table, member, holds, address⟩
  · obtain ⟨last, member', top⟩ : ∃ last ∈ file.loadable, survey.imageEnd = last.limit := by
      obtain first | last := surveyed.imageEnd
      · have ends := surveyed.ends table member
        have inside := (surveyed.fits table member).2.2.2
        rw [UserContains] at inside
        rw [ProgramHeader.limit] at ends
        exact ⟨table, member, by rw [ProgramHeader.limit]; omega⟩
      · exact last
    have inside := (surveyed.fits last member').2.2.2
    have ends : userEnd = 0x82000000 := rfl
    rw [UserContains] at inside
    rw [top]
    refine ⟨last, member', fun segment member => top ▸ surveyed.ends segment member, ?_⟩
    rw [ProgramHeader.limit]
    refine ⟨le_alignUp (by decide) (by omega), ?_, alignUp_mod ..⟩
    have down := alignDown_le (last.virtualAddress + last.memorySize + 4096 - 1) 4096
    dsimp only
    rw [alignUp, wrap_of_lt (by omega)]
    omega
  obtain none | found := surveyed.mutableBegin
  · by_cases some : ∃ segment ∈ file.loadable, segment.Writable
    · obtain ⟨segment, member, writable⟩ := some
      have low := surveyed.begins segment member writable
      have high := (surveyed.fits segment member).2.2.2.2.1
      exact .inl ⟨segment, member, writable, by dsimp only; omega⟩
    · exact .inr ⟨none, fun segment member writable => some ⟨segment, member, writable⟩⟩
  · exact .inl found

/-! ## Refused files -/

theorem loadSegments_total (total : ∀ memory offset size, (reader memory offset size).isSome) :
    (loadSegments reader header base writableOnly indices memory).1 = true := by
  induction indices generalizing memory with
  | nil => rfl
  | cons first rest ih =>
    obtain ⟨data, reading⟩ := Option.isSome_iff_exists.mp
      (total memory (header.programOffset + first * programHeaderSize) programHeaderSize)
    rw [loadSegments, readProgramHeader, reading]
    dsimp only [Option.map_some]
    generalize decodeProgramHeader data = segment
    split
    · exact ih
    obtain ⟨bytes, reading⟩ := Option.isSome_iff_exists.mp
      (total memory segment.offset segment.fileSize)
    have placed : ∃ placed, loadSegment reader base segment memory = some placed := by
      rw [loadSegment, placeSegment, reading]
      split
      · split <;> exact ⟨_, rfl⟩
      · exact ⟨_, rfl⟩
    obtain ⟨placed, loaded⟩ := placed
    rw [loaded]
    exact ih

theorem loadImage_refused (refused : loadImage file writableOnly memory = (none, memory')) :
    memory' = memory := by
  rw [loadImage] at refused
  split at refused
  · cases refused
    rfl
  rw [file.reads.serves.loadImageFrom trivial] at refused
  obtain same | ⟨survey, -, -, loaded⟩ := file.load_cases writableOnly memory
  · rw [same] at refused
    cases refused
    rfl
  · rw [loaded] at refused
    cases refused

theorem loadPreloadedImage_refused
    (refused : loadPreloadedImage file base size memory = (none, memory')) : memory' = memory := by
  rw [loadPreloadedImage] at refused
  split at refused
  · cases refused
    rfl
  obtain same | ⟨header, segments, survey, -, -, -, -, -, loaded⟩ :=
    loadImageFrom_cases file.size (preloadedReader base) false base memory
  · rw [same] at refused
    cases refused
    rfl
  · rw [loaded] at refused
    dsimp only at refused
    rw [loadSegments_total fun _ _ _ => rfl] at refused
    cases refused

end Mikos.Process
