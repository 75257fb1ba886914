import Mathlib.Data.List.DropRight
import Mikos.Library.Words
import Mikos.Fs.Basic

/-!
# Volumes of the ext4 driver

The driver's in-memory state and its routines, function by function.  Numbers of
the source's fixed widths are natural numbers, reduced where a computation of the
source may wrap.  The two scratch buffers and the copy of the superblock are part
of the state, because routines that call each other share them.
-/

namespace Mikos.Ext4
open Library Fs

/-! ## Data -/

inductive NodeType where
  | regular | directory | symbolicLink | other
  deriving DecidableEq, Repr

/-- The driver's copy of an inode, with where it was found. -/
structure Node where
  inode : Nat := 0
  mode : Nat := 0
  links : Nat := 0
  flags : Nat := 0
  size : Nat := 0
  allocatedSectors : Nat := 0
  generation : Nat := 0
  inodeOffset : Nat := 0
  directoryEntryOffset : Nat := 0
  blockData : Bytes := zeroBytes
  type : NodeType := .other

/-- What a directory scan shows of a record. -/
structure Entry where
  name : List UInt8
  node : Node

/-- The layout of a volume.  The counts of free objects, which change, are kept
in the volume itself. -/
structure Geometry where
  blockSize : Nat := 0
  blockCount : Nat := 0
  firstDataBlock : Nat := 0
  blocksPerGroup : Nat := 0
  inodesPerGroup : Nat := 0
  inodeCount : Nat := 0
  inodeSize : Nat := 0
  descriptorSize : Nat := 0
  groupCount : Nat := 0
  compatibleFeatures : Nat := 0
  incompatibleFeatures : Nat := 0
  readOnlyFeatures : Nat := 0
  firstInode : Nat := 0
  deriving DecidableEq, Repr

structure Volume where
  device : Device
  geometry : Geometry := {}
  freeBlocks : Nat := 0
  freeInodes : Nat := 0
  mounted : Bool := false
  superblock : Bytes := zeroBytes
  block : Bytes := zeroBytes
  directoryBlock : Bytes := zeroBytes

abbrev Volume.image (volume : Volume) : Bytes := volume.device.image

def ext4Magic : Nat := 0xef53
def extentMagic : Nat := 0xf30a
def rootInode : Nat := 2
def compatibleJournal : Nat := 0x0004
def incompatFileType : Nat := 0x0002
def incompatRecover : Nat := 0x0004
def incompatExtents : Nat := 0x0040
def incompat64Bit : Nat := 0x0080
def incompatFlexBg : Nat := 0x0200
def incompatChecksumSeed : Nat := 0x2000
def incompatLargeDirectory : Nat := 0x4000
def readOnlyBigalloc : Nat := 0x0200
def readOnlyMetadataChecksum : Nat := 0x0400
def inodeExtents : Nat := 0x00080000
def inodeInlineData : Nat := 0x10000000
def nameCapacity : Nat := 768

/-- A mask of flags has one of the given bits. -/
def hasFlag (flags mask : Nat) : Bool := flags &&& mask ≠ 0

def typeFromMode (mode : Nat) : NodeType :=
  if mode &&& 0xf000 = 0x4000 then .directory
  else if mode &&& 0xf000 = 0x8000 then .regular
  else if mode &&& 0xf000 = 0xa000 then .symbolicLink
  else .other

namespace Geometry

/-- Numbers of blocks have a high half. -/
def is64Bit (geometry : Geometry) : Bool := hasFlag geometry.incompatibleFeatures incompat64Bit

/-- Directory records say the type of their inode. -/
def hasFileType (geometry : Geometry) : Bool :=
  hasFlag geometry.incompatibleFeatures incompatFileType

def validPhysicalBlock (geometry : Geometry) (block : Nat) : Bool :=
  block ≠ 0 && block < geometry.blockCount

def groupDescriptorOffset (geometry : Geometry) (group : Nat) : Nat :=
  (geometry.firstDataBlock + 1) * geometry.blockSize + group * geometry.descriptorSize

/-- The part of a group descriptor that is read and written. -/
def descriptorBytes (geometry : Geometry) : Nat := min geometry.descriptorSize 64

end Geometry

/-! ## Mounting -/

/-- Features that change the layout in ways the driver knows. -/
def supportedIncompatible : Nat :=
  incompatFileType ||| incompatRecover ||| incompatExtents ||| incompat64Bit |||
    incompatFlexBg ||| incompatChecksumSeed ||| incompatLargeDirectory

/-- The geometry that a superblock describes, before it is checked. -/
def superblockGeometry (superblock : Bytes) : Geometry :=
  let revision := littleU32 superblock 0x4c
  let incompatible := littleU32 superblock 0x60
  let wide := hasFlag incompatible incompat64Bit
  let blockCount := littleU32 superblock 0x04 +
    if wide then 0x100000000 * littleU32 superblock 0x150 else 0
  let firstDataBlock := littleU32 superblock 0x14
  let blocksPerGroup := littleU32 superblock 0x20
  -- Larger exponents are refused.
  { blockSize := 1024 * 2 ^ min (littleU32 superblock 0x18) 2
    blockCount
    firstDataBlock
    blocksPerGroup
    inodesPerGroup := littleU32 superblock 0x28
    inodeCount := littleU32 superblock 0x00
    inodeSize := if revision = 0 then 128 else littleU16 superblock 0x58
    descriptorSize := if wide then littleU16 superblock 0xfe else 32
    groupCount := wrap 64 (blockCount - firstDataBlock + blocksPerGroup - 1) / blocksPerGroup
    compatibleFeatures := littleU32 superblock 0x5c
    incompatibleFeatures := incompatible
    readOnlyFeatures := littleU32 superblock 0x64
    firstInode := if revision = 0 then 11 else littleU32 superblock 0x54 }

def mount (device : Device) : Except Error Volume := do
  let superblock ← device.readExact 1024 1024 zeroBytes
  if littleU16 superblock 0x38 ≠ ext4Magic then throw .invalidFormat
  let geometry := superblockGeometry superblock
  -- All other incompatible features, and clusters of blocks, are refused.
  if geometry.incompatibleFeatures &&& supportedIncompatible ≠ geometry.incompatibleFeatures ∨
      hasFlag geometry.readOnlyFeatures readOnlyBigalloc then throw .unsupported
  if 2 < littleU32 superblock 0x18 then throw .unsupported
  if geometry.inodeCount < rootInode ∨ geometry.blocksPerGroup = 0 ∨
      geometry.inodesPerGroup = 0 ∨ geometry.inodeSize < 128 ∨
      geometry.blockSize < geometry.inodeSize ∨ geometry.inodeSize % 4 ≠ 0 then
    throw .invalidFormat
  if geometry.is64Bit ∧
      (geometry.descriptorSize < 64 ∨ geometry.blockSize < geometry.descriptorSize) then
    throw .invalidFormat
  if geometry.blockCount ≤ geometry.firstDataBlock then throw .invalidFormat
  if geometry.groupCount = 0 ∨ 0xffffffff < geometry.groupCount then throw .unsupported
  if geometry.groupCount * geometry.inodesPerGroup < geometry.inodeCount ∨
      2 ^ 64 ≤ geometry.blockCount * geometry.blockSize ∨
      device.size < geometry.blockCount * geometry.blockSize then
    throw .outOfBounds
  return {
    device
    geometry
    freeBlocks := littleU32 superblock 0x0c +
      if geometry.is64Bit then 0x100000000 * littleU32 superblock 0x158 else 0
    freeInodes := littleU32 superblock 0x10
    mounted := true
    superblock }

namespace Volume

def writableFormat (volume : Volume) : Bool :=
  volume.mounted && !hasFlag volume.geometry.readOnlyFeatures readOnlyMetadataChecksum &&
    !hasFlag volume.geometry.compatibleFeatures compatibleJournal &&
    !hasFlag volume.geometry.incompatibleFeatures incompatRecover

end Volume

/-! ## Access to the device -/

/-- A routine of the driver: it may fail, and keeps what it did until then. -/
abbrev Action := EStateM Error Volume

def readExact (offset size : Nat) (output : Bytes) : Action Bytes := fun volume =>
  match volume.device.readExact offset size output with
  | .ok bytes => .ok bytes volume
  | .error error => .error error volume

def writeExact (offset size : Nat) (input : Bytes) : Action Unit := fun volume =>
  match volume.device.writeExact offset size input with
  | .ok device => .ok () { volume with device }
  | .error error => .error error volume

def readPhysicalBlock (block : Nat) (output : Bytes) : Action Bytes := do
  let geometry := (← get).geometry
  if geometry.validPhysicalBlock block then
    readExact (block * geometry.blockSize) geometry.blockSize output
  else
    throw .corrupt

/-- Read a block into the scratch buffer of the routines that allocate. -/
def loadBlock (block : Nat) : Action Unit := do
  let bytes ← readPhysicalBlock block (← get).block
  modify fun volume => { volume with block := bytes }

/-- Read a block into the scratch buffer of the directory routines. -/
def loadDirectoryBlock (block : Nat) : Action Unit := do
  let bytes ← readPhysicalBlock block (← get).directoryBlock
  modify fun volume => { volume with directoryBlock := bytes }

/-! ## Group descriptors and counts -/

structure GroupDescriptor where
  blockBitmap : Nat := 0
  inodeBitmap : Nat := 0
  inodeTable : Nat := 0
  freeBlocks : Nat := 0
  freeInodes : Nat := 0
  usedDirectories : Nat := 0
  deriving DecidableEq, Repr

def parseDescriptor (geometry : Geometry) (raw : Bytes) : GroupDescriptor :=
  let high32 (offset : Nat) : Nat :=
    if geometry.is64Bit then 0x100000000 * littleU32 raw offset else 0
  let high16 (offset : Nat) : Nat :=
    if geometry.is64Bit then 0x10000 * littleU16 raw offset else 0
  { blockBitmap := littleU32 raw 0x00 + high32 0x20
    inodeBitmap := littleU32 raw 0x04 + high32 0x24
    inodeTable := littleU32 raw 0x08 + high32 0x28
    freeBlocks := littleU16 raw 0x0c + high16 0x2c
    freeInodes := littleU16 raw 0x0e + high16 0x2e
    usedDirectories := littleU16 raw 0x10 + high16 0x30 }

def readGroupDescriptor (group : Nat) : Action GroupDescriptor := do
  let geometry := (← get).geometry
  if geometry.groupCount ≤ group then
    throw .outOfBounds
  else
    let raw ← readExact (geometry.groupDescriptorOffset group) geometry.descriptorBytes zeroBytes
    let descriptor := parseDescriptor geometry raw
    if geometry.validPhysicalBlock descriptor.blockBitmap &&
        geometry.validPhysicalBlock descriptor.inodeBitmap &&
        geometry.validPhysicalBlock descriptor.inodeTable then
      return descriptor
    else
      throw .corrupt

def putCounts (geometry : Geometry) (raw : Bytes) (descriptor : GroupDescriptor) : Bytes :=
  let low := put16 (put16 (put16 raw 0x0c descriptor.freeBlocks) 0x0e descriptor.freeInodes)
    0x10 descriptor.usedDirectories
  if geometry.is64Bit then
    put16 (put16 (put16 low 0x2c (descriptor.freeBlocks / 0x10000)) 0x2e
      (descriptor.freeInodes / 0x10000)) 0x30 (descriptor.usedDirectories / 0x10000)
  else
    low

def writeGroupFreeCounts (group : Nat) (descriptor : GroupDescriptor) : Action Unit := do
  let geometry := (← get).geometry
  let offset := geometry.groupDescriptorOffset group
  let raw ← readExact offset geometry.descriptorBytes zeroBytes
  writeExact offset geometry.descriptorBytes (putCounts geometry raw descriptor)

def putSuperblockCounts (geometry : Geometry) (superblock : Bytes)
    (freeBlocks freeInodes : Nat) : Bytes :=
  let low := put32 (put32 superblock 0x0c freeBlocks) 0x10 freeInodes
  if geometry.is64Bit then put32 low 0x158 (freeBlocks / 0x100000000) else low

def writeSuperblockFreeCounts : Action Unit := do
  modify fun volume =>
    { volume with
      superblock := putSuperblockCounts volume.geometry volume.superblock volume.freeBlocks
        volume.freeInodes }
  writeExact 1024 1024 (← get).superblock

/-! ## Mapping the blocks of a file -/

/-- A block of a file; a hole reads as zero bytes. -/
structure BlockMapping where
  physical : Nat := 0
  zero : Bool := true
  deriving DecidableEq, Repr

/-- An entry of a leaf of an extent tree. -/
structure Extent where
  first : Nat
  rawLength : Nat
  physical : Nat
  deriving DecidableEq, Repr

def extentAt (extentNode : Bytes) (index : Nat) : Extent where
  first := littleU32 extentNode (12 + index * 12)
  rawLength := littleU16 extentNode (12 + index * 12 + 4)
  physical := littleU32 extentNode (12 + index * 12 + 8) +
    0x100000000 * littleU16 extentNode (12 + index * 12 + 6)

/-- Search the extents of a leaf from an index on; they must not overlap. -/
def leafMapping (geometry : Geometry) (extentNode : Bytes) (logical : Nat) :
    (remaining index previousEnd : Nat) → Except Error BlockMapping
  | 0, _, _ => .ok {}
  | remaining + 1, index, previousEnd =>
    let extent := extentAt extentNode index
    let uninitialized := 32768 < extent.rawLength
    let length := if uninitialized then extent.rawLength - 32768 else extent.rawLength
    let stop := extent.first + length
    if extent.rawLength = 0 then
      .error .corrupt
    else if (index ≠ 0 ∧ extent.first < previousEnd) ∨ 0x100000000 < stop then
      .error .corrupt
    else if logical < extent.first ∨ stop ≤ logical then
      leafMapping geometry extentNode logical remaining (index + 1) stop
    else if uninitialized then
      .ok {}
    else
      let mapped := extent.physical + (logical - extent.first)
      if geometry.validPhysicalBlock mapped then .ok ⟨mapped, false⟩ else .error .corrupt

/-- The child for a logical block: the last index entry that starts at or before
it.  The entries must increase. -/
def selectIndex (extentNode : Bytes) (logical : Nat) :
    (remaining index previous : Nat) → (selected : Option Nat) → Except Error (Option Nat)
  | 0, _, _, selected => .ok selected
  | remaining + 1, index, previous, selected =>
    let first := littleU32 extentNode (12 + index * 12)
    if index ≠ 0 ∧ first ≤ previous then
      .error .corrupt
    else if first ≤ logical then
      selectIndex extentNode logical remaining (index + 1) first
        (some (littleU32 extentNode (12 + index * 12 + 4) +
          0x100000000 * littleU16 extentNode (12 + index * 12 + 8)))
    else
      .ok selected

section Mapping
variable {m : Type → Type} [Monad m] [MonadExceptOf Error m]

/-- Descend an extent tree from a node that must have the expected depth.  The
routines below read blocks through `fetch`: into the scratch buffer when they run
on a volume. -/
def mapExtentsAt (geometry : Geometry) (fetch : Nat → m Bytes) (logical : Nat) :
    (expectedDepth capacity : Nat) → (extentNode : Bytes) → m BlockMapping
  | expectedDepth, capacity, extentNode => do
    let entries := littleU16 extentNode 2
    let maximum := littleU16 extentNode 4
    if capacity < 12 ∨ littleU16 extentNode 0 ≠ extentMagic ∨
        littleU16 extentNode 6 ≠ expectedDepth ∨ maximum < entries ∨
        (capacity - 12) / 12 < maximum then
      throw .corrupt
    else
      match expectedDepth with
      | 0 => MonadExcept.ofExcept (leafMapping geometry extentNode logical entries 0 0)
      | depth + 1 =>
        match ← MonadExcept.ofExcept (selectIndex extentNode logical entries 0 0 none) with
        | none => return {}
        | some child =>
          let next ← fetch child
          mapExtentsAt geometry fetch logical depth geometry.blockSize next

def mapExtents (geometry : Geometry) (fetch : Nat → m Bytes) (node : Node) (logical : Nat) :
    m BlockMapping :=
  let depth := littleU16 node.blockData 6
  if 5 < depth then throw .corrupt
  else mapExtentsAt geometry fetch logical depth 60 node.blockData

def indirectPointer (geometry : Geometry) (fetch : Nat → m Bytes) (block index : Nat) : m Nat :=
  if block = 0 then
    return 0
  else do
    let bytes ← fetch block
    let value := littleU32 bytes (index * 4)
    if geometry.blockSize / 4 ≤ index ∨
        (value ≠ 0 ∧ geometry.validPhysicalBlock value = false) then
      throw .corrupt
    else
      return value

/-- A block pointer as a mapping; zero marks a hole. -/
def pointerMapping (block : Nat) : BlockMapping := ⟨block, block = 0⟩

def mapLegacy (geometry : Geometry) (fetch : Nat → m Bytes) (node : Node) (logical : Nat) :
    m BlockMapping :=
  let pointers := geometry.blockSize / 4
  let indirect := indirectPointer geometry fetch
  if logical < 12 then
    let block := littleU32 node.blockData (logical * 4)
    if block ≠ 0 ∧ geometry.validPhysicalBlock block = false then throw .corrupt
    else return pointerMapping block
  else
    let remaining := logical - 12
    if remaining < pointers then do
      return pointerMapping (← indirect (littleU32 node.blockData 48) remaining)
    else
      let remaining := remaining - pointers
      if remaining < pointers * pointers then do
        let single ← indirect (littleU32 node.blockData 52) (remaining / pointers)
        return pointerMapping (← indirect single (remaining % pointers))
      else
        let remaining := remaining - pointers * pointers
        if pointers * pointers * pointers ≤ remaining then throw .outOfBounds
        else do
          let double ← indirect (littleU32 node.blockData 56) (remaining / (pointers * pointers))
          let within := remaining % (pointers * pointers)
          let single ← indirect double (within / pointers)
          return pointerMapping (← indirect single (within % pointers))

def mapBlockWith (geometry : Geometry) (fetch : Nat → m Bytes) (node : Node) (logical : Nat) :
    m BlockMapping :=
  if hasFlag node.flags inodeInlineData then throw .unsupported
  else if hasFlag node.flags inodeExtents then mapExtents geometry fetch node logical
  else mapLegacy geometry fetch node logical

end Mapping

/-- Read a block into the scratch buffer and look at it. -/
def fetchBlock (block : Nat) : Action Bytes := do
  loadBlock block
  return (← get).block

def mapBlock (node : Node) (logical : Nat) : Action BlockMapping := do
  mapBlockWith (← get).geometry fetchBlock node logical

/-! ## Bitmaps -/

def bitAt (bytes : Bytes) (bit : Nat) : Bool := (bytes (bit / 8)).toNat.testBit (bit % 8)

def setBit (bytes : Bytes) (bit : Nat) : Bytes :=
  Function.update bytes (bit / 8) (UInt8.ofNat ((bytes (bit / 8)).toNat ||| 2 ^ (bit % 8)))

def clearBit (bytes : Bytes) (bit : Nat) : Bytes :=
  Function.update bytes (bit / 8)
    (UInt8.ofNat ((bytes (bit / 8)).toNat &&& (255 - 2 ^ (bit % 8))))

/-- The first bit from `bit` on, of `remaining` many, that satisfies a test. -/
def findBit (test : Nat → Bool) : (bit remaining : Nat) → Option Nat
  | _, 0 => none
  | bit, remaining + 1 => if test bit then some bit else findBit test (bit + 1) remaining

/-- Write the counts of a group and of the volume after an allocation or a release. -/
def writeCounts (group : Nat) (descriptor : GroupDescriptor) : Action Unit := do
  writeGroupFreeCounts group descriptor
  writeSuperblockFreeCounts

/-- Take a free block out of the bitmap that is in the scratch buffer. -/
def takeBlock (group : Nat) (descriptor : GroupDescriptor) (bit : Nat) : Action Nat := do
  let geometry := (← get).geometry
  modify fun volume => { volume with block := setBit volume.block bit }
  writeExact (descriptor.blockBitmap * geometry.blockSize) geometry.blockSize (← get).block
  modify fun volume =>
    { volume with freeBlocks := wrapSub 64 volume.freeBlocks 1 }
  writeCounts group { descriptor with freeBlocks := descriptor.freeBlocks - 1 }
  modify fun volume => { volume with block := splice volume.block 0 geometry.blockSize zeroBytes }
  let allocated := geometry.firstDataBlock + group * geometry.blocksPerGroup + bit
  writeExact (allocated * geometry.blockSize) geometry.blockSize (← get).block
  return allocated

/-- Allocate in the groups from `group` on, `remaining` many. -/
def allocateBlockFrom : (group remaining : Nat) → Action Nat
  | _, 0 => throw .noSpace
  | group, remaining + 1 => do
    let geometry := (← get).geometry
    let descriptor ← readGroupDescriptor group
    if descriptor.freeBlocks = 0 then
      allocateBlockFrom (group + 1) remaining
    else
      loadBlock descriptor.blockBitmap
      let bytes := (← get).block
      let first := geometry.firstDataBlock + group * geometry.blocksPerGroup
      let count := min geometry.blocksPerGroup (geometry.blockCount - first)
      match findBit (fun bit => !bitAt bytes bit) 0 count with
      | some bit => takeBlock group descriptor bit
      | none => throw .corrupt

def allocateBlock : Action Nat := do
  if (← get).writableFormat then
    allocateBlockFrom 0 (← get).geometry.groupCount
  else
    throw .unsupported

def takeInode (group : Nat) (descriptor : GroupDescriptor) (bit : Nat) : Action Unit := do
  let geometry := (← get).geometry
  modify fun volume => { volume with block := setBit volume.block bit }
  writeExact (descriptor.inodeBitmap * geometry.blockSize) geometry.blockSize (← get).block
  modify fun volume =>
    { volume with freeInodes := wrapSub 32 volume.freeInodes 1 }
  writeCounts group { descriptor with freeInodes := descriptor.freeInodes - 1 }
  modify fun volume => { volume with block := splice volume.block 0 geometry.inodeSize zeroBytes }
  writeExact (wrap 64 (descriptor.inodeTable * geometry.blockSize + bit * geometry.inodeSize))
    geometry.inodeSize (← get).block

def allocateInodeFrom : (group remaining : Nat) → Action Nat
  | _, 0 => throw .noSpace
  | group, remaining + 1 => do
    let geometry := (← get).geometry
    let descriptor ← readGroupDescriptor group
    if descriptor.freeInodes = 0 then
      allocateInodeFrom (group + 1) remaining
    else
      loadBlock descriptor.inodeBitmap
      let bytes := (← get).block
      let first := wrap 32 (group * geometry.inodesPerGroup + 1)
      let count := min geometry.inodesPerGroup
        (wrap 32 (wrapSub 32 geometry.inodeCount first + 1))
      let free (bit : Nat) : Bool := geometry.firstInode ≤ wrap 32 (first + bit) && !bitAt bytes bit
      match findBit free 0 count with
      | some bit =>
        takeInode group descriptor bit
        return wrap 32 (first + bit)
      | none => throw .corrupt

def allocateInode : Action Nat := do
  if (← get).writableFormat then
    allocateInodeFrom 0 (← get).geometry.groupCount
  else
    throw .unsupported

def releaseBlock (block : Nat) : Action Unit := do
  let volume ← get
  let geometry := volume.geometry
  if volume.writableFormat = false ∨ geometry.validPhysicalBlock block = false ∨
      block < geometry.firstDataBlock then
    throw .invalidArgument
  else
    let group := wrap 32 ((block - geometry.firstDataBlock) / geometry.blocksPerGroup)
    let bit := (block - geometry.firstDataBlock) % geometry.blocksPerGroup
    let descriptor ← readGroupDescriptor group
    let tableBlocks :=
      (geometry.inodesPerGroup * geometry.inodeSize + geometry.blockSize - 1) / geometry.blockSize
    if block = descriptor.blockBitmap ∨ block = descriptor.inodeBitmap ∨
        (descriptor.inodeTable ≤ block ∧ block < descriptor.inodeTable + tableBlocks) then
      throw .invalidArgument
    else
      loadBlock descriptor.blockBitmap
      if bitAt (← get).block bit = false then
        throw .corrupt
      else
        modify fun volume =>
          { volume with
            directoryBlock := splice volume.directoryBlock 0 geometry.blockSize zeroBytes }
        writeExact (block * geometry.blockSize) geometry.blockSize (← get).directoryBlock
        modify fun volume => { volume with block := clearBit volume.block bit }
        writeExact (descriptor.blockBitmap * geometry.blockSize) geometry.blockSize (← get).block
        modify fun volume => { volume with freeBlocks := wrap 64 (volume.freeBlocks + 1) }
        writeCounts group
          { descriptor with freeBlocks := wrap 32 (descriptor.freeBlocks + 1) }

def releaseInode (inode : Nat) : Action Unit := do
  let volume ← get
  let geometry := volume.geometry
  if volume.writableFormat = false ∨ inode < geometry.firstInode ∨
      geometry.inodeCount < inode then
    throw .invalidArgument
  else
    let position := wrapSub 32 inode 1
    let group := position / geometry.inodesPerGroup
    let bit := position % geometry.inodesPerGroup
    let descriptor ← readGroupDescriptor group
    loadBlock descriptor.inodeBitmap
    if bitAt (← get).block bit = false then
      throw .corrupt
    else
      modify fun volume =>
        { volume with
          directoryBlock := splice volume.directoryBlock 0 geometry.inodeSize zeroBytes }
      writeExact (wrap 64 (descriptor.inodeTable * geometry.blockSize + bit * geometry.inodeSize))
        geometry.inodeSize (← get).directoryBlock
      modify fun volume => { volume with block := clearBit volume.block bit }
      writeExact (descriptor.inodeBitmap * geometry.blockSize) geometry.blockSize (← get).block
      modify fun volume => { volume with freeInodes := wrap 32 (volume.freeInodes + 1) }
      writeCounts group
        { descriptor with freeInodes := wrap 32 (descriptor.freeInodes + 1) }

/-! ## Inodes -/

/-- The inode in the first 128 bytes of its record. -/
def parseInode (raw : Bytes) (inode inodeOffset : Nat) : Node where
  inode
  mode := littleU16 raw 0x00
  links := littleU16 raw 0x1a
  flags := littleU32 raw 0x20
  size := littleU32 raw 0x04 + 0x100000000 * littleU32 raw 0x6c
  allocatedSectors := littleU32 raw 0x1c
  generation := littleU32 raw 0x64
  inodeOffset
  blockData := fun position => if position < 60 then raw (0x28 + position) else 0
  type := typeFromMode (littleU16 raw 0x00)

def readInode (inode : Nat) : Action Node := do
  let volume ← get
  let geometry := volume.geometry
  if volume.mounted = false ∨ inode = 0 ∨ geometry.inodeCount < inode then
    throw .outOfBounds
  else
    let group := (inode - 1) / geometry.inodesPerGroup
    let index := (inode - 1) % geometry.inodesPerGroup
    if geometry.groupCount ≤ group then
      throw .corrupt
    else
      let descriptor ←
        readExact (geometry.groupDescriptorOffset group) geometry.descriptorBytes zeroBytes
      let inodeTable := (parseDescriptor geometry descriptor).inodeTable
      if geometry.validPhysicalBlock inodeTable then
        let inodeOffset := wrap 64 (inodeTable * geometry.blockSize + index * geometry.inodeSize)
        let raw ← readExact inodeOffset 128 zeroBytes
        let node := parseInode raw inode inodeOffset
        if node.type = .other ∨ node.mode = 0 then throw .corrupt else return node
      else
        throw .corrupt

def root : Action Node := readInode rootInode

def initializeExtentInode (inode mode : Nat) (type : NodeType) : Action Node := do
  let geometry := (← get).geometry
  let position := wrapSub 32 inode 1
  let node : Node :=
    { inode
      mode
      links := 1
      flags := inodeExtents
      type
      blockData := put8 (put16 zeroBytes 0 extentMagic) 4 4 }
  tryCatch
    (do
      let descriptor ← readGroupDescriptor (position / geometry.inodesPerGroup)
      return { node with
        inodeOffset := wrap 64 (descriptor.inodeTable * geometry.blockSize +
          position % geometry.inodesPerGroup * geometry.inodeSize) })
    (fun _ => return node)

def putInode (raw : Bytes) (node : Node) : Bytes :=
  let head := put32 (put16 (put32 (put16 raw 0x00 node.mode) 0x04 node.size) 0x1a node.links)
    0x1c node.allocatedSectors
  let root := splice (put32 head 0x20 node.flags) 0x28 60 node.blockData
  put32 (put32 root 0x64 node.generation) 0x6c (node.size / 0x100000000)

def persistInode (node : Node) : Action Unit := do
  let geometry := (← get).geometry
  if node.inodeOffset = 0 ∨ 4096 < geometry.inodeSize then
    throw .corrupt
  else
    let raw ← readExact node.inodeOffset geometry.inodeSize (← get).block
    modify fun volume => { volume with block := putInode raw node }
    writeExact node.inodeOffset geometry.inodeSize (← get).block

/-! ## Files -/

/-- Add a block to the extents of a node: lengthen the last one or start another. -/
def appendExtent (node : Node) (logical physical : Nat) : Except Error Node :=
  let root := node.blockData
  let entries := littleU16 root 2
  let last := extentAt root (entries - 1)
  if littleU16 root 0 ≠ extentMagic ∨ littleU16 root 6 ≠ 0 then
    .error .unsupported
  else if entries ≠ 0 ∧ wrap 32 (last.first + last.rawLength) = logical ∧
      last.physical + last.rawLength = physical ∧ last.rawLength < 32768 then
    .ok { node with
      blockData := put16 root (12 + (entries - 1) * 12 + 4) (last.rawLength + 1) }
  else if 4 ≤ entries then
    .error .noSpace
  else
    let slot := 12 + entries * 12
    let extent := put32 (put16 (put16 (put32 root slot logical) (slot + 4) 1) (slot + 6)
      (physical / 0x100000000)) (slot + 8) physical
    .ok { node with blockData := put16 extent 2 (entries + 1) }

/-- A routine that also works on a node of its caller, and keeps what it did to it
when it fails. -/
abbrev FileAction := EStateM Error (Node × Volume)

/-- Run a routine of the volume beside a node. -/
def onVolume {α : Type} (action : Action α) : FileAction α := fun state =>
  match action state.2 with
  | .ok value volume => .ok value (state.1, volume)
  | .error error volume => .error error (state.1, volume)

/-- Run a routine and drop its error. -/
def attempt (action : Action Unit) : Action Unit := tryCatch action fun _ => return ()

/-- Allocate the logical blocks from `logical` on, `remaining` many. -/
def ensureBlocksFrom : (logical remaining : Nat) → FileAction Unit
  | _, 0 => return ()
  | logical, remaining + 1 => do
    let block ← onVolume allocateBlock
    match appendExtent (← get).1 logical block with
    | .error error =>
      onVolume (attempt (releaseBlock block))
      throw error
    | .ok node =>
      let geometry := (← get).2.geometry
      modify fun state =>
        ({ node with
            allocatedSectors := wrap 64 (node.allocatedSectors + geometry.blockSize / 512) },
          state.2)
      ensureBlocksFrom (logical + 1) remaining

/-- The number of blocks that hold `size` bytes, in 32 bits. -/
def blocksFor (geometry : Geometry) (size : Nat) : Nat :=
  wrap 32 (wrap 64 (size + geometry.blockSize - 1) / geometry.blockSize)

def ensureFileBlocks (size : Nat) : FileAction Unit := do
  let (node, volume) ← get
  let current := blocksFor volume.geometry node.size
  ensureBlocksFrom current (blocksFor volume.geometry size - current)

/-- Release consecutive blocks. -/
def releaseRun : (physical remaining : Nat) → Action Unit
  | _, 0 => return ()
  | physical, remaining + 1 => do
    releaseBlock physical
    releaseRun (physical + 1) remaining

def releaseExtents (extentNode : Bytes) : (index remaining : Nat) → Action Unit
  | _, 0 => return ()
  | index, remaining + 1 => do
    let extent := extentAt extentNode index
    releaseRun extent.physical extent.rawLength
    releaseExtents extentNode (index + 1) remaining

def releaseFileBlocks (node : Node) : Action Unit :=
  if hasFlag node.flags inodeExtents = false ∨ littleU16 node.blockData 0 ≠ extentMagic ∨
      littleU16 node.blockData 6 ≠ 0 then
    if node.size = 0 then return () else throw .unsupported
  else
    releaseExtents node.blockData 0 (littleU16 node.blockData 2)

/-- Write to the mapped blocks of a node; `fuel` bounds the number of chunks. -/
def writeChunks (node : Node) (input : Volume → Bytes) :
    (fuel offset remaining done : Nat) → Action Unit
  | 0, _, _, _ => return ()
  | fuel + 1, offset, remaining, done => do
    if remaining = 0 then
      return ()
    else
      let geometry := (← get).geometry
      let within := offset % geometry.blockSize
      let count := min remaining (geometry.blockSize - within)
      let mapping ← mapBlock node (offset / geometry.blockSize)
      if mapping.zero then
        throw .corrupt
      else
        let bytes := input (← get)
        writeExact (mapping.physical * geometry.blockSize + within) count
          fun position => bytes (done + position)
        writeChunks node input fuel (offset + count) (remaining - count) (done + count)

/-- Write to the caller's node.  The input is read when it is written, because it
may be one of the driver's own buffers. -/
def write (offset : Nat) (input : Volume → Bytes) (size : Nat) : FileAction Nat := do
  let (file, volume) ← get
  if volume.writableFormat = false ∨ file.type ≠ .regular ∨ 0xffffffff < offset ∨
      0xffffffff - offset < size then
    throw .invalidArgument
  else if size = 0 then
    return 0
  else
    ensureFileBlocks (offset + size)
    onVolume (writeChunks (← get).1 input size offset size 0)
    if (← get).1.size < offset + size then
      modify fun state => ({ state.1 with size := offset + size }, state.2)
      onVolume (persistInode (← get).1)
    return size

def truncate (size : Nat) : FileAction Unit := do
  let (file, volume) ← get
  if volume.writableFormat = false ∨ file.type ≠ .regular ∨ 0xffffffff < size then
    throw .invalidArgument
  else if size = file.size then
    return ()
  else if file.size < size then
    ensureFileBlocks size
    modify fun state => ({ state.1 with size }, state.2)
    onVolume (persistInode (← get).1)
  else if size ≠ 0 then
    throw .unsupported
  else
    modify fun state =>
      ({ state.1 with
          size := 0
          allocatedSectors := 0
          blockData := put16 state.1.blockData 2 0 }, state.2)
    onVolume (persistInode (← get).1)
    onVolume (releaseFileBlocks file)

/-- Extend a read over the blocks that follow on the device; `count` bytes from
the start of block `logical` are already taken. -/
def extendRead (node : Node) (logical physical remaining : Nat) :
    (fuel following count : Nat) → Action Nat
  | 0, _, count => return count
  | fuel + 1, following, count => do
    let geometry := (← get).geometry
    if count ≤ remaining - geometry.blockSize ∧ logical + following ≤ 0xffffffff then
      let next ← tryCatch (mapBlock node (logical + following)) fun _ => return {}
      if next.zero ∨ next.physical ≠ physical + following then
        return count
      else
        extendRead node logical physical remaining fuel (following + 1)
          (count + geometry.blockSize)
    else
      return count

/-- Read from the mapped blocks of a node; `fuel` bounds the number of chunks. -/
def readChunks (node : Node) : (fuel offset remaining : Nat) → Action (List UInt8)
  | 0, _, _ => return []
  | fuel + 1, offset, remaining => do
    if remaining = 0 then
      return []
    else
      let geometry := (← get).geometry
      let logical := offset / geometry.blockSize
      if 0xffffffff < logical then
        throw .unsupported
      else
        let within := offset % geometry.blockSize
        let available := min remaining (geometry.blockSize - within)
        let mapping ← mapBlock node logical
        let count ←
          if mapping.zero = false ∧ within = 0 ∧ available = geometry.blockSize then
            extendRead node logical mapping.physical remaining remaining 1 available
          else
            pure available
        let chunk ←
          if mapping.zero then
            pure (List.replicate count 0)
          else do
            let bytes ← readExact (mapping.physical * geometry.blockSize + within) count zeroBytes
            pure ((List.range count).map bytes)
        let rest ← readChunks node fuel (offset + count) (remaining - count)
        return chunk ++ rest

def read (file : Node) (offset size : Nat) : Action (List UInt8) := do
  if (← get).mounted = false then
    throw .invalidArgument
  else if file.type = .directory then
    throw .isDirectory
  else if file.type ≠ .regular ∨ hasFlag file.flags inodeInlineData then
    throw .unsupported
  else if file.size ≤ offset ∨ size = 0 then
    return []
  else
    let requested := min (file.size - offset) size
    readChunks file requested offset requested

/-! ## Directories -/

def slash : UInt8 := 0x2f
def dot : UInt8 := 0x2e

structure RecordHead where
  inode : Nat
  recordSize : Nat
  nameSize : Nat
  deriving DecidableEq, Repr

def recordHead (geometry : Geometry) (bytes : Bytes) (offset : Nat) : RecordHead where
  inode := littleU32 bytes offset
  recordSize := littleU16 bytes (offset + 4)
  nameSize :=
    if geometry.hasFileType then (bytes (offset + 6)).toNat else littleU16 bytes (offset + 6)

def recordName (bytes : Bytes) (offset nameSize : Nat) : List UInt8 :=
  (List.range nameSize).map fun index => bytes (offset + 8 + index)

section Visit
variable {α : Type} (visitor : α → Entry → α × Bool)

/-- Show the records of the directory block in the scratch buffer from an offset
on; the flag says whether to go on with the next block. -/
def visitRecords (physical blockBytes : Nat) :
    (fuel offset : Nat) → α → Action (α × Bool)
  | 0, _, seen => return (seen, true)
  | fuel + 1, offset, seen => do
    let volume ← get
    let geometry := volume.geometry
    if blockBytes ≤ offset then
      return (seen, true)
    else
      let head := recordHead geometry volume.directoryBlock offset
      if blockBytes - offset < 8 ∨ head.recordSize < 8 ∨ head.recordSize % 4 ≠ 0 ∨
          blockBytes - offset < head.recordSize ∨ 255 < head.nameSize ∨
          head.recordSize - 8 < head.nameSize then
        throw .corrupt
      else if head.inode = 0 then
        visitRecords physical blockBytes fuel (offset + head.recordSize) seen
      else if geometry.inodeCount < head.inode then
        throw .corrupt
      else
        let node ← readInode head.inode
        let entry : Entry :=
          { name := recordName volume.directoryBlock offset head.nameSize
            node := { node with
              directoryEntryOffset := physical * geometry.blockSize + offset } }
        match visitor seen entry with
        | (seen, true) => visitRecords physical blockBytes fuel (offset + head.recordSize) seen
        | (seen, false) => return (seen, false)

/-- Show the logical blocks of a directory from `logical` on, `remaining` many. -/
def visitBlocks (directory : Node) : (remaining logical : Nat) → α → Action α
  | 0, _, seen => return seen
  | remaining + 1, logical, seen => do
    if 0xffffffff < logical then
      throw .unsupported
    else
      let geometry := (← get).geometry
      let mapping ← mapBlock directory logical
      if mapping.zero then
        visitBlocks directory remaining (logical + 1) seen
      else
        loadDirectoryBlock mapping.physical
        let blockBytes := min geometry.blockSize (directory.size - logical * geometry.blockSize)
        let (seen, more) ←
          visitRecords visitor mapping.physical blockBytes geometry.blockSize 0 seen
        if more then visitBlocks directory remaining (logical + 1) seen else return seen

def forEach (directory : Node) (start : α) : Action α := do
  let volume ← get
  if volume.mounted = false then
    throw .invalidArgument
  else if directory.type ≠ .directory then
    throw .notDirectory
  else if hasFlag directory.flags inodeInlineData then
    throw .unsupported
  else
    let blocks := wrap 64 (directory.size + volume.geometry.blockSize - 1) /
      volume.geometry.blockSize
    visitBlocks visitor directory blocks 0 start

end Visit

def lookup (directory : Node) (name : List UInt8) : Action Node := do
  if name = [] then
    throw .invalidArgument
  else
    let found ← forEach
      (fun found entry => if entry.name = name then (some entry.node, false) else (found, true))
      directory none
    match found with
    | some node => return node
    | none => throw .notFound

def components (path : List UInt8) : List (List UInt8) :=
  (path.splitOn slash).filter fun component => component ≠ []

/-- Follow components from a node. -/
def walk : Node → List (List UInt8) → Action Node
  | current, [] => return current
  | current, component :: rest => do
    if nameCapacity < component.length then
      throw .invalidArgument
    else if component = [dot] then
      walk current rest
    else if current.type ≠ .directory then
      throw .notDirectory
    else
      let child ← lookup current component
      walk child rest

def lookupPath (path : List UInt8) : Action Node := do
  if (← get).mounted = false then
    throw .invalidArgument
  else
    let start ← root
    walk start (components path)

/-- The directory of the last component of a path, and that component. -/
def resolveParent (path : List UInt8) : Action (Node × List UInt8) := do
  let trimmed := path.rdropWhile (· = slash)
  let name := trimmed.rtakeWhile (· ≠ slash)
  let start := trimmed.length - name.length
  if (← get).mounted = false ∨ nameCapacity < path.length ∨ name = [] ∨ 255 < name.length ∨
      name = [dot] ∨ name = [dot, dot] then
    throw .invalidArgument
  else if start ≤ 1 then
    return (← root, name)
  else
    let parent ← lookupPath ((path.take start).rdropWhile (· = slash))
    if parent.type = .directory then return (parent, name) else throw .notDirectory

def recordRoom (nameSize : Nat) : Nat := (8 + nameSize + 3) / 4 * 4

/-- A directory record written over a part of a block. -/
def putRecord (bytes : Bytes) (slot inode recordSize fileType : Nat) (name : List UInt8) : Bytes :=
  let head := put8 (put8 (put16 (put32 bytes slot inode) (slot + 4) recordSize) (slot + 6)
    name.length) (slot + 7) fileType
  splice head (slot + 8) name.length fun index => name.getD index 0

def recordType (geometry : Geometry) (type : NodeType) : Nat :=
  if geometry.hasFileType then
    match type with
    | .directory => 2
    | .symbolicLink => 7
    | _ => 1
  else 0

/-- Where a record of the given room fits into a directory block, looking from an
offset on: the block with the record before it shortened, the place, and the room
that is there. -/
def findRoom (blockSize needed : Nat) :
    (fuel : Nat) → (bytes : Bytes) → (offset : Nat) → Except Error (Option (Bytes × Nat × Nat))
  | 0, _, _ => .ok none
  | fuel + 1, bytes, offset =>
    if blockSize ≤ offset then
      .ok none
    else
      let inode := littleU32 bytes offset
      let record := littleU16 bytes (offset + 4)
      if record < 8 ∨ record % 4 ≠ 0 ∨ blockSize - offset < record then
        .error .corrupt
      else if inode ≠ 0 then
        let actual := recordRoom (bytes (offset + 6)).toNat
        if record < actual ∨ record - actual < needed then
          findRoom blockSize needed fuel bytes (offset + record)
        else
          .ok (some (put16 bytes (offset + 4) actual, offset + actual, record - actual))
      else if record < needed then
        findRoom blockSize needed fuel bytes (offset + record)
      else
        .ok (some (bytes, offset, record))

/-- Insert into the first logical block from `logical` on that has room. -/
def insertFrom (directory : Node) (name : List UInt8) (child : Node) :
    (remaining logical : Nat) → Action Unit
  | 0, _ => throw .noSpace
  | remaining + 1, logical => do
    let geometry := (← get).geometry
    let mapping ← mapBlock directory logical
    if mapping.zero then
      throw .corrupt
    else
      loadDirectoryBlock mapping.physical
      match findRoom geometry.blockSize (recordRoom name.length) geometry.blockSize
          (← get).directoryBlock 0 with
      | .error error => throw error
      | .ok none => insertFrom directory name child remaining (logical + 1)
      | .ok (some (bytes, slot, available)) =>
        modify fun volume =>
          { volume with
            directoryBlock := putRecord (splice bytes slot available zeroBytes) slot child.inode
              available (recordType geometry child.type) name }
        writeExact (mapping.physical * geometry.blockSize) geometry.blockSize
          (← get).directoryBlock

def insertDirectoryEntry (directory : Node) (name : List UInt8) (child : Node) : Action Unit := do
  if name = [] ∨ 255 < name.length then
    throw .invalidArgument
  else
    let geometry := (← get).geometry
    insertFrom directory name child (blocksFor geometry directory.size) 0

def initializeDirectoryBlock (directory parent : Node) (block : Nat) : Action Unit := do
  let geometry := (← get).geometry
  let type := if geometry.hasFileType then 2 else 0
  modify fun volume =>
    let zeroed := splice volume.directoryBlock 0 geometry.blockSize zeroBytes
    { volume with
      directoryBlock := putRecord (putRecord zeroed 0 directory.inode 12 type [dot]) 12
        parent.inode (geometry.blockSize - 12) type [dot, dot] }
  writeExact (block * geometry.blockSize) geometry.blockSize (← get).directoryBlock

def incrementUsedDirectories (inode : Nat) : Action Unit := do
  let geometry := (← get).geometry
  let group := wrapSub 32 inode 1 / geometry.inodesPerGroup
  let descriptor ← readGroupDescriptor group
  if descriptor.usedDirectories = 0xffffffff then
    throw .noSpace
  else
    writeGroupFreeCounts group
      { descriptor with usedDirectories := descriptor.usedDirectories + 1 }

def eraseDirectoryEntry (directory : Node) (entryOffset : Nat) : Action Unit := do
  let geometry := (← get).geometry
  if directory.type ≠ .directory ∨ entryOffset = 0 then
    throw .invalidArgument
  else
    let within := entryOffset % geometry.blockSize
    let blockOffset := entryOffset - within
    let bytes ← readExact blockOffset geometry.blockSize (← get).directoryBlock
    modify fun volume => { volume with directoryBlock := bytes }
    if geometry.blockSize - 8 < within ∨ littleU32 bytes within = 0 then
      throw .corrupt
    else
      modify fun volume => { volume with directoryBlock := put32 volume.directoryBlock within 0 }
      writeExact blockOffset geometry.blockSize (← get).directoryBlock

/-! ## Operations on paths -/

/-- Give back the blocks and the inode of a file that could not be completed. -/
def discard (file : Node) (error : Error) : Action Unit := do
  attempt (releaseFileBlocks file)
  attempt (releaseInode file.inode)
  throw error

def requireAbsent (directory : Node) (name : List UInt8) : Action Unit := do
  let duplicate ← tryCatch (do return .ok (← lookup directory name)) fun error =>
    return (.error error : Except Error Node)
  match duplicate with
  | .ok _ => throw .alreadyExists
  | .error .notFound => return ()
  | .error error => throw error

/-- Store the content of a new file. -/
def fillFile (input : Volume → Bytes) (size : Nat) : FileAction Unit := do
  onVolume (persistInode (← get).1)
  if size ≠ 0 then
    let _ ← write 0 input size

def create (path : List UInt8) (input : Volume → Bytes) (size : Nat) : Action Unit := do
  if (← get).writableFormat then
    let (parent, name) ← resolveParent path
    requireAbsent parent name
    let allocated ← allocateInode
    let file ← initializeExtentInode allocated 0x81a4 .regular
    fun volume =>
      match fillFile input size (file, volume) with
      | .error error (file, volume) => discard file error volume
      | .ok _ (file, volume) =>
        match insertDirectoryEntry parent name file volume with
        | .error error volume => discard file error volume
        | .ok _ volume => .ok () volume
  else
    throw .invalidArgument

/-- Prepare the block and the inode of a new directory and name it. -/
def linkDirectory (parent directory : Node) (name : List UInt8) (block : Nat) : Action Unit := do
  initializeDirectoryBlock directory parent block
  persistInode directory
  insertDirectoryEntry parent name directory

def mkdir (path : List UInt8) (mode : Nat) : Action Unit := do
  if (← get).writableFormat then
    let (parent, name) ← resolveParent path
    if parent.type ≠ .directory then
      throw .notDirectory
    else if parent.links = 0xffff then
      throw .noSpace
    else
      requireAbsent parent name
      let inode ← allocateInode
      let empty ← initializeExtentInode inode (0x4000 ||| (mode &&& 0o7777)) .directory
      let block ← tryCatch allocateBlock fun error => do
        attempt (releaseInode inode)
        throw error
      let geometry := (← get).geometry
      let undo (error : Error) : Action Unit := do
        attempt (releaseBlock block)
        attempt (releaseInode inode)
        throw error
      match appendExtent { empty with links := 2 } 0 block with
      | .error error => undo error
      | .ok mapped =>
        let directory :=
          { mapped with
            size := geometry.blockSize
            allocatedSectors := geometry.blockSize / 512 }
        tryCatch (linkDirectory parent directory name block) undo
        persistInode { parent with links := parent.links + 1 }
        incrementUsedDirectories inode
  else
    throw .unsupported

def remove (path : List UInt8) : Action Unit := do
  let (parent, name) ← resolveParent path
  let file ← lookup parent name
  if file.type = .directory then
    throw .isDirectory
  else
    eraseDirectoryEntry parent file.directoryEntryOffset
    releaseFileBlocks file
    releaseInode file.inode

def move (source destination : List UInt8) : Action Unit := do
  let (sourceParent, sourceName) ← resolveParent source
  let (destinationParent, destinationName) ← resolveParent destination
  let file ← lookup sourceParent sourceName
  requireAbsent destinationParent destinationName
  insertDirectoryEntry destinationParent destinationName file
  eraseDirectoryEntry sourceParent file.directoryEntryOffset

/-- Copy chunks of at most a block through the directory buffer. -/
def copyChunks (origin : Node) (targetSize sourceSize : Nat) :
    (fuel copied : Nat) → FileAction Unit
  | 0, _ => return ()
  | fuel + 1, copied => do
    if sourceSize ≤ copied then
      return ()
    else
      let count := min (sourceSize - copied) (← get).2.geometry.blockSize
      let loaded ← onVolume (read origin copied count)
      onVolume (modify fun volume =>
        { volume with
          directoryBlock := splice volume.directoryBlock 0 loaded.length
            fun index => loaded.getD index 0 })
      if loaded.length ≠ count then
        throw .io
      else
        let stored ← write (targetSize + copied) (fun volume => volume.directoryBlock) count
        if stored ≠ count then
          throw .io
        else
          copyChunks origin targetSize sourceSize fuel (copied + count)

def concatenate (destination source : List UInt8) : Action Unit := do
  let target ← tryCatch (do return .ok (← lookupPath destination)) fun error =>
    return (.error error : Except Error Node)
  let origin ← tryCatch (do return .ok (← lookupPath source)) fun error =>
    return (.error error : Except Error Node)
  match target, origin with
  | .error error, _ => throw error
  | .ok _, .error error => throw error
  | .ok target, .ok origin =>
    if 0xffffffff < target.size ∨ 0xffffffff < origin.size ∨
        0xffffffff - target.size < origin.size then
      throw .noSpace
    else
      fun volume =>
        match copyChunks origin target.size origin.size origin.size 0 (target, volume) with
        | .ok _ (_, volume) => .ok () volume
        | .error error (_, volume) => .error error volume

end Mikos.Ext4
