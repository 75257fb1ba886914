import Mikos.Ext4.Allocation

/-!
# Runs of allocations and releases

Which blocks of a volume hold its own structures, when an image is valid, and what the
four routines can hand out in any order of calls.  The driver does not look at the
flags of a group, so it also allocates by bitmaps that have no meaning.
-/

namespace Mikos.Ext4
open Library Fs Function

/-! ## What an image says -/

/-- The bitmap of blocks of a group is not written yet. -/
def groupBlockUninit : Nat := 0x2

/-- The bitmap of inodes of a group is not written yet: no inode of it is in use. -/
def groupInodeUninit : Nat := 0x1

def readOnlySparseSuper : Nat := 0x0001
def compatibleSparseSuper2 : Nat := 0x0200

namespace Volume
variable (volume : Volume)

def rawDescriptor (group : Nat) : Bytes := fun position =>
  volume.image (volume.geometry.groupDescriptorOffset group + position)

def groupDescriptor (group : Nat) : GroupDescriptor :=
  parseDescriptor volume.geometry (volume.rawDescriptor group)

def groupFlags (group : Nat) : Nat := littleU16 (volume.rawDescriptor group) 0x12

def bitOnDevice (bitmap bit : Nat) : Bool :=
  bitAt (fun position => volume.image (bitmap * volume.geometry.blockSize + position)) bit

def blockMarked (block : Nat) : Bool :=
  let position := block - volume.geometry.firstDataBlock
  volume.bitOnDevice
    (volume.groupDescriptor (position / volume.geometry.blocksPerGroup)).blockBitmap
    (position % volume.geometry.blocksPerGroup)

def inodeMarked (inode : Nat) : Bool :=
  volume.bitOnDevice
    (volume.groupDescriptor ((inode - 1) / volume.geometry.inodesPerGroup)).inodeBitmap
    ((inode - 1) % volume.geometry.inodesPerGroup)

/-- The inodes in use: those of groups without a written bitmap are not. -/
def InodeInUse (inode : Nat) : Prop :=
  0 < inode ∧ inode ≤ volume.geometry.inodeCount ∧ volume.inodeMarked inode = true ∧
    hasFlag (volume.groupFlags ((inode - 1) / volume.geometry.inodesPerGroup))
      groupInodeUninit = false

/-- The group that `allocateBlock` takes a block of: the first that counts a free one. -/
def Supplies (group : Nat) : Prop :=
  group < volume.geometry.groupCount ∧ (volume.groupDescriptor group).freeBlocks ≠ 0 ∧
    ∀ earlier < group, (volume.groupDescriptor earlier).freeBlocks = 0

/-- The groups that begin with a superblock and with group descriptors. -/
def HoldsSuperblock (group : Nat) : Prop :=
  group = 0 ∨
    if hasFlag volume.geometry.compatibleFeatures compatibleSparseSuper2 then
      group = littleU32 volume.superblock 0x24c ∨ group = littleU32 volume.superblock 0x250
    else
      hasFlag volume.geometry.readOnlyFeatures readOnlySparseSuper = true →
        ∃ base ∈ [3, 5, 7], ∃ exponent, group = base ^ exponent

def descriptorBlocks : Nat :=
  (volume.geometry.groupCount * volume.geometry.descriptorSize + volume.geometry.blockSize - 1) /
    volume.geometry.blockSize

def tableBlocks : Nat :=
  (volume.geometry.inodesPerGroup * volume.geometry.inodeSize + volume.geometry.blockSize - 1) /
    volume.geometry.blockSize

def HoldsStructureOf (group block : Nat) : Prop :=
  block = (volume.groupDescriptor group).blockBitmap ∨
    block = (volume.groupDescriptor group).inodeBitmap ∨
    ((volume.groupDescriptor group).inodeTable ≤ block ∧
      block < (volume.groupDescriptor group).inodeTable + volume.tableBlocks) ∨
    (volume.HoldsSuperblock group ∧
      volume.geometry.firstDataBlock + group * volume.geometry.blocksPerGroup ≤ block ∧
      block ≤ volume.geometry.firstDataBlock + group * volume.geometry.blocksPerGroup +
        volume.descriptorBlocks)

/-- A block holds a superblock, group descriptors, a bitmap or a part of an inode table. -/
def HoldsMetadata (block : Nat) : Prop :=
  ∃ group < volume.geometry.groupCount, volume.HoldsStructureOf group block

end Volume

/-- A volume that was mounted from a valid image and can be written: its structures lie
apart from each other inside the device, and where the bitmap of a group has a meaning
it marks the blocks with structures. -/
structure ValidImage (device : Device) (volume : Volume) : Prop where
  mounted : mount device = .ok volume
  writable : volume.writableFormat = true
  layout : ∃ layout : Layout, layout.toGeometry = volume.geometry ∧
    layout.deviceSize = device.size ∧ ∀ group < volume.geometry.groupCount,
      (volume.groupDescriptor group).blockBitmap = (layout.places group).blockBitmap ∧
      (volume.groupDescriptor group).inodeBitmap = (layout.places group).inodeBitmap ∧
      (volume.groupDescriptor group).inodeTable = (layout.places group).inodeTable
  marked : ∀ block, volume.geometry.firstDataBlock ≤ block →
    block < volume.geometry.blockCount → volume.HoldsMetadata block →
    hasFlag (volume.groupFlags ((block - volume.geometry.firstDataBlock) /
      volume.geometry.blocksPerGroup)) groupBlockUninit = false →
    volume.blockMarked block = true

/-! ## The image and its layout -/

section Image
variable {layout : Layout} {volume : Volume} {group block inode : Nat}

namespace Layout

theorem store_apply (image : Bytes) (valid : layout.Valid region)
    (inside : i < layout.length region) : layout.store image region i =
      image (layout.start region + i) :=
  Regions.contents_apply valid inside

theorem rawDescriptor_eq (geometry : volume.geometry = layout.toGeometry)
    (bound : group < layout.groupCount) (inside : i < layout.descriptorBytes) :
    volume.rawDescriptor group i =
      layout.store volume.image (.descriptor group) i := by
  have valid : layout.Valid (.descriptor group) := bound
  rw [store_apply _ valid inside, Volume.rawDescriptor, geometry]
  rfl

theorem parseDescriptor_congr (same : ∀ i < layout.descriptorBytes, left i = right i) :
    parseDescriptor layout.toGeometry left = parseDescriptor layout.toGeometry right := by
  obtain ⟨small, wide⟩ := layout.descriptorBytes_large
  cases is64Bit : layout.is64Bit with
  | false =>
    simp (disch := omega) [parseDescriptor, is64Bit, littleU32_below same, littleU16_below same]
  | true =>
    have large := wide is64Bit
    simp (disch := omega) [parseDescriptor, is64Bit, littleU32_below same, littleU16_below same]

theorem groupDescriptor_eq (geometry : volume.geometry = layout.toGeometry)
    (bound : group < layout.groupCount) :
    volume.groupDescriptor group = layout.descriptor (layout.store volume.image) group := by
  rw [Volume.groupDescriptor, geometry]
  exact parseDescriptor_congr fun _ inside => rawDescriptor_eq geometry bound inside

end Layout

namespace Layout.Fits
section
variable (fits : layout.Fits volume)
include fits

theorem groupDescriptor (bound : group < layout.groupCount) :
    volume.groupDescriptor group = layout.descriptor (layout.store volume.image) group :=
  layout.groupDescriptor_eq fits.geometry bound

theorem groupFlags (bound : group < layout.groupCount) :
    volume.groupFlags group = layout.flags volume group := by
  have large : 32 ≤ layout.descriptorBytes := by
    have := layout.sound.descriptorSize.1
    rw [Geometry.descriptorBytes]
    omega
  exact littleU16_congr fun i _ _ => rawDescriptor_eq fits.geometry bound (by omega)

theorem bitOnDevice (valid : layout.Valid region)
    (start : layout.start region = bitmap * layout.blockSize)
    (length : layout.length region = layout.blockSize) (inside : bit < 8 * layout.blockSize) :
    volume.bitOnDevice bitmap bit = bitAt (layout.store volume.image region) bit := by
  refine layout.bitAt_congr inside fun i bound => ?_
  rw [store_apply _ valid (by omega), start, fits.geometry]

theorem blockMarked (hasBit : layout.HasBit block) :
    volume.blockMarked block = (layout.view volume).used block := by
  have bound := blockGroup_lt hasBit
  have valid : layout.Valid (.blockBitmap (layout.blockGroup block)) := bound
  have bit := fits.bitOnDevice valid rfl rfl
    (Nat.lt_of_lt_of_le (@blockBit_lt layout block) layout.sane.blocks)
  rw [← (fits.descriptor_places bound).1, ← fits.groupDescriptor bound] at bit
  simp only [Volume.blockMarked, fits.geometry, Layout.view, Layout.disk, hasBit, decide_true,
    Bool.true_and]
  exact bit

theorem inodeMarked (hasInode : layout.HasInode inode) :
    volume.inodeMarked inode = (layout.view volume).inodeUsed inode := by
  have bound := inodeGroup_lt hasInode
  have valid : layout.Valid (.inodeBitmap (layout.inodeGroup inode)) := bound
  have bit := fits.bitOnDevice valid rfl rfl
    (Nat.lt_of_lt_of_le (@inodeBit_lt layout inode) layout.sane.inodes)
  rw [← (fits.descriptor_places bound).2.1, ← fits.groupDescriptor bound] at bit
  simp only [Volume.inodeMarked, fits.geometry, Layout.view, Layout.disk, hasInode, decide_true,
    Bool.true_and]
  exact bit

theorem supplies : volume.Supplies group ↔ layout.Supplies volume group := by
  rw [Volume.Supplies, Layout.Supplies, fits.geometry]
  refine and_congr_right fun bound => ?_
  rw [fits.groupDescriptor bound]
  refine and_congr_right fun _ => forall₂_congr fun earlier before => ?_
  rw [fits.groupDescriptor (Nat.lt_trans before bound)]

theorem places_eq (bound : group < layout.groupCount) :
    let descriptor := volume.groupDescriptor group
    descriptor.blockBitmap = (layout.places group).blockBitmap ∧
      descriptor.inodeBitmap = (layout.places group).inodeBitmap ∧
      descriptor.inodeTable = (layout.places group).inodeTable := by
  rw [fits.groupDescriptor bound]
  exact fits.placed group bound

end

theorem groupCount_pos (layout : Layout) : 0 < layout.groupCount := by
  have first := layout.sound.firstDataBlock
  exact Nat.lt_of_le_of_lt (Nat.zero_le _)
    (blockGroup_lt (show layout.HasBit layout.firstDataBlock from ⟨le_rfl, first⟩))

/-- A block that meets a part of some bytes is one of the blocks that hold them. -/
theorem block_of_meets (inside : offset + amount ≤ bytes)
    (meets : ¬ Apart (block * layout.blockSize) layout.blockSize
      (first * layout.blockSize + offset) amount) : first ≤ block ∧ block < first +
      (bytes + layout.blockSize - 1) / layout.blockSize := by
  have pos := layout.blockSize_pos
  have whole := Nat.lt_div_mul_add pos (a := bytes + layout.blockSize - 1)
  rw [Apart] at meets
  refine ⟨Nat.le_of_not_lt fun before => ?_, Nat.lt_of_not_le fun behind => ?_⟩
  · have ordered := Nat.mul_le_mul_right layout.blockSize before
    rw [Nat.succ_mul] at ordered
    omega
  · have ordered := Nat.mul_le_mul_right layout.blockSize behind
    rw [Nat.add_mul] at ordered
    omega

section
variable (fits : layout.Fits volume)
include fits

theorem descriptorBlocks_pos : 0 < volume.descriptorBlocks := by
  have pos := groupCount_pos layout
  have size := layout.sound.descriptorSize.1
  have product := Nat.mul_le_mul pos size
  rw [Volume.descriptorBlocks, fits.geometry]
  exact Nat.div_pos (by omega) layout.blockSize_pos

theorem holdsMetadata_of_first (lower : layout.firstDataBlock ≤ block)
    (upper : block ≤ layout.firstDataBlock + volume.descriptorBlocks) :
    volume.HoldsMetadata block := by
  refine ⟨0, by rw [fits.geometry]; exact groupCount_pos layout, .inr (.inr (.inr ⟨.inl rfl, ?_⟩))⟩
  rw [fits.geometry]
  omega

theorem isData_of_free (hasBit : layout.HasBit block) (free : ¬ volume.HoldsMetadata block) :
    layout.IsData block := by
  obtain ⟨lower, upper⟩ := hasBit
  have notFirst : ∀ {property : Prop}, block ≤ layout.firstDataBlock +
      volume.descriptorBlocks → property :=
    fun few => absurd (fits.holdsMetadata_of_first lower few) free
  have some := fits.descriptorBlocks_pos
  refine ⟨?_, fun {region} metadata => ?_⟩
  · rw [Geometry.validPhysicalBlock, Bool.and_eq_true, decide_eq_true_eq, decide_eq_true_eq]
    exact ⟨fun zero => notFirst (by omega), upper⟩
  by_contra meets
  have structures : ∀ group < layout.groupCount, ¬ volume.HoldsStructureOf group block :=
    fun group bound holds => free ⟨group, by rw [fits.geometry]; exact bound, holds⟩
  cases region with
  | super =>
    have few : block ≤ 1 := by
      rw [start, Region.start, length, Region.length, Apart] at meets
      rcases layout.sound.blockSize with size | size | size <;> rw [size] at meets <;> omega
    exact notFirst (by omega)
  | descriptor group =>
    have last : group * layout.descriptorSize +
        layout.length (.descriptor group) ≤
          layout.groupCount * layout.descriptorSize :=
      calc _ ≤ (group + 1) * layout.descriptorSize := by
              rw [Nat.succ_mul]
              exact Nat.add_le_add_left (Nat.min_le_left _ _) _
        _ ≤ _ := Nat.mul_le_mul_right _ metadata
    obtain ⟨-, few⟩ := block_of_meets last meets
    refine notFirst ?_
    rw [Volume.descriptorBlocks, fits.geometry]
    omega
  | blockBitmap group =>
    refine meets (block_apart (fun same => structures group metadata (.inl ?_)) _)
    exact same.trans (fits.places_eq metadata).1.symm
  | inodeBitmap group =>
    refine meets (block_apart (fun same => structures group metadata (.inr (.inl ?_))) _)
    exact same.trans (fits.places_eq metadata).2.1.symm
  | inode number =>
    have bound := inodeGroup_lt (show layout.HasInode number from metadata)
    have last := Nat.mul_le_mul_right layout.inodeSize
      (show layout.inodeBit number + 1 ≤ layout.inodesPerGroup from inodeBit_lt)
    rw [Nat.succ_mul] at last
    obtain ⟨above, below⟩ := block_of_meets last meets
    refine structures _ bound (.inr (.inr (.inl ?_)))
    rw [(fits.places_eq bound).2.2, Volume.tableBlocks, fits.geometry]
    exact ⟨above, below⟩
  | block number => exact metadata

end
end Layout.Fits
end Image

theorem ValidImage.fits (valid : ValidImage device volume) :
    ∃ layout : Layout, layout.Fits volume := by
  obtain ⟨layout, geometry, size, places⟩ := valid.layout
  obtain ⟨sameDevice, isMounted, -⟩ := mount_sound valid.mounted
  refine ⟨layout, geometry.symm, by rw [sameDevice, size], isMounted, fun group bound => ?_⟩
  have placed := places group (by rw [← geometry]; exact bound)
  rw [layout.groupDescriptor_eq geometry.symm bound] at placed
  exact placed

/-! ## Runs -/

inductive Call where
  | allocateBlock
  | allocateInode
  | releaseBlock (block : Nat)
  | releaseInode (inode : Nat)

/-- A volume with the blocks that were handed out and not taken back, and the inodes in
use. -/
structure Holdings where
  volume : Volume
  blocks : Set Nat
  inodes : Set Nat

/-- What a call does.  A call that fails takes and hands out nothing. -/
def Call.perform (call : Call) (state : Holdings) : Holdings :=
  match call with
  | .allocateBlock =>
    match Ext4.allocateBlock state.volume with
    | .ok block after => { state with volume := after, blocks := insert block state.blocks }
    | .error _ after => { state with volume := after }
  | .allocateInode =>
    match Ext4.allocateInode state.volume with
    | .ok inode after => { state with volume := after, inodes := insert inode state.inodes }
    | .error _ after => { state with volume := after }
  | .releaseBlock block =>
    match Ext4.releaseBlock block state.volume with
    | .ok _ after => { state with volume := after, blocks := state.blocks \ {block} }
    | .error _ after => { state with volume := after }
  | .releaseInode inode =>
    match Ext4.releaseInode inode state.volume with
    | .ok _ after => { state with volume := after, inodes := state.inodes \ {inode} }
    | .error _ after => { state with volume := after }

/-- What a caller has to see to: no block is taken of a group without a written bitmap,
and no block with structures is released. -/
def Call.Careful (start volume : Volume) : Call → Prop
  | .allocateBlock => ∀ group, volume.Supplies group →
      hasFlag (volume.groupFlags group) groupBlockUninit = false
  | .releaseBlock block => ¬ start.HoldsMetadata block
  | .allocateInode | .releaseInode _ => True

/-- The states of careful runs. -/
inductive Reached (start : Volume) : Holdings → Prop where
  | start : Reached start ⟨start, ∅, start.InodeInUse⟩
  | step {state : Holdings} {call : Call} : Reached start state →
      call.Careful start state.volume → Reached start (call.perform state)

/-- What holds in a run: the structures and all that is in use are marked. -/
structure Keeps (layout : Layout) (start : Volume) (state : Holdings) : Prop where
  fits : layout.Fits state.volume
  flags : ∀ group, layout.flags state.volume group = layout.flags start group
  metadata : ∀ block, layout.HasBit block → start.HoldsMetadata block →
    hasFlag (layout.flags start (layout.blockGroup block)) groupBlockUninit = false →
    (layout.view state.volume).used block = true
  blocks : ∀ block ∈ state.blocks, (layout.view state.volume).used block = true
  inodes : ∀ inode ∈ state.inodes, (layout.view state.volume).inodeUsed inode = true

theorem update_true {number other : Nat} (marked : other = number ∨ marks other = true) :
    update marks number true other = true := by
  by_cases same : other = number
  · rw [same, update_self]
  · rw [update_of_ne same]
    exact marked.resolve_left same

namespace Keeps
variable {layout : Layout} {start after : Volume} {state : Holdings} {block inode : Nat}

/-- A block without a mark in a group with a written bitmap holds no structure. -/
theorem free (keeps : Keeps layout start state)
    (careful : Call.allocateBlock.Careful start state.volume) (hasBit : layout.HasBit block)
    (supplies : layout.Supplies state.volume (layout.blockGroup block))
    (unmarked : (layout.view state.volume).used block = false) : ¬ start.HoldsMetadata block := by
  intro holds
  have written := careful _ (keeps.fits.supplies.mpr supplies)
  rw [keeps.fits.groupFlags (Layout.blockGroup_lt hasBit), keeps.flags] at written
  have marked := keeps.metadata block hasBit holds written
  rw [unmarked] at marked
  cases marked

theorem allocateBlock (origin : layout.Fits start) (keeps : Keeps layout start state)
    (careful : Call.allocateBlock.Careful start state.volume) :
    Refuses Ext4.allocateBlock state.volume ∨
      ∃ block after, Ext4.allocateBlock state.volume = .ok block after ∧
        ¬ start.HoldsMetadata block ∧ layout.TakesBlock block state.volume after := by
  refine (keeps.fits.allocateBlock fun block hasBit supplies unmarked =>
    origin.isData_of_free hasBit (keeps.free careful hasBit supplies unmarked)).imp_right ?_
  rintro ⟨block, after, ran, supplies, takes⟩
  exact ⟨block, after, ran, keeps.free careful takes.hasBit supplies takes.free, takes⟩

section
variable (keeps : Keeps layout start state)
include keeps

theorem turns {blocks inodes : Set Nat} (turns : layout.Turns disk state.volume after)
    (structures : ∀ block, start.HoldsMetadata block →
      (layout.view state.volume).used block = true → disk.used block = true)
    (blocksMarked : ∀ block ∈ blocks, disk.used block = true)
    (inodesMarked : ∀ inode ∈ inodes, disk.inodeUsed inode = true) :
    Keeps layout start ⟨after, blocks, inodes⟩ := by
  refine ⟨turns.fits, fun group => (turns.flags group).trans (keeps.flags group), ?_, ?_, ?_⟩ <;>
    rw [turns.view]
  · exact fun block hasBit holds written =>
      structures block holds (keeps.metadata block hasBit holds written)
  · exact blocksMarked
  · exact inodesMarked

theorem intact (intact : Intact state.volume after) :
    Keeps layout start { state with volume := after } :=
  keeps.turns (intact.turns keeps.fits) (fun _ _ => id) keeps.blocks keeps.inodes

theorem takesBlock (takes : layout.TakesBlock block state.volume after) :
    Keeps layout start { state with volume := after, blocks := insert block state.blocks } :=
  keeps.turns takes.turns (fun _ _ marked => update_true (.inr marked))
    (fun _ mem => update_true (mem.imp_right (keeps.blocks _))) keeps.inodes

theorem takesInode (takes : layout.TakesInode inode state.volume after) :
    Keeps layout start { state with volume := after, inodes := insert inode state.inodes } :=
  keeps.turns takes.turns (fun _ _ => id) keeps.blocks
    fun _ mem => update_true (mem.imp_right (keeps.inodes _))

theorem givesBlock (ordinary : ¬ start.HoldsMetadata block)
    (gives : layout.Turns (((layout.view state.volume).setBlock block zeroBytes).unmark block)
      state.volume after) :
    Keeps layout start { state with volume := after, blocks := state.blocks \ {block} } := by
  refine keeps.turns gives (fun other holds marked => ?_) (fun other mem => ?_) keeps.inodes
  · have apart : other ≠ block := fun same => ordinary (same ▸ holds)
    exact (update_of_ne apart ..).trans marked
  · exact (update_of_ne mem.2 ..).trans (keeps.blocks other mem.1)

theorem givesInode (gives : layout.Turns
    (((layout.view state.volume).setInode inode zeroBytes).unmarkInode inode) state.volume after) :
    Keeps layout start { state with volume := after, inodes := state.inodes \ {inode} } :=
  keeps.turns gives (fun _ _ => id) keeps.blocks fun other mem =>
    (update_of_ne mem.2 ..).trans (keeps.inodes other mem.1)

end

theorem step (origin : layout.Fits start) (keeps : Keeps layout start state) (call : Call)
    (careful : call.Careful start state.volume) : Keeps layout start (call.perform state) := by
  cases call with
  | allocateBlock =>
    rcases keeps.allocateBlock origin careful with
      ⟨error, after, ran, intact⟩ | ⟨block, after, ran, -, takes⟩ <;>
      simp only [Call.perform, ran]
    · exact keeps.intact intact
    · exact keeps.takesBlock takes
  | allocateInode =>
    rcases keeps.fits.allocateInode with
      ⟨error, after, ran, intact⟩ | ⟨inode, after, ran, -, takes⟩ <;>
      simp only [Call.perform, ran]
    · exact keeps.intact intact
    · exact keeps.takesInode takes
  | releaseBlock block =>
    rcases keeps.fits.releaseBlock (fun hasBit => origin.isData_of_free hasBit careful) with
      ⟨error, after, ran, intact⟩ | ⟨after, ran, gives⟩ <;>
      simp only [Call.perform, ran]
    · exact keeps.intact intact
    · exact keeps.givesBlock careful gives
  | releaseInode inode =>
    rcases @Layout.Fits.releaseInode _ _ inode keeps.fits with
      ⟨error, after, ran, intact⟩ | ⟨after, ran, gives⟩ <;>
      simp only [Call.perform, ran]
    · exact keeps.intact intact
    · exact keeps.givesInode gives

theorem start_of_valid (valid : ValidImage device start) (fits : layout.Fits start) :
    Keeps layout start ⟨start, ∅, start.InodeInUse⟩ := by
  refine ⟨fits, fun _ => rfl, fun block hasBit holds written => ?_, fun _ mem => mem.elim,
    fun inode inUse => ?_⟩
  · rw [← fits.blockMarked hasBit]
    rw [← fits.groupFlags (Layout.blockGroup_lt hasBit)] at written
    refine valid.marked block ?_ ?_ holds ?_ <;> rw [fits.geometry]
    · exact hasBit.1
    · exact hasBit.2
    · exact written
  · obtain ⟨pos, most, marked, -⟩ := inUse
    rw [fits.geometry] at most
    rw [← fits.inodeMarked ⟨pos, most⟩]
    exact marked

theorem run (valid : ValidImage device start) (fits : layout.Fits start)
    (reached : Reached start state) : Keeps layout start state := by
  induction reached with
  | start => exact start_of_valid valid fits
  | step _ careful ih => exact ih.step fits _ careful

end Keeps

/-- In every careful run from a valid image: a block that is allocated holds no structure
and was not handed out before, unless it was released since, and an inode that is
allocated is neither reserved nor in use. -/
theorem allocations_exclusive (device : Device) (start : Volume) (valid : ValidImage device start)
    (state : Holdings) (reached : Reached start state) :
    (∀ block after, Call.allocateBlock.Careful start state.volume →
        Ext4.allocateBlock state.volume = .ok block after →
        ¬ start.HoldsMetadata block ∧ block ∉ state.blocks) ∧
      ∀ inode after, Ext4.allocateInode state.volume = .ok inode after →
        start.geometry.firstInode ≤ inode ∧ inode ∉ state.inodes := by
  obtain ⟨layout, fits⟩ := valid.fits
  have keeps := Keeps.run valid fits reached
  refine ⟨fun block after careful ran => ?_, fun inode after ran => ?_⟩
  · rcases keeps.allocateBlock fits careful with
      ⟨_, _, failed, -⟩ | ⟨other, last, took, ordinary, takes⟩
    · rw [failed] at ran
      cases ran
    rw [took] at ran
    cases ran
    refine ⟨ordinary, fun member => ?_⟩
    have marked := keeps.blocks _ member
    rw [takes.free] at marked
    cases marked
  rcases keeps.fits.allocateInode with ⟨_, _, failed, -⟩ | ⟨other, last, took, lower, takes⟩
  · rw [failed] at ran
    cases ran
  rw [took] at ran
  cases ran
  rw [fits.geometry]
  refine ⟨lower, fun member => ?_⟩
  have marked := keeps.inodes _ member
  rw [takes.free] at marked
  cases marked

/-! ## A group without a written bitmap -/

/-- The superblock and the descriptors of a volume of two groups of sixteen blocks and
eight inodes, as they begin a group. -/
def groupedFields (offset number : Nat) : List (Nat × Nat × Nat) :=
  [(offset, 4, 16), (offset + 0x04, 4, 33), (offset + 0x0c, 4, 12), (offset + 0x10, 4, 5),
    (offset + 0x14, 4, 1), (offset + 0x20, 4, 16), (offset + 0x24, 4, 16), (offset + 0x28, 4, 8),
    (offset + 0x38, 2, ext4Magic), (offset + 0x3a, 2, 1), (offset + 0x4c, 4, 1),
    (offset + 0x54, 4, 11), (offset + 0x58, 2, 128), (offset + 0x5a, 2, number),
    (offset + 0x60, 4, incompatFileType ||| incompatExtents),
    (offset + 0x64, 4, readOnlySparseSuper ||| 0x10),
    (offset + 0x400, 4, 3), (offset + 0x404, 4, 4), (offset + 0x408, 4, 5),
    (offset + 0x40c, 2, 1), (offset + 0x410, 2, 1), (offset + 0x41e, 2, 0xdd5d),
    (offset + 0x420, 4, 19), (offset + 0x424, 4, 20), (offset + 0x428, 4, 21),
    (offset + 0x42c, 2, 11), (offset + 0x42e, 2, 5), (offset + 0x432, 2, groupBlockUninit),
    (offset + 0x43e, 2, 0x4ddc)]

/-- An inode whose content is one run of blocks. -/
def extentFields (offset mode links length block : Nat) : List (Nat × Nat × Nat) :=
  [(offset, 2, mode), (offset + 0x04, 4, length * 1024), (offset + 0x1a, 2, links),
    (offset + 0x1c, 4, length * 2), (offset + 0x20, 4, inodeExtents),
    (offset + 0x28, 2, extentMagic), (offset + 0x2a, 2, 1), (offset + 0x2c, 2, 4),
    (offset + 0x38, 2, length), (offset + 0x3c, 4, block)]

/-- A bitmap whose unused end is set. -/
def bitmapFields (offset size bits : Nat) : List (Nat × Nat × Nat) :=
  [(offset, size, bits), (offset + size, 1024 - size, 256 ^ (1024 - size) - 1)]

/-- Two groups of blocks with the given fields. -/
def grouped (fields : List (Nat × Nat × Nat)) : Device where
  image := fieldsImage (groupedFields 0x400 0 ++ groupedFields 0x4400 1 ++ fields)
  size := 0x8400

/-- The root directory in block 6 with a file `f` in the blocks 7 to 15.  The group has
one free block left.  The second group has only its structures, in the blocks 17 to 21,
and its bitmap of blocks is not written. -/
def uninitialized : Device := grouped <|
  bitmapFields 0xc00 2 0x7fff ++ bitmapFields 0x1000 1 0xff ++ bitmapFields 0x5000 1 0x0b ++
  extentFields 0x1480 0x41ed 2 1 6 ++ extentFields 0x5580 0x81a4 1 9 7 ++
  recordFields 0x1800 2 12 1 2 0x2e ++ recordFields 0x180c 2 12 2 2 0x2e2e ++
  recordFields 0x1818 12 1000 1 1 0x66

def groupedGeometry : Geometry where
  blockSize := 1024
  blockCount := 33
  firstDataBlock := 1
  blocksPerGroup := 16
  inodesPerGroup := 8
  inodeCount := 16
  inodeSize := 128
  descriptorSize := 32
  groupCount := 2
  incompatibleFeatures := incompatFileType ||| incompatExtents
  readOnlyFeatures := readOnlySparseSuper ||| 0x10
  firstInode := 11

def groupedPlaces (group : Nat) : Places :=
  if group = 0 then ⟨3, 4, 5⟩ else ⟨19, 20, 21⟩

def Geometry.structures (geometry : Geometry) : List Region :=
  .super :: (List.range geometry.groupCount).map .descriptor ++
    (List.range geometry.groupCount).map .blockBitmap ++
    (List.range geometry.groupCount).map .inodeBitmap ++
    (List.range geometry.inodeCount).map fun index => .inode (index + 1)

theorem Geometry.mem_structures {region : Region} (metadata : region.IsMetadata geometry) :
    region ∈ geometry.structures := by
  cases region with
  | inode number =>
    obtain ⟨pos, most⟩ : 0 < number ∧ number ≤ geometry.inodeCount := metadata
    have listed : ∃ i < geometry.inodeCount, i + 1 = number := ⟨number - 1, by omega, by omega⟩
    simpa [Geometry.structures] using listed
  | _ => simp_all [Geometry.structures, Region.IsMetadata]

def groupedLayout : Layout where
  toGeometry := groupedGeometry
  places := groupedPlaces
  deviceSize := 0x8400
  sound := by constructor <;> decide
  sane := by constructor <;> decide
  addressable := by decide
  apart {left right} isLeft isRight different := by
    have all : ∀ left ∈ groupedGeometry.structures, ∀ right ∈ groupedGeometry.structures,
        left ≠ right → Apart (left.start groupedGeometry groupedPlaces)
          (left.length groupedGeometry) (right.start groupedGeometry groupedPlaces)
          (right.length groupedGeometry) := by
      decide +kernel
    exact all left (Geometry.mem_structures isLeft) right (Geometry.mem_structures isRight)
      different
  inside {region} metadata := by
    have all : ∀ region ∈ groupedGeometry.structures,
        region.start groupedGeometry groupedPlaces + region.length groupedGeometry ≤ 0x8400 := by
      decide +kernel
    exact all region (Geometry.mem_structures metadata)
  placed {group} _ := by
    by_cases zero : group = 0 <;> simp [groupedPlaces, zero] <;> decide

def mountsWritable (device : Device) (property : Volume → Bool) : Bool :=
  match mount device with
  | .ok volume => volume.writableFormat && property volume
  | .error _ => false

theorem mountsWritable_iff : mountsWritable device property = true ↔
      ∃ volume, mount device = .ok volume ∧ volume.writableFormat = true ∧
        property volume = true := by
  rw [mountsWritable]
  cases mount device <;> simp

/-- A call returns a value, and something holds afterwards. -/
def yields {α : Type} [DecidableEq α] (result : EStateM.Result Error Volume α) (value : α)
    (next : Volume → Bool) : Bool :=
  match result with
  | .ok output after => output = value && next after
  | .error _ _ => false

theorem yields_iff [DecidableEq α] {value : α} :
    yields result value next = true ↔ ∃ after, result = .ok value after ∧ next after = true := by
  cases result with
  | error => simp [yields]
  | ok output after =>
    simp only [yields, Bool.and_eq_true, decide_eq_true_eq, EStateM.Result.ok.injEq]
    exact ⟨fun ⟨same, holds⟩ => ⟨after, ⟨same, rfl⟩, holds⟩,
      fun ⟨_, ⟨same, rfl⟩, holds⟩ => ⟨same, holds⟩⟩

instance (volume : Volume) (group : Nat) : Decidable (volume.Supplies group) := by
  unfold Volume.Supplies
  infer_instance

/-- The group that supplies a block has a written bitmap. -/
def suppliesWritten (volume : Volume) : Bool :=
  (List.range volume.geometry.groupCount).all fun group =>
    !decide (volume.Supplies group) || !hasFlag (volume.groupFlags group) groupBlockUninit

theorem careful_of_suppliesWritten (written : suppliesWritten volume = true) :
    Call.allocateBlock.Careful start volume := by
  intro group supplies
  have here := List.all_eq_true.mp written group (List.mem_range.mpr supplies.1)
  simpa [supplies] using here

section Uninitialized
variable {volume : Volume} {block : Nat}

def groupedVolume : Volume := { device := uninitialized, geometry := groupedGeometry }

theorem groupDescriptor_uninitialized (device : volume.device = uninitialized)
    (geometry : volume.geometry = groupedGeometry) :
    volume.groupDescriptor = groupedVolume.groupDescriptor ∧
      volume.groupFlags = groupedVolume.groupFlags ∧
      volume.blockMarked = groupedVolume.blockMarked := by
  have raw : volume.rawDescriptor = groupedVolume.rawDescriptor := by
    funext group i
    rw [Volume.rawDescriptor, Volume.image, device, geometry]
    rfl
  have descriptors : volume.groupDescriptor = groupedVolume.groupDescriptor := by
    funext group
    rw [Volume.groupDescriptor, raw, geometry]
    rfl
  refine ⟨descriptors, ?_, ?_⟩
  · funext group
    rw [Volume.groupFlags, raw, Volume.groupFlags]
  · funext block
    simp only [Volume.blockMarked, Volume.bitOnDevice, Volume.image, descriptors, device, geometry]
    rfl

theorem holdsMetadata_uninitialized (device : volume.device = uninitialized)
    (geometry : volume.geometry = groupedGeometry) (holds : volume.HoldsMetadata block) :
    block ∈ [1, 2, 3, 4, 5, 17, 18, 19, 20, 21] := by
  obtain ⟨group, bound, holds⟩ := holds
  have descriptors := (groupDescriptor_uninitialized device geometry).1
  have places : ∀ group < 2, groupedVolume.groupDescriptor group =
      { groupedVolume.groupDescriptor group with
        blockBitmap := 3 + 16 * group, inodeBitmap := 4 + 16 * group,
        inodeTable := 5 + 16 * group } := by
    decide +kernel
  rw [geometry] at bound
  have place := places group bound
  rw [Volume.HoldsStructureOf, descriptors, place, Volume.tableBlocks, Volume.descriptorBlocks,
    geometry] at holds
  have few : group = 0 ∨ group = 1 := by
    change group < 2 at bound
    omega
  rcases few with rfl | rfl <;> simp [groupedGeometry] at holds ⊢ <;> omega

theorem validImage_uninitialized (mounted : mount uninitialized = .ok volume)
    (writable : volume.writableFormat = true) (geometry : volume.geometry = groupedGeometry) :
    ValidImage uninitialized volume := by
  have device := (mount_sound mounted).1
  obtain ⟨descriptors, flags, marks⟩ := groupDescriptor_uninitialized device geometry
  refine ⟨mounted, writable, ⟨groupedLayout, geometry.symm, rfl, ?_⟩,
    fun block lower upper holds written => ?_⟩
  · have places : ∀ group < 2,
        (groupedVolume.groupDescriptor group).blockBitmap = (groupedPlaces group).blockBitmap ∧
        (groupedVolume.groupDescriptor group).inodeBitmap = (groupedPlaces group).inodeBitmap ∧
        (groupedVolume.groupDescriptor group).inodeTable = (groupedPlaces group).inodeTable := by
      decide +kernel
    rw [geometry, descriptors]
    exact places
  have marked : ∀ block ∈ [1, 2, 3, 4, 5, 17, 18, 19, 20, 21],
      hasFlag (groupedVolume.groupFlags ((block - 1) / 16)) groupBlockUninit = false →
        groupedVolume.blockMarked block = true := by
    decide +kernel
  rw [geometry, flags] at written
  rw [marks]
  exact marked block (holdsMetadata_uninitialized device geometry holds) written

/-- A block that is released is handed out again. -/
theorem allocations_exclusive_again :
    ∃ volume, ValidImage uninitialized volume ∧ ∃ state after, Reached volume state ∧
      allocateBlock state.volume = .ok 16 after ∧ ¬ volume.HoldsMetadata 16 ∧
      16 ∉ state.blocks := by
  have sample : mountsWritable uninitialized (fun volume =>
      volume.geometry = groupedGeometry && suppliesWritten volume &&
        yields (allocateBlock volume) 16 fun first =>
          yields (releaseBlock 16 first) () fun second =>
            suppliesWritten second && yields (allocateBlock second) 16 fun _ => true) = true := by
    decide +kernel
  obtain ⟨volume, mounted, writable, checks⟩ := mountsWritable_iff.mp sample
  simp only [Bool.and_eq_true, decide_eq_true_eq] at checks
  obtain ⟨⟨geometry, careful⟩, checks⟩ := checks
  obtain ⟨first, took, checks⟩ := yields_iff.mp checks
  obtain ⟨second, gave, checks⟩ := yields_iff.mp checks
  simp only [Bool.and_eq_true] at checks
  obtain ⟨again, checks⟩ := checks
  obtain ⟨after, tookAgain, -⟩ := yields_iff.mp checks
  have valid := validImage_uninitialized mounted writable geometry
  have device := (mount_sound mounted).1
  have ordinary : ¬ volume.HoldsMetadata 16 := fun holds =>
    absurd (holdsMetadata_uninitialized device geometry holds) (by decide)
  have reached := (@Reached.start volume).step (careful_of_suppliesWritten careful)
  simp only [Call.perform, took] at reached
  have released := @Reached.step volume _ (.releaseBlock 16) reached ordinary
  simp only [Call.perform, gave] at released
  obtain ⟨fresh, unheld⟩ := (allocations_exclusive uninitialized volume valid _ released).1 16 after
    (careful_of_suppliesWritten again) tookAgain
  exact ⟨volume, valid, _, after, released, tookAgain, fresh, unheld⟩

/-- The second block that is allocated holds the copy of the superblock of the second
group. -/
theorem superblock_allocated :
    ∃ volume first second, ValidImage uninitialized volume ∧
      allocateBlock volume = .ok 16 first ∧ allocateBlock first = .ok 17 second ∧
      volume.HoldsMetadata 17 := by
  have sample : mountsWritable uninitialized (fun volume =>
      volume.geometry = groupedGeometry && yields (allocateBlock volume) 16 fun first =>
        yields (allocateBlock first) 17 fun _ => true) = true := by
    decide +kernel
  obtain ⟨volume, mounted, writable, checks⟩ := mountsWritable_iff.mp sample
  simp only [Bool.and_eq_true, decide_eq_true_eq] at checks
  obtain ⟨geometry, checks⟩ := checks
  obtain ⟨first, tookFirst, checks⟩ := yields_iff.mp checks
  obtain ⟨second, tookSecond, -⟩ := yields_iff.mp checks
  refine ⟨volume, first, second, validImage_uninitialized mounted writable geometry, tookFirst,
    tookSecond, 1, by rw [geometry]; decide, .inr (.inr (.inr ⟨.inr ?_, ?_⟩))⟩
  · rw [geometry, if_neg (by decide)]
    exact fun _ => ⟨3, by decide, 0, rfl⟩
  · rw [geometry]
    exact ⟨le_rfl, Nat.le_add_right _ _⟩

end Uninitialized
end Mikos.Ext4
