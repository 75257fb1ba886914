import Mikos.Library.Action
import Mikos.Ext4.Volume

/-!
# Where the structures of a volume lie

A volume is a store of regions: the superblock, the group descriptors, the two
bitmaps of every group, the inodes and the data blocks.  A layout says where they
lie and that they do not meet.  All that the driver reads and writes is a part of
one region.
-/

namespace Mikos.Ext4
open Library Fs Function List

inductive Region where
  | super
  | descriptor (group : Nat)
  | blockBitmap (group : Nat)
  | inodeBitmap (group : Nat)
  | inode (number : Nat)
  | block (number : Nat)
  deriving DecidableEq

/-- Where the bitmaps and the inode table of a group are. -/
structure Places where
  blockBitmap : Nat
  inodeBitmap : Nat
  inodeTable : Nat

/-- What mounting a volume checks of its geometry. -/
structure Geometry.Sound (geometry : Geometry) (deviceSize : Nat) : Prop where
  blockSize : geometry.blockSize = 1024 ∨ geometry.blockSize = 2048 ∨ geometry.blockSize = 4096
  inodeSize : 128 ≤ geometry.inodeSize ∧ geometry.inodeSize ≤ geometry.blockSize
  blocksPerGroup : 0 < geometry.blocksPerGroup
  inodesPerGroup : 0 < geometry.inodesPerGroup
  firstDataBlock : geometry.firstDataBlock < geometry.blockCount
  groupCount : geometry.groupCount =
    (geometry.blockCount - geometry.firstDataBlock + geometry.blocksPerGroup - 1) /
      geometry.blocksPerGroup
  descriptorSize : 32 ≤ geometry.descriptorSize ∧
    (geometry.is64Bit = true → 64 ≤ geometry.descriptorSize)
  groupLimit : geometry.groupCount ≤ 0xffffffff
  rootInode : rootInode ≤ geometry.inodeCount
  inodeLimit : geometry.inodeCount < 2 ^ 32
  narrow : geometry.is64Bit = false → geometry.blockCount < 2 ^ 32
  device : geometry.blockCount * geometry.blockSize ≤ deviceSize

theorem checked [Decidable condition] {stop next : Except Error α} (refuses : stop = .error error)
    (ran : (if condition then stop else next) = .ok value) : ¬ condition ∧ next = .ok value := by
  split at ran
  · rw [refuses] at ran
    cases ran
  next passed => exact ⟨passed, ran⟩

theorem superblockGeometry_sound (exponent : littleU32 superblock 0x18 ≤ 2)
    (sizes : rootInode ≤ (superblockGeometry superblock).inodeCount ∧
      ¬ (superblockGeometry superblock).blocksPerGroup = 0 ∧
      ¬ (superblockGeometry superblock).inodesPerGroup = 0 ∧
      128 ≤ (superblockGeometry superblock).inodeSize ∧
      (superblockGeometry superblock).inodeSize ≤ (superblockGeometry superblock).blockSize ∧
      ¬ (superblockGeometry superblock).inodeSize % 4 ≠ 0)
    (wide : (superblockGeometry superblock).is64Bit = true →
      64 ≤ (superblockGeometry superblock).descriptorSize ∧
        (superblockGeometry superblock).descriptorSize ≤ (superblockGeometry superblock).blockSize)
    (first : (superblockGeometry superblock).firstDataBlock <
      (superblockGeometry superblock).blockCount)
    (groups : ¬ (superblockGeometry superblock).groupCount = 0 ∧
      (superblockGeometry superblock).groupCount ≤ 0xffffffff)
    (bounds : (superblockGeometry superblock).inodeCount ≤
        (superblockGeometry superblock).groupCount *
          (superblockGeometry superblock).inodesPerGroup ∧
      (superblockGeometry superblock).blockCount * (superblockGeometry superblock).blockSize <
        2 ^ 64 ∧
      (superblockGeometry superblock).blockCount * (superblockGeometry superblock).blockSize ≤
        deviceSize) : (superblockGeometry superblock).Sound deviceSize := by
  have blockSize : (superblockGeometry superblock).blockSize = 1024 ∨
      (superblockGeometry superblock).blockSize = 2048 ∨
      (superblockGeometry superblock).blockSize = 4096 := by
    have cases : littleU32 superblock 0x18 = 0 ∨ littleU32 superblock 0x18 = 1 ∨
        littleU32 superblock 0x18 = 2 := by omega
    simp only [superblockGeometry]
    rcases cases with same | same | same <;> rw [same] <;> decide
  have perGroup : (superblockGeometry superblock).blocksPerGroup < 0x100000000 := littleU32_lt
  have narrow : (superblockGeometry superblock).is64Bit = false →
      (superblockGeometry superblock).blockCount < 2 ^ 32 := by
    intro narrow
    have low := @littleU32_lt superblock 4
    simp only [Geometry.is64Bit, superblockGeometry] at narrow ⊢
    simp only [narrow]
    simpa using low
  refine
    { blockSize
      inodeSize := ⟨sizes.2.2.2.1, sizes.2.2.2.2.1⟩
      blocksPerGroup := Nat.pos_of_ne_zero sizes.2.1
      inodesPerGroup := Nat.pos_of_ne_zero sizes.2.2.1
      firstDataBlock := first
      groupCount := ?_
      descriptorSize := ⟨?_, fun high => (wide high).1⟩
      groupLimit := groups.2
      rootInode := sizes.1
      inodeLimit := littleU32_lt
      narrow
      device := bounds.2.2 }
  · have small : (superblockGeometry superblock).blockCount < 2 ^ 54 := by
      rcases blockSize with same | same | same <;> rw [same] at bounds <;> omega
    have exact : (superblockGeometry superblock).groupCount =
        wrap 64 ((superblockGeometry superblock).blockCount -
          (superblockGeometry superblock).firstDataBlock +
          (superblockGeometry superblock).blocksPerGroup - 1) /
            (superblockGeometry superblock).blocksPerGroup := rfl
    rw [exact, wrap_of_lt (by omega)]
  cases high : (superblockGeometry superblock).is64Bit with
  | true => exact Nat.le_trans (by decide) (wide high).1
  | false =>
    simp only [Geometry.is64Bit, superblockGeometry] at high ⊢
    simp only [high]
    simp

theorem mount_sound (mounted : mount device = .ok volume) :
    volume.device = device ∧ volume.mounted = true ∧ volume.geometry.Sound device.size := by
  unfold mount at mounted
  cases loaded : device.readExact 1024 1024 zeroBytes with
  | error error =>
    rw [loaded] at mounted
    cases mounted
  | ok superblock =>
    rw [loaded] at mounted
    dsimp only [bind, Except.bind] at mounted
    obtain ⟨-, mounted⟩ := checked rfl mounted
    obtain ⟨-, mounted⟩ := checked rfl mounted
    obtain ⟨exponent, mounted⟩ := checked rfl mounted
    obtain ⟨sizes, mounted⟩ := checked rfl mounted
    obtain ⟨wide, mounted⟩ := checked rfl mounted
    obtain ⟨first, mounted⟩ := checked rfl mounted
    obtain ⟨groups, mounted⟩ := checked rfl mounted
    obtain ⟨bounds, mounted⟩ := checked rfl mounted
    cases mounted
    simp only [not_or, not_lt, not_le, not_and] at exponent sizes wide first groups bounds
    exact ⟨rfl, rfl, superblockGeometry_sound exponent sizes wide first groups bounds⟩

/-- The geometry is that of a well-formed volume: a bitmap covers its group, and every
group has its inodes. -/
structure Geometry.Sane (geometry : Geometry) : Prop where
  blocks : geometry.blocksPerGroup ≤ 8 * geometry.blockSize
  inodes : geometry.inodesPerGroup ≤ 8 * geometry.blockSize
  inodeCount : geometry.inodeCount = geometry.groupCount * geometry.inodesPerGroup

namespace Region
variable (geometry : Geometry) (places : Nat → Places)

def start : Region → Nat
  | .super => 1024
  | .descriptor group => geometry.groupDescriptorOffset group
  | .blockBitmap group => (places group).blockBitmap * geometry.blockSize
  | .inodeBitmap group => (places group).inodeBitmap * geometry.blockSize
  | .inode number =>
    (places ((number - 1) / geometry.inodesPerGroup)).inodeTable * geometry.blockSize +
      (number - 1) % geometry.inodesPerGroup * geometry.inodeSize
  | .block number => number * geometry.blockSize

def length : Region → Nat
  | .super => 1024
  | .descriptor _ => geometry.descriptorBytes
  | .inode _ => geometry.inodeSize
  | .blockBitmap _ | .inodeBitmap _ | .block _ => geometry.blockSize

/-- The regions of a volume's own structures. -/
def IsMetadata : Region → Prop
  | .super => True
  | .descriptor group | .blockBitmap group | .inodeBitmap group => group < geometry.groupCount
  | .inode number => 0 < number ∧ number ≤ geometry.inodeCount
  | .block _ => False

end Region

structure Layout extends Geometry where
  places : Nat → Places
  deviceSize : Nat
  sound : toGeometry.Sound deviceSize
  sane : toGeometry.Sane
  addressable : deviceSize < 2 ^ 64
  apart : ∀ {left right : Region}, left.IsMetadata toGeometry → right.IsMetadata toGeometry →
    left ≠ right → Apart (left.start toGeometry places) (left.length toGeometry)
      (right.start toGeometry places) (right.length toGeometry)
  inside : ∀ {region : Region}, region.IsMetadata toGeometry →
    region.start toGeometry places + region.length toGeometry ≤ deviceSize
  placed : ∀ {group : Nat}, group < toGeometry.groupCount →
    toGeometry.validPhysicalBlock (places group).blockBitmap = true ∧
    toGeometry.validPhysicalBlock (places group).inodeBitmap = true ∧
    toGeometry.validPhysicalBlock (places group).inodeTable = true

namespace Layout
variable (layout : Layout)

abbrev start (region : Region) : Nat := region.start layout.toGeometry layout.places

abbrev length (region : Region) : Nat := region.length layout.toGeometry

theorem blockSize_pos (layout : Layout) : 0 < layout.blockSize := by
  have := layout.sound.blockSize
  omega

/-- A block that meets none of the volume's own structures. -/
def IsData (block : Nat) : Prop :=
  layout.validPhysicalBlock block = true ∧
    ∀ {region : Region}, region.IsMetadata layout.toGeometry →
      Apart (block * layout.blockSize) layout.blockSize
        (layout.start region) (layout.length region)

/-- Regions that are read and written. -/
def Valid : Region → Prop
  | .block number => layout.IsData number
  | region => region.IsMetadata layout.toGeometry

theorem apart_symm {start length start' length' : Nat} (apart : Apart start length start' length') :
    Apart start' length' start length := by
  rw [Apart] at apart ⊢
  omega

theorem block_apart (apart : left ≠ right) (size : Nat) :
    Apart (left * size) size (right * size) size := by
  rw [Apart]
  rcases Nat.lt_or_gt_of_ne apart with smaller | larger
  · left
    calc left * size + size = (left + 1) * size := (Nat.succ_mul left size).symm
      _ ≤ right * size := Nat.mul_le_mul_right size smaller
  · right
    calc right * size + size = (right + 1) * size := (Nat.succ_mul right size).symm
      _ ≤ left * size := Nat.mul_le_mul_right size larger

theorem metadata_of_valid (valid : layout.Valid region)
    (notBlock : ∀ number, region ≠ .block number) : region.IsMetadata layout.toGeometry := by
  cases region with
  | block number => exact absurd rfl (notBlock number)
  | _ => exact valid

def regions : Regions Region where
  start := Region.start layout.toGeometry layout.places
  length := Region.length layout.toGeometry
  valid := layout.Valid
  apart {left right} validLeft validRight different := by
    by_cases leftBlock : ∃ number, left = .block number
    · obtain ⟨number, rfl⟩ := leftBlock
      by_cases rightBlock : ∃ other, right = .block other
      · obtain ⟨other, rfl⟩ := rightBlock
        exact block_apart (fun same => different (congrArg _ same)) _
      · exact validLeft.2 (layout.metadata_of_valid validRight (not_exists.mp rightBlock))
    have metadata := layout.metadata_of_valid validLeft (not_exists.mp leftBlock)
    by_cases rightBlock : ∃ other, right = .block other
    · obtain ⟨other, rfl⟩ := rightBlock
      exact apart_symm (validRight.2 metadata)
    · exact layout.apart metadata
        (layout.metadata_of_valid validRight (not_exists.mp rightBlock)) different

end Layout

/-! ## The store of a volume -/

abbrev Store := Region → Bytes

namespace Layout
variable {layout : Layout} {volume : Volume} {region : Region}

noncomputable def store (layout : Layout) (image : Bytes) : Store := layout.regions.contents image

theorem store_outside (image : Bytes) (outside : layout.length region ≤ i) :
    layout.store image region i = 0 :=
  if_neg fun inside => by
    have bound : i < layout.length region := inside.2
    omega

theorem splice_store (image : Bytes) :
    splice zeroBytes 0 (layout.length region) (layout.store image region) =
      layout.store image region := by
  funext i
  by_cases inside : i < layout.length region
  · rw [splice_inside (by omega), Nat.sub_zero]
  · rw [splice_outside (by omega), store_outside image (by omega)]
    rfl

theorem inside_of_valid (valid : layout.Valid region) :
    layout.start region + layout.length region ≤
      layout.deviceSize := by
  cases region with
  | block number =>
    have bound : number < layout.blockCount := by
      have physical := valid.1
      simp only [Geometry.validPhysicalBlock, Bool.and_eq_true, decide_eq_true_eq] at physical
      exact physical.2
    calc number * layout.blockSize + layout.blockSize
        = (number + 1) * layout.blockSize := (Nat.succ_mul _ _).symm
      _ ≤ layout.blockCount * layout.blockSize := Nat.mul_le_mul_right _ bound
      _ ≤ layout.deviceSize := layout.sound.device
  | _ => exact layout.inside valid

end Layout

def Layout.descriptor (layout : Layout) (store : Store) (group : Nat) : GroupDescriptor :=
  parseDescriptor layout.toGeometry (store (.descriptor group))

/-- The bytes of a descriptor say where the structures of a group are. -/
def Layout.PlacedAt (layout : Layout) (group : Nat) (raw : Bytes) : Prop :=
  let descriptor := parseDescriptor layout.toGeometry raw
  descriptor.blockBitmap = (layout.places group).blockBitmap ∧
    descriptor.inodeBitmap = (layout.places group).inodeBitmap ∧
    descriptor.inodeTable = (layout.places group).inodeTable

/-- All descriptors do. -/
def Layout.Placed (layout : Layout) (store : Store) : Prop :=
  ∀ group < layout.groupCount,
    layout.PlacedAt group (store (.descriptor group))

theorem Layout.Placed.update {layout : Layout} {store : Store} (placed : layout.Placed store)
    (same : ∀ group, region = .descriptor group → layout.PlacedAt group content) :
    layout.Placed (update store region content) := by
  intro group bound
  by_cases changed : region = .descriptor group
  · subst changed
    rw [update_self]
    exact same group rfl
  · rw [update_of_ne (Ne.symm changed)]
    exact placed group bound

structure Layout.Fits (layout : Layout) (volume : Volume) : Prop where
  geometry : volume.geometry = layout.toGeometry
  size : volume.device.size = layout.deviceSize
  mounted : volume.mounted = true
  placed : layout.Placed (layout.store volume.image)

/-- A volume after one more write to its device. -/
def Volume.put (volume : Volume) (offset size : Nat) (input : Bytes) : Volume :=
  { volume with
    device :=
      { volume.device with
        image := splice volume.image offset size input
        writes := volume.device.writes ++ [⟨offset, size, input⟩] } }

namespace Layout.Fits
variable {layout : Layout} {volume : Volume} {region : Region} {within size : Nat}

section
variable (fits : layout.Fits volume) (valid : layout.Valid region)
include fits valid

theorem readExact (inside : within + size ≤ layout.length region) (output : Bytes) :
    Ext4.readExact (layout.start region + within) size output volume =
      .ok (splice output 0 size fun i => layout.store volume.image region (within + i)) volume := by
  have bound := inside_of_valid valid
  simp only [Ext4.readExact, Device.readExact, fits.size]
  rw [if_neg (by omega)]
  simp only [EStateM.Result.ok.injEq, and_true]
  funext i
  by_cases taken : i < size
  · rw [splice_inside (by omega), splice_inside (by omega), Layout.store,
      Regions.contents_apply valid (by change _ < layout.length region; omega)]
    congr 1
    change _ = layout.start region + _
    omega
  · rw [splice_outside (by omega), splice_outside (by omega)]

theorem readWhole :
    Ext4.readExact (layout.start region) (layout.length region)
      zeroBytes volume = .ok (layout.store volume.image region) volume := by
  have whole : 0 + layout.length region ≤ layout.length region := by omega
  have read := fits.readExact valid whole zeroBytes
  simp only [Nat.add_zero, Nat.zero_add] at read
  rw [read]
  congr 1
  exact splice_store _

omit valid in
theorem readDescriptor (bound : group < layout.groupCount) :
    Ext4.readExact (layout.groupDescriptorOffset group) layout.descriptorBytes zeroBytes volume =
      .ok (layout.store volume.image (.descriptor group)) volume :=
  fits.readWhole (show layout.Valid (.descriptor group) from bound)

theorem writeExact (inside : within + size ≤ layout.length region) (input : Bytes) :
    Ext4.writeExact (layout.start region + within) size input volume =
      .ok () (volume.put (layout.start region + within) size input) := by
  have bound := inside_of_valid valid
  rw [← fits.size] at bound
  simp only [Ext4.writeExact, Device.writeExact]
  rw [if_neg (by omega)]
  rfl

end

theorem store_put (volume : Volume) (valid : layout.Valid region)
    (inside : within + size ≤ layout.length region) (input : Bytes) :
    layout.store (volume.put (layout.start region + within) size
        input).device.image = update (layout.store volume.image) region
        (splice (layout.store volume.image region) within size input) :=
  Regions.contents_splice valid inside input

end Layout.Fits

/-! ## Changes of a store -/

/-- A device came from another and holds a store. -/
structure Layout.Stores (layout : Layout) (store : Store) (before after : Device) : Prop where
  size : after.size = before.size
  store : layout.store after.image = store

namespace Layout.Stores
variable {layout : Layout} {store : Store} {device : Device}

theorem put {volume : Volume} {within size : Nat} (valid : layout.Valid region)
    (inside : within + size ≤ layout.length region) (input : Bytes)
    (same : splice (layout.store volume.image region) within size input = content) :
    layout.Stores (update (layout.store volume.image) region content) volume.device
      (volume.put (layout.start region + within) size input).device := by
  rw [← same]
  exact ⟨rfl, Layout.Fits.store_put volume valid inside input⟩

theorem fits (stores : layout.Stores store volume.device device) (fits : layout.Fits volume)
    (placed : layout.Placed store) : layout.Fits { volume with device } :=
  ⟨fits.geometry, stores.size.trans fits.size, fits.mounted, by
    change layout.Placed (layout.store device.image)
    rw [stores.store]
    exact placed⟩

end Layout.Stores

theorem splice_whole (inside : ∀ i < size, input i = content i)
    (outside : ∀ i, size ≤ i → old i = content i) : splice old 0 size input = content := by
  funext i
  by_cases bound : i < size
  · rw [splice_inside (by omega), Nat.sub_zero, inside i bound]
  · rw [splice_outside (by omega), outside i (by omega)]

namespace Layout.Fits
variable {layout : Layout} {volume : Volume} {region : Region} {within size : Nat}

theorem writeRegion (fits : layout.Fits volume) (valid : layout.Valid region)
    (inside : within + size ≤ layout.length region) {input content : Bytes}
    (same : splice (layout.store volume.image region) within size input = content)
    (kept : ∀ group, region = .descriptor group → layout.PlacedAt group content) :
    ∃ device, Ext4.writeExact (layout.start region + within) size input
        volume = .ok () { volume with device } ∧
      layout.Stores (update (layout.store volume.image) region content) volume.device
        device ∧
      layout.Fits { volume with device } := by
  have stores := Stores.put valid inside input same
  exact ⟨_, fits.writeExact valid inside input, stores,
    stores.fits fits (Layout.Placed.update fits.placed kept)⟩

theorem writeWhole (fits : layout.Fits volume) (valid : layout.Valid region) (content : Bytes)
    (inside : ∀ i < layout.length region, input i = content i)
    (outside : ∀ i, layout.length region ≤ i → content i = 0)
    (kept : ∀ group, region = .descriptor group → layout.PlacedAt group content) :
    ∃ device, Ext4.writeExact (layout.start region)
        (layout.length region) input volume = .ok () { volume with device } ∧
      layout.Stores (update (layout.store volume.image) region content) volume.device
        device ∧
      layout.Fits { volume with device } := by
  refine fits.writeRegion valid (le_of_eq (Nat.zero_add _)) ?_ kept
  exact splice_whole inside fun i beyond => (store_outside _ beyond).trans (outside i beyond).symm

end Layout.Fits
end Mikos.Ext4
