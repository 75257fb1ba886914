import Mikos.Ext4.Disk
import Mikos.Ext4.ReadOnly

/-!
# Allocating and releasing blocks and inodes

What each of the four routines does to the disk.
-/

namespace Mikos.Ext4
open Library Fs Function List

/-! ## Group descriptors -/

namespace Layout.Fits
variable {layout : Layout} {volume : Volume} {group : Nat}

theorem readGroupDescriptor (fits : layout.Fits volume) (bound : group < layout.groupCount) :
    Ext4.readGroupDescriptor group volume =
      .ok (layout.descriptor (layout.store volume.image) group) volume := by
  obtain ⟨blocks, inodes, table⟩ := fits.placed group bound
  obtain ⟨validBlocks, validInodes, validTable⟩ := layout.placed bound
  simp only [Ext4.readGroupDescriptor, get_bind, fits.geometry, ite_apply_state]
  rw [if_neg (by omega), bind_of_ok (fits.readDescriptor bound)]
  simp only [ite_apply_state]
  rw [if_pos]
  · rfl
  · rw [blocks, inodes, table, validBlocks, validInodes, validTable]
    rfl

theorem descriptor_places (fits : layout.Fits volume) (bound : group < layout.groupCount) :
    let descriptor := layout.descriptor (layout.store volume.image) group
    descriptor.blockBitmap = (layout.places group).blockBitmap ∧
      descriptor.inodeBitmap = (layout.places group).inodeBitmap ∧
      descriptor.inodeTable = (layout.places group).inodeTable :=
  fits.placed group bound

end Layout.Fits

section Counts
variable {geometry : Geometry} {raw : Bytes} {descriptor : GroupDescriptor}

theorem putCounts_places :
    (parseDescriptor geometry (putCounts geometry raw descriptor)).blockBitmap =
        (parseDescriptor geometry raw).blockBitmap ∧
      (parseDescriptor geometry (putCounts geometry raw descriptor)).inodeBitmap =
        (parseDescriptor geometry raw).inodeBitmap ∧
      (parseDescriptor geometry (putCounts geometry raw descriptor)).inodeTable =
        (parseDescriptor geometry raw).inodeTable := by
  cases wide : geometry.is64Bit <;>
    simp (disch := omega) [parseDescriptor, putCounts, wide, put16, littleU32_splice_outside]

theorem putCounts_flags :
    littleU16 (putCounts geometry raw descriptor) 0x12 = littleU16 raw 0x12 := by
  cases wide : geometry.is64Bit <;>
    simp (disch := omega) [putCounts, wide, put16, littleU16_splice_outside]

theorem putCounts_outside (small : 0x12 ≤ size) (wide : geometry.is64Bit = true → 0x32 ≤ size)
    (outside : size ≤ i) : putCounts geometry raw descriptor i = raw i := by
  cases is64Bit : geometry.is64Bit
  · simp (disch := omega) [putCounts, is64Bit, put16, splice_outside]
  · have large := wide is64Bit
    simp (disch := omega) [putCounts, is64Bit, put16, splice_outside]

end Counts

theorem Layout.descriptorBytes_large (layout : Layout) :
    0x12 ≤ layout.descriptorBytes ∧ (layout.is64Bit = true → 0x32 ≤ layout.descriptorBytes) := by
  obtain ⟨small, wide⟩ := layout.sound.descriptorSize
  rw [Geometry.descriptorBytes]
  refine ⟨by omega, fun is64Bit => ?_⟩
  have := wide is64Bit
  omega

namespace Layout.Fits
variable {layout : Layout} {volume : Volume} {group : Nat}

section
variable (fits : layout.Fits volume)
include fits

theorem writeGroupFreeCounts (bound : group < layout.groupCount) (descriptor : GroupDescriptor) :
    ∃ device, Ext4.writeGroupFreeCounts group descriptor volume = .ok () { volume with device } ∧
      layout.Stores (update (layout.store volume.image) (.descriptor group)
        (putCounts layout.toGeometry (layout.store volume.image (.descriptor group))
          descriptor)) volume.device device ∧
      layout.Fits { volume with device } := by
  have valid : layout.Valid (.descriptor group) := bound
  obtain ⟨small, wide⟩ := layout.descriptorBytes_large
  have read := fits.readDescriptor bound
  obtain ⟨device, written, stores, fits'⟩ := fits.writeWhole valid
    (putCounts layout.toGeometry (layout.store volume.image (.descriptor group)) descriptor)
    (fun _ _ => rfl)
    (fun i outside => (putCounts_outside small wide outside).trans
      (store_outside volume.image outside))
    (fun other same => by
      cases same
      obtain ⟨blocks, inodes, table⟩ := fits.placed group bound
      obtain ⟨blocks', inodes', table'⟩ := putCounts_places
      exact ⟨blocks'.trans blocks, inodes'.trans inodes, table'.trans table⟩)
  refine ⟨device, ?_, stores, fits'⟩
  rw [start, length, ← fits.geometry] at written
  rw [← fits.geometry] at read
  simp only [Ext4.writeGroupFreeCounts, get_bind]
  rw [bind_of_ok read]
  exact written

theorem writeSuperblockFreeCounts :
    let superblock := putSuperblockCounts layout.toGeometry volume.superblock volume.freeBlocks
      volume.freeInodes
    ∃ device, Ext4.writeSuperblockFreeCounts volume = .ok () { volume with device, superblock } ∧
      layout.Stores (update (layout.store volume.image) .super
        (splice (layout.store volume.image .super) 0 1024 superblock))
        volume.device device ∧
      layout.Fits { volume with device, superblock } := by
  intro superblock
  have fits' : layout.Fits { volume with superblock } := { fits with }
  have valid : layout.Valid .super := trivial
  have inside : 0 + 1024 ≤ layout.length .super := le_rfl
  obtain ⟨device, written, stores, fits''⟩ := fits'.writeRegion valid inside rfl
    (fun group same => by cases same)
  refine ⟨device, ?_, stores, fits''⟩
  have counts : putSuperblockCounts volume.geometry volume.superblock volume.freeBlocks
      volume.freeInodes = superblock := by rw [fits.geometry]
  simp only [Ext4.writeSuperblockFreeCounts, modify_bind, get_bind, counts]
  exact written

theorem writeCounts (bound : group < layout.groupCount) (descriptor : GroupDescriptor) :
    let superblock := putSuperblockCounts layout.toGeometry volume.superblock volume.freeBlocks
      volume.freeInodes
    ∃ device, Ext4.writeCounts group descriptor volume = .ok () { volume with device, superblock } ∧
      (∃ super, layout.store device.image =
        update (update (layout.store volume.image) (.descriptor group)
          (putCounts layout.toGeometry (layout.store volume.image (.descriptor group))
            descriptor)) .super super) ∧
      layout.Fits { volume with device, superblock } := by
  intro superblock
  obtain ⟨middle, counted, stores, fits'⟩ := fits.writeGroupFreeCounts bound descriptor
  obtain ⟨device, written, stores', fits''⟩ := fits'.writeSuperblockFreeCounts
  refine ⟨device, ?_, ⟨_, stores'.store.trans (by rw [stores.store])⟩, fits''⟩
  rw [Ext4.writeCounts, bind_of_ok counted]
  exact written

section
variable (valid : layout.Valid region)
  (start : layout.start region = block * layout.blockSize)
  (length : layout.length region = layout.blockSize)
  (physical : layout.validPhysicalBlock block = true)
include valid start length physical

theorem readPhysicalBlock (output : Bytes) :
    ∃ bytes, Ext4.readPhysicalBlock block output volume = .ok bytes volume ∧
      ∀ i < layout.blockSize, bytes i = layout.store volume.image region i := by
  have whole : 0 + layout.blockSize ≤ layout.length region := by omega
  have read := fits.readExact valid whole output
  rw [Nat.add_zero, start] at read
  refine ⟨splice output 0 layout.blockSize fun i =>
    layout.store volume.image region (0 + i), ?_, fun i bound => ?_⟩
  · simp only [Ext4.readPhysicalBlock, get_bind, ite_apply_state]
    rw [fits.geometry, if_pos physical]
    exact read
  · rw [splice_inside (by omega), Nat.sub_zero, Nat.zero_add]

theorem loadBlock :
    ∃ scratch, Ext4.loadBlock block volume = .ok () { volume with block := scratch } ∧
      ∀ i < layout.blockSize, scratch i = layout.store volume.image region i := by
  obtain ⟨bytes, read, same⟩ := fits.readPhysicalBlock valid start length physical volume.block
  refine ⟨bytes, ?_, same⟩
  simp only [Ext4.loadBlock, get_bind]
  rw [bind_of_ok read]
  rfl

end
end
end Layout.Fits

/-! ## Runs of the driver -/

noncomputable def Layout.view (layout : Layout) (volume : Volume) : Disk :=
  layout.disk (layout.store volume.image)

noncomputable def Layout.flags (layout : Layout) (volume : Volume) (group : Nat) : Nat :=
  littleU16 (layout.store volume.image (.descriptor group)) 0x12

/-- The driver ran from one volume to another, which says what a disk does. The flags of the
groups are those before. -/
structure Layout.Turns (layout : Layout) (disk : Disk) (before after : Volume) : Prop where
  view : layout.view after = disk
  fits : layout.Fits after
  flags : ∀ group, layout.flags after group = layout.flags before group

theorem Layout.Turns.trans {layout : Layout} {middle disk : Disk}
    (left : layout.Turns middle first second) (right : layout.Turns disk second third) :
    layout.Turns disk first third :=
  { right with flags := fun group => (right.flags group).trans (left.flags group) }

namespace Intact
variable {layout : Layout} {first second : Volume}

theorem view (intact : Intact first second) : layout.view second = layout.view first := by
  rw [Layout.view, Layout.view, intact.image]

theorem turns (intact : Intact first second) (fits : layout.Fits first) :
    layout.Turns (layout.view first) first second :=
  ⟨intact.view, intact.fits fits, fun _ => by rw [Layout.flags, Layout.flags, intact.image]⟩

end Intact

theorem Layout.Stores.turns {layout : Layout}
    (stores : layout.Stores (update (layout.store volume.image) region content)
      volume.device device) (fits : layout.Fits volume)
    (isObject : (∃ number, region = .inode number) ∨ ∃ number, region = .block number) :
    layout.Turns (layout.disk (update (layout.store volume.image) region content))
      volume { volume with device } := by
  refine ⟨by rw [Layout.view, stores.store], ?_, fun group => ?_⟩
  · refine stores.fits fits (Layout.Placed.update fits.placed fun group same => ?_)
    rcases isObject with ⟨number, rfl⟩ | ⟨number, rfl⟩ <;> cases same
  · rw [Layout.flags, Layout.flags, stores.store, update_of_ne]
    rcases isObject with ⟨number, rfl⟩ | ⟨number, rfl⟩ <;> simp

/-! ## What is taken and given back -/

/-- A block was taken: its bit was clear, and now it is marked and empty. -/
structure Layout.TakesBlock (layout : Layout) (block : Nat) (before after : Volume) : Prop where
  hasBit : layout.HasBit block
  free : (layout.view before).used block = false
  turns : layout.Turns (((layout.view before).mark block).setBlock block zeroBytes) before after

/-- An inode was taken: its bit was clear, and now it is marked and empty. -/
structure Layout.TakesInode (layout : Layout) (inode : Nat) (before after : Volume) : Prop where
  free : (layout.view before).inodeUsed inode = false
  turns : layout.Turns (((layout.view before).markInode inode).setInode inode zeroBytes)
    before after

namespace Layout
variable {layout : Layout} {volume : Volume} {block inode group bit : Nat}

theorem hasBit_of_bit (inside : bit < min layout.blocksPerGroup
    (layout.blockCount -
      (layout.firstDataBlock + group * layout.blocksPerGroup))) :
    layout.HasBit (layout.firstDataBlock + group * layout.blocksPerGroup + bit) ∧
      layout.blockGroup (layout.firstDataBlock + group * layout.blocksPerGroup + bit) = group ∧
      layout.blockBit (layout.firstDataBlock + group * layout.blocksPerGroup + bit) = bit := by
  have small : bit < layout.blocksPerGroup := by omega
  have offset : layout.firstDataBlock + group * layout.blocksPerGroup + bit -
      layout.firstDataBlock = bit + group * layout.blocksPerGroup := by omega
  refine ⟨⟨by omega, by omega⟩, ?_, ?_⟩
  · rw [blockGroup, offset, Nat.add_mul_div_right _ _ layout.sound.blocksPerGroup,
      Nat.div_eq_of_lt small, Nat.zero_add]
  · rw [blockBit, offset, Nat.add_mul_mod_self_right, Nat.mod_eq_of_lt small]

theorem hasInode_of_bit (bound : group < layout.groupCount) (inside : bit < layout.inodesPerGroup) :
    layout.HasInode (group * layout.inodesPerGroup + 1 + bit) ∧
      layout.inodeGroup (group * layout.inodesPerGroup + 1 + bit) = group ∧
      layout.inodeBit (group * layout.inodesPerGroup + 1 + bit) = bit := by
  have offset : group * layout.inodesPerGroup + 1 + bit - 1 =
      bit + group * layout.inodesPerGroup := by omega
  have next : (group + 1) * layout.inodesPerGroup ≤ layout.inodeCount := by
    rw [layout.sane.inodeCount]
    exact Nat.mul_le_mul_right _ bound
  rw [Nat.succ_mul] at next
  refine ⟨⟨by omega, by omega⟩, ?_, ?_⟩
  · rw [inodeGroup, offset, Nat.add_mul_div_right _ _ layout.sound.inodesPerGroup,
      Nat.div_eq_of_lt inside, Nat.zero_add]
  · rw [inodeBit, offset, Nat.add_mul_mod_self_right, Nat.mod_eq_of_lt inside]

theorem bitAt_congr (inside : bit < 8 * layout.blockSize)
    (same : ∀ i < layout.blockSize, left i = right i) : bitAt left bit = bitAt right bit := by
  rw [bitAt, bitAt, same (bit / 8) (by omega)]

theorem change_bit (value : Bytes → UInt8)
    (local_value : left (bit / 8) = right (bit / 8) → value left = value right)
    (inside : bit < 8 * layout.blockSize) (same : ∀ i < layout.blockSize, left i = right i)
    (beyond : ∀ i, layout.blockSize ≤ i → right i = 0) :
    (∀ i < layout.blockSize, update left (bit / 8) (value left) i =
          update right (bit / 8) (value right) i) ∧
      ∀ i, layout.blockSize ≤ i → update right (bit / 8) (value right) i = 0 := by
  have here := same (bit / 8) (by omega)
  refine ⟨fun i bound => ?_, fun i outside => ?_⟩
  · rw [update_apply, update_apply, local_value here, same i bound]
  · rw [update_of_ne (by omega), beyond i outside]

end Layout

namespace Layout.Fits
variable {layout : Layout} {volume : Volume} {block inode group bit : Nat}

section
variable (fits : layout.Fits volume)
include fits

theorem emptyObject {object : Region}
    (isObject : (∃ number, object = .inode number) ∨ ∃ number, object = .block number)
    (valid : layout.Valid object) (empty : Disk → Disk)
    (empties : ∀ store, layout.disk (update store object zeroBytes) = empty (layout.disk store))
    (buffer : Bytes) :
    ∃ emptied, Ext4.writeExact (layout.start object)
        (layout.length object)
        (splice buffer 0 (layout.length object) zeroBytes) volume = .ok () emptied ∧
      emptied.block = volume.block ∧
      (∀ region ≠ object, layout.store emptied.image region = layout.store volume.image region) ∧
      layout.Turns (empty (layout.view volume)) volume emptied := by
  obtain ⟨device, wrote, stores, -⟩ := fits.writeWhole valid zeroBytes
    (fun _ inside => splice_inside ⟨Nat.zero_le _, by rw [Nat.zero_add]; exact inside⟩)
    (fun _ _ => rfl)
    (fun group same => by rcases isObject with ⟨_, rfl⟩ | ⟨_, rfl⟩ <;> cases same)
  have turns := stores.turns fits isObject
  rw [empties] at turns
  refine ⟨_, wrote, rfl, fun region apart => ?_, turns⟩
  rw [stores.store, update_of_ne apart]

theorem renewBit (bound : group < layout.groupCount)
    (isBitmap : region = .blockBitmap group ∨ region = .inodeBitmap group) {disk : Disk}
    (changed : layout.disk (update (layout.store volume.image) region bits) = disk)
    (inside : ∀ i < layout.blockSize, volume.block i = bits i)
    (beyond : ∀ i, layout.blockSize ≤ i → bits i = 0) :
    ∃ marked : Volume,
      Ext4.writeExact (layout.start region) layout.blockSize
        volume.block volume = .ok () marked ∧
      ∀ freeBlocks freeInodes descriptor, ∃ after,
        Ext4.writeCounts group descriptor { marked with freeBlocks, freeInodes } = .ok () after ∧
        layout.Turns disk volume after := by
  have valid : layout.Valid region := by
    rcases isBitmap with rfl | rfl <;> exact bound
  have length : layout.length region = layout.blockSize := by
    rcases isBitmap with rfl | rfl <;> rfl
  rw [← length] at inside beyond
  obtain ⟨marked, written, stores, fits₁⟩ := fits.writeWhole valid bits inside beyond
    (fun other same => by rcases isBitmap with rfl | rfl <;> cases same)
  rw [length] at written
  refine ⟨_, written, fun freeBlocks freeInodes descriptor => ?_⟩
  have fits₂ : layout.Fits { volume with device := marked, freeBlocks, freeInodes } :=
    { fits₁ with }
  obtain ⟨device, counted, ⟨super, store⟩, fits₃⟩ := fits₂.writeCounts bound descriptor
  refine ⟨_, counted, ?_, fits₃, fun other => ?_⟩
  · rw [Layout.view, store, disk_super, disk_descriptor, stores.store, changed]
  have sameBytes : layout.store marked.image (.descriptor other) =
      layout.store volume.image (.descriptor other) := by
    rw [stores.store, update_of_ne]
    rcases isBitmap with rfl | rfl <;> simp
  rw [Layout.flags, Layout.flags, store, update_of_ne (by simp), ← sameBytes]
  by_cases same : other = group
  · rw [same, update_self, putCounts_flags]
  · rw [update_of_ne (by simpa using same)]

section Objects
variable (bound : group < layout.groupCount) {region object : Region}
  (isBitmap : region = .blockBitmap group ∨ region = .inodeBitmap group)
  (isObject : (∃ number, object = .inode number) ∨ ∃ number, object = .block number)
  (valid : layout.Valid object) (limit : bit < 8 * layout.blockSize)
  (scratch : ∀ i < layout.blockSize,
    volume.block i = layout.store volume.image region i)
include bound isBitmap isObject valid limit scratch

/-- Set a bit, write the counts and empty the object of the bit. -/
theorem take (empty : Disk → Disk) (marks : layout.disk (update (layout.store volume.image)
      region (setBit (layout.store volume.image region) bit)) = marked)
    (empties : ∀ store, layout.disk (update store object zeroBytes) = empty (layout.disk store)) :
    ∃ written : Volume,
      Ext4.writeExact (layout.start region) layout.blockSize
        (setBit volume.block bit) { volume with block := setBit volume.block bit } =
          .ok () written ∧
      ∀ freeBlocks freeInodes descriptor, ∃ counted after : Volume,
        Ext4.writeCounts group descriptor { written with freeBlocks, freeInodes } = .ok () counted ∧
        Ext4.writeExact (layout.start object) (layout.length object)
          (splice counted.block 0 (layout.length object) zeroBytes)
          { counted with
            block := splice counted.block 0 (layout.length object) zeroBytes } =
            .ok () after ∧
        layout.Turns (empty marked) volume after := by
  have length : layout.length region = layout.blockSize := by
    rcases isBitmap with rfl | rfl <;> rfl
  obtain ⟨agree, beyond⟩ := change_bit
    (fun bytes => UInt8.ofNat ((bytes (bit / 8)).toNat ||| 2 ^ (bit % 8)))
    (fun same => by rw [same]) limit scratch
    (fun _ outside => store_outside _ (by rw [length]; exact outside))
  change ∀ i < layout.blockSize, setBit volume.block bit i = setBit _ _ i at agree
  generalize setBit volume.block bit = buffer at agree ⊢
  have buffered := (Intact.scratch volume buffer).turns fits
  obtain ⟨written, wrote, renews⟩ := buffered.fits.renewBit bound isBitmap marks agree beyond
  refine ⟨written, wrote, fun freeBlocks freeInodes descriptor => ?_⟩
  obtain ⟨counted, counts, renewed⟩ := renews freeBlocks freeInodes descriptor
  have buffered' := (Intact.scratch counted
    (splice counted.block 0 (layout.length object) zeroBytes)).turns renewed.fits
  obtain ⟨after, zeroed, -, -, emptied⟩ :=
    buffered'.fits.emptyObject isObject valid empty empties counted.block
  rw [buffered'.view, renewed.view] at emptied
  exact ⟨counted, after, counts, zeroed, buffered.trans (renewed.trans (buffered'.trans emptied))⟩

/-- Empty an object, clear its bit and write the counts. -/
theorem give (empty unmark : Disk → Disk)
    (empties : ∀ store, layout.disk (update store object zeroBytes) = empty (layout.disk store))
    (unmarks : ∀ store, layout.disk (update store region (clearBit (store region) bit)) =
      unmark (layout.disk store)) :
    ∃ emptied written : Volume,
      Ext4.writeExact (layout.start object) (layout.length object)
        (splice volume.directoryBlock 0 (layout.length object) zeroBytes)
        { volume with
          directoryBlock := splice volume.directoryBlock 0 (layout.length object) zeroBytes } =
          .ok () emptied ∧
      Ext4.writeExact (layout.start region) layout.blockSize
        (clearBit emptied.block bit) { emptied with block := clearBit emptied.block bit } =
          .ok () written ∧
      ∀ freeBlocks freeInodes descriptor, ∃ after,
        Ext4.writeCounts group descriptor { written with freeBlocks, freeInodes } = .ok () after ∧
        layout.Turns (unmark (empty (layout.view volume))) volume after := by
  have length : layout.length region = layout.blockSize := by
    rcases isBitmap with rfl | rfl <;> rfl
  have apart : region ≠ object := by
    rcases isBitmap with rfl | rfl <;> rcases isObject with ⟨_, rfl⟩ | ⟨_, rfl⟩ <;> simp
  have zeroed : Intact volume { volume with
      directoryBlock := splice volume.directoryBlock 0 (layout.length object) zeroBytes } :=
    ⟨rfl, rfl, rfl, rfl, rfl, rfl⟩
  obtain ⟨emptied, wrote, sameBlock, others, stored⟩ :=
    (zeroed.fits fits).emptyObject isObject valid empty empties volume.directoryBlock
  rw [zeroed.view] at stored
  have scratch' : ∀ i < layout.blockSize,
      emptied.block i = layout.store emptied.image region i := by
    intro i inside
    rw [sameBlock, others region apart]
    exact scratch i inside
  obtain ⟨agree, beyond⟩ := change_bit
    (fun bytes => UInt8.ofNat ((bytes (bit / 8)).toNat &&& (255 - 2 ^ (bit % 8))))
    (fun same => by rw [same]) limit scratch'
    (fun _ outside => store_outside _ (by rw [length]; exact outside))
  change ∀ i < layout.blockSize, clearBit emptied.block bit i = clearBit _ _ i at agree
  refine ⟨emptied, ?_⟩
  generalize clearBit emptied.block bit = buffer at agree ⊢
  have buffered := (Intact.scratch emptied buffer).turns stored.fits
  have unmarks' := unmarks (layout.store emptied.image)
  rw [show layout.disk _ = _ from stored.view] at unmarks'
  obtain ⟨written, wrote', renews⟩ := buffered.fits.renewBit bound isBitmap unmarks' agree beyond
  refine ⟨written, wrote, wrote', fun freeBlocks freeInodes descriptor => ?_⟩
  obtain ⟨after, counts, renewed⟩ := renews freeBlocks freeInodes descriptor
  exact ⟨after, counts, (zeroed.turns fits).trans (stored.trans (buffered.trans renewed))⟩

end Objects

theorem takeBlock (hasBit : layout.HasBit block) (isData : layout.IsData block)
    (scratch : ∀ i < layout.blockSize, volume.block i =
      layout.store volume.image (.blockBitmap (layout.blockGroup block)) i) :
    ∃ after, Ext4.takeBlock (layout.blockGroup block)
        (layout.descriptor (layout.store volume.image) (layout.blockGroup block))
        (layout.blockBit block) volume = .ok block after ∧
      layout.Turns (((layout.view volume).mark block).setBlock block zeroBytes) volume after := by
  have bound := blockGroup_lt hasBit
  have limit : layout.blockBit block < 8 * layout.blockSize :=
    Nat.lt_of_lt_of_le blockBit_lt layout.sane.blocks
  have validBlock : layout.Valid (.block block) := isData
  obtain ⟨written, wrote, renews⟩ := fits.take bound (.inl rfl) (.inr ⟨block, rfl⟩) validBlock
    limit scratch (Disk.setBlock · block zeroBytes) (disk_mark _ hasBit)
    (fun _ => disk_block _ _ _)
  have place := (fits.descriptor_places bound).1
  have number := layout.block_eq hasBit.1
  rw [start, Region.start, ← place, ← fits.geometry] at wrote
  rw [← fits.geometry] at number
  -- The kernel must not compute with the count itself.
  obtain ⟨fewer, fewer_eq⟩ : ∃ fewer, fewer = wrapSub 64 written.freeBlocks 1 := ⟨_, rfl⟩
  generalize layout.descriptor _ _ = descriptor at wrote ⊢
  obtain ⟨counted, after, counts, zeroed, turns⟩ := renews fewer written.freeInodes
    { descriptor with freeBlocks := descriptor.freeBlocks - 1 }
  rw [start, Region.start, length, Region.length, ← fits.geometry] at zeroed
  refine ⟨after, ?_, turns⟩
  simp only [Ext4.takeBlock, get_bind, modify_bind]
  refine (bind_of_ok wrote).trans ?_
  rw [modify_bind, ← fewer_eq]
  refine (bind_of_ok counts).trans ?_
  simp only [get_bind, modify_bind, ← number]
  exact bind_of_ok zeroed

theorem takeInode (hasInode : layout.HasInode inode)
    (scratch : ∀ i < layout.blockSize, volume.block i =
      layout.store volume.image (.inodeBitmap (layout.inodeGroup inode)) i) :
    ∃ after, Ext4.takeInode (layout.inodeGroup inode)
        (layout.descriptor (layout.store volume.image) (layout.inodeGroup inode))
        (layout.inodeBit inode) volume = .ok () after ∧
      layout.Turns (((layout.view volume).markInode inode).setInode inode zeroBytes)
        volume after := by
  have bound := inodeGroup_lt hasInode
  have limit : layout.inodeBit inode < 8 * layout.blockSize :=
    Nat.lt_of_lt_of_le inodeBit_lt layout.sane.inodes
  have validInode : layout.Valid (.inode inode) := hasInode
  obtain ⟨written, wrote, renews⟩ := fits.take bound (.inr rfl) (.inl ⟨inode, rfl⟩) validInode
    limit scratch (Disk.setInode · inode zeroBytes) (disk_markInode _ hasInode)
    (fun _ => disk_inode _ _ _)
  obtain ⟨-, bitmap, table⟩ := fits.descriptor_places bound
  rw [start, Region.start, ← bitmap, ← fits.geometry] at wrote
  obtain ⟨fewer, fewer_eq⟩ : ∃ fewer, fewer = wrapSub 32 written.freeInodes 1 := ⟨_, rfl⟩
  generalize layout.descriptor _ _ = descriptor at table wrote ⊢
  obtain ⟨counted, after, counts, zeroed, turns⟩ := renews written.freeBlocks fewer
    { descriptor with freeInodes := descriptor.freeInodes - 1 }
  rw [← wrap_start validInode, ← table, length, Region.length, ← fits.geometry] at zeroed
  refine ⟨after, ?_, turns⟩
  simp only [Ext4.takeInode, get_bind, modify_bind]
  refine (bind_of_ok wrote).trans ?_
  rw [modify_bind, ← fewer_eq]
  refine (bind_of_ok counts).trans ?_
  simp only [get_bind, modify_bind]
  exact zeroed

variable (bound : group < layout.groupCount)
include bound

theorem loadBlockBitmap :
    ∃ scratch, Ext4.loadBlock (layout.descriptor (layout.store volume.image)
        group).blockBitmap volume = .ok () { volume with block := scratch } ∧
      ∀ i < layout.blockSize,
        scratch i = layout.store volume.image (.blockBitmap group) i := by
  rw [(fits.descriptor_places bound).1]
  exact fits.loadBlock (show layout.Valid (.blockBitmap group) from bound) rfl rfl
    (layout.placed bound).1

theorem loadInodeBitmap :
    ∃ scratch, Ext4.loadBlock (layout.descriptor (layout.store volume.image)
        group).inodeBitmap volume = .ok () { volume with block := scratch } ∧
      ∀ i < layout.blockSize,
        scratch i = layout.store volume.image (.inodeBitmap group) i := by
  rw [(fits.descriptor_places bound).2.1]
  exact fits.loadBlock (show layout.Valid (.inodeBitmap group) from bound) rfl rfl
    (layout.placed bound).2.1

end
end Layout.Fits

/-! ## The searches -/

section Searches
variable {layout : Layout} {volume loaded after : Volume} {block inode group bit : Nat}

/-- The group that `allocateBlock` takes a block of. -/
def Layout.Supplies (layout : Layout) (volume : Volume) (group : Nat) : Prop :=
  group < layout.groupCount ∧
    (layout.descriptor (layout.store volume.image) group).freeBlocks ≠ 0 ∧
    ∀ earlier < group,
      (layout.descriptor (layout.store volume.image) earlier).freeBlocks = 0

namespace Layout.Fits
section
variable (fits : layout.Fits volume)
include fits

section
variable (safe : ∀ block, layout.HasBit block →
  layout.Supplies volume (layout.blockGroup block) → (layout.view volume).used block = false →
    layout.IsData block)
include safe

theorem allocateBlockFrom {rest : Nat} (whole : group + rest = layout.groupCount)
    (exhausted : ∀ earlier < group,
      (layout.descriptor (layout.store volume.image) earlier).freeBlocks = 0) :
    Refuses (Ext4.allocateBlockFrom group rest) volume ∨
      ∃ block after, Ext4.allocateBlockFrom group rest volume = .ok block after ∧
        layout.Supplies volume (layout.blockGroup block) ∧
        layout.TakesBlock block volume after := by
  induction rest generalizing group with
  | zero => exact .inl ⟨_, _, rfl, refl volume⟩
  | succ rest ih =>
    have bound : group < layout.groupCount := by omega
    simp only [Refuses, Ext4.allocateBlockFrom, get_bind]
    rw [bind_of_ok (fits.readGroupDescriptor bound)]
    simp only [ite_apply_state]
    split
    next empty =>
      refine ih (by omega) fun earlier before => ?_
      rcases Nat.lt_succ_iff_lt_or_eq.mp before with smaller | rfl
      · exact exhausted earlier smaller
      · exact empty
    rename_i stocked
    have supplies : layout.Supplies volume group := ⟨bound, stocked, exhausted⟩
    obtain ⟨scratch, load, same⟩ := fits.loadBlockBitmap bound
    rw [bind_of_ok load]
    simp only [get_bind]
    have intact : Intact volume { volume with block := scratch } := .scratch ..
    generalize search : findBit _ 0 _ = found
    cases found with
    | none => exact .inl ⟨_, _, rfl, intact⟩
    | some bit =>
      obtain ⟨-, inside, clear⟩ := findBit_eq_some search
      rw [Nat.zero_add, fits.geometry] at inside
      obtain ⟨block, block_eq⟩ : ∃ block, block = layout.firstDataBlock +
        group * layout.blocksPerGroup + bit := ⟨_, rfl⟩
      have place := layout.hasBit_of_bit inside
      rw [← block_eq] at place
      obtain ⟨hasBit, rfl, rfl⟩ := place
      have free : (layout.view volume).used block = false := by
        have limit := Nat.lt_of_lt_of_le (@blockBit_lt layout block) layout.sane.blocks
        rw [Bool.not_eq_true', bitAt_congr limit same] at clear
        simp only [Layout.view, Layout.disk, clear, Bool.and_false]
      obtain ⟨after, taken, turns⟩ := (intact.fits fits).takeBlock hasBit
        (safe block hasBit supplies free) same
      rw [intact.view] at turns
      exact .inr ⟨block, after, taken, supplies, hasBit, free, (intact.turns fits).trans turns⟩

theorem allocateBlock :
    Refuses Ext4.allocateBlock volume ∨
      ∃ block after, Ext4.allocateBlock volume = .ok block after ∧
        layout.Supplies volume (layout.blockGroup block) ∧
        layout.TakesBlock block volume after := by
  simp only [Refuses, Ext4.allocateBlock, get_bind, ite_apply_state, fits.geometry]
  split
  · exact fits.allocateBlockFrom safe (Nat.zero_add _) fun _ impossible =>
      absurd impossible (by omega)
  · exact .inl ⟨_, _, rfl, refl volume⟩

end

theorem allocateInodeFrom {rest : Nat} (whole : group + rest = layout.groupCount) :
    Refuses (Ext4.allocateInodeFrom group rest) volume ∨
      ∃ inode after, Ext4.allocateInodeFrom group rest volume = .ok inode after ∧
        layout.firstInode ≤ inode ∧ layout.TakesInode inode volume after := by
  induction rest generalizing group with
  | zero => exact .inl ⟨_, _, rfl, refl volume⟩
  | succ rest ih =>
    have bound : group < layout.groupCount := by omega
    simp only [Refuses, Ext4.allocateInodeFrom, get_bind]
    rw [bind_of_ok (fits.readGroupDescriptor bound)]
    simp only [ite_apply_state]
    split
    · exact ih (by omega)
    obtain ⟨scratch, load, same⟩ := fits.loadInodeBitmap bound
    rw [bind_of_ok load]
    simp only [get_bind]
    have intact : Intact volume { volume with block := scratch } := .scratch ..
    generalize search : findBit _ 0 _ = found
    cases found with
    | none => exact .inl ⟨_, _, rfl, intact⟩
    | some bit =>
      obtain ⟨-, inside, clear⟩ := findBit_eq_some search
      rw [Nat.zero_add, fits.geometry] at inside
      obtain ⟨hasInode, sameGroup, sameBit⟩ :=
        layout.hasInode_of_bit bound (Nat.lt_of_lt_of_le inside (Nat.min_le_left _ _))
      obtain ⟨inode, inode_eq⟩ : ∃ inode, inode = group * layout.inodesPerGroup + 1 +
        bit := ⟨_, rfl⟩
      rw [← inode_eq] at hasInode sameGroup sameBit
      have number : wrap 32 (wrap 32 (group * volume.geometry.inodesPerGroup + 1) + bit) =
          inode := by
        have limit := layout.sound.inodeLimit
        have most := hasInode.2
        rw [fits.geometry, @wrap_of_lt 32 (group * _ + 1) (by omega), ← inode_eq,
          wrap_of_lt (by omega)]
      rw [number, fits.geometry, Bool.and_eq_true, decide_eq_true_eq] at clear
      obtain ⟨rfl, rfl⟩ : layout.inodeGroup inode = group ∧ layout.inodeBit inode = bit :=
        ⟨sameGroup, sameBit⟩
      have free : (layout.view volume).inodeUsed inode = false := by
        have limit := Nat.lt_of_lt_of_le (@inodeBit_lt layout inode) layout.sane.inodes
        rw [Bool.not_eq_true', bitAt_congr limit same] at clear
        simp only [Layout.view, Layout.disk, clear, Bool.and_false]
      obtain ⟨after, taken, turns⟩ := (intact.fits fits).takeInode hasInode same
      rw [intact.view] at turns
      refine .inr ⟨inode, after, (bind_of_ok taken).trans ?_, clear.1, free,
        (intact.turns fits).trans turns⟩
      rw [number]
      rfl

theorem allocateInode :
    Refuses Ext4.allocateInode volume ∨
      ∃ inode after, Ext4.allocateInode volume = .ok inode after ∧
        layout.firstInode ≤ inode ∧ layout.TakesInode inode volume after := by
  simp only [Refuses, Ext4.allocateInode, get_bind, ite_apply_state, fits.geometry]
  split
  · exact fits.allocateInodeFrom (Nat.zero_add _)
  · exact .inl ⟨_, _, rfl, refl volume⟩

theorem hasBit_of_accepted (taken : ¬ (volume.writableFormat = false ∨
      volume.geometry.validPhysicalBlock block = false ∨
      block < volume.geometry.firstDataBlock)) : layout.HasBit block := by
  rw [fits.geometry, Geometry.validPhysicalBlock] at taken
  simp only [not_or, Bool.not_eq_false, Bool.and_eq_true, decide_eq_true_eq] at taken
  exact ⟨by omega, taken.2.1.2⟩

theorem releaseBlock (isData : layout.HasBit block → layout.IsData block) :
    Refuses (Ext4.releaseBlock block) volume ∨
      ∃ after, Ext4.releaseBlock block volume = .ok () after ∧
        layout.Turns (((layout.view volume).setBlock block zeroBytes).unmark block) volume after := by
  simp only [Refuses, Ext4.releaseBlock, get_bind, ite_apply_state]
  split
  · exact .inl ⟨_, _, rfl, refl volume⟩
  rename_i taken
  have hasBit := fits.hasBit_of_accepted taken
  have bound := blockGroup_lt hasBit
  have group_eq : wrap 32 ((block - volume.geometry.firstDataBlock) /
      volume.geometry.blocksPerGroup) = layout.blockGroup block := by
    have limit := layout.sound.groupLimit
    rw [fits.geometry]
    exact wrap_of_lt (by rw [← blockGroup]; omega)
  have bit_eq : (block - volume.geometry.firstDataBlock) % volume.geometry.blocksPerGroup =
      layout.blockBit block := by rw [fits.geometry, blockBit]
  rw [group_eq, bit_eq, bind_of_ok (fits.readGroupDescriptor bound)]
  simp only [ite_apply_state]
  split
  · exact .inl ⟨_, _, rfl, refl volume⟩
  obtain ⟨scratch, load, same⟩ := fits.loadBlockBitmap bound
  rw [bind_of_ok load]
  simp only [get_bind, ite_apply_state]
  have intact : Intact volume { volume with block := scratch } := .scratch ..
  split
  · exact .inl ⟨_, _, rfl, intact⟩
  have place := (fits.descriptor_places bound).1
  obtain ⟨emptied, written, wrote, wrote', renews⟩ := (intact.fits fits).give bound (.inl rfl)
    (.inr ⟨block, rfl⟩) (isData hasBit)
    (Nat.lt_of_lt_of_le (@blockBit_lt layout block) layout.sane.blocks) same
    (Disk.setBlock · block zeroBytes) (Disk.unmark · block) (fun _ => disk_block _ _ _)
    (fun _ => disk_unmark _ hasBit)
  rw [start, Region.start, length, Region.length, ← fits.geometry] at wrote
  rw [start, Region.start, ← place, ← fits.geometry] at wrote'
  obtain ⟨more, more_eq⟩ : ∃ more, more = wrap 64 (written.freeBlocks + 1) := ⟨_, rfl⟩
  generalize layout.descriptor _ _ = descriptor at wrote' ⊢
  obtain ⟨after, counts, turns⟩ := renews more written.freeInodes
    { descriptor with freeBlocks := wrap 32 (descriptor.freeBlocks + 1) }
  rw [intact.view] at turns
  refine .inr ⟨after, ?_, (intact.turns fits).trans turns⟩
  simp only [modify_bind, get_bind]
  refine (bind_of_ok wrote).trans ?_
  simp only [modify_bind, get_bind]
  refine (bind_of_ok wrote').trans ?_
  rw [modify_bind, ← more_eq]
  exact counts

theorem releaseInode :
    Refuses (Ext4.releaseInode inode) volume ∨
      ∃ after, Ext4.releaseInode inode volume = .ok () after ∧
        layout.Turns (((layout.view volume).setInode inode zeroBytes).unmarkInode inode)
          volume after := by
  simp only [Refuses, Ext4.releaseInode, get_bind, ite_apply_state]
  split
  · exact .inl ⟨_, _, rfl, refl volume⟩
  rename_i taken
  have limitInodes := layout.sound.inodeLimit
  have most : inode ≤ layout.inodeCount := by
    rw [fits.geometry] at taken
    omega
  by_cases pos : 0 < inode
  case neg =>
    -- The number before zero belongs to no group.
    have zero : wrapSub 32 inode 1 = 0xffffffff := by
      rw [Nat.eq_zero_of_not_pos pos]
      simp [wrapSub]
    have beyond : volume.geometry.groupCount ≤
        wrapSub 32 inode 1 / volume.geometry.inodesPerGroup := by
      have count := layout.sane.inodeCount
      rw [zero, fits.geometry, Nat.le_div_iff_mul_le layout.sound.inodesPerGroup]
      omega
    refine .inl ⟨.outOfBounds, volume, bind_of_error ?_, refl volume⟩
    simp only [Ext4.readGroupDescriptor, get_bind, ite_apply_state, if_pos beyond]
    rfl
  have hasInode : layout.HasInode inode := ⟨pos, most⟩
  have bound := inodeGroup_lt hasInode
  have position_eq : wrapSub 32 inode 1 = inode - 1 := wrapSub_of_le pos (by omega)
  have group_eq : (inode - 1) / volume.geometry.inodesPerGroup = layout.inodeGroup inode := by
    rw [fits.geometry, inodeGroup]
  have bit_eq : (inode - 1) % volume.geometry.inodesPerGroup = layout.inodeBit inode := by
    rw [fits.geometry, inodeBit]
  rw [position_eq, group_eq, bit_eq, bind_of_ok (fits.readGroupDescriptor bound)]
  obtain ⟨-, bitmap, table⟩ := fits.descriptor_places bound
  obtain ⟨scratch, load, same⟩ := fits.loadInodeBitmap bound
  rw [bind_of_ok load]
  simp only [get_bind, ite_apply_state]
  have intact : Intact volume { volume with block := scratch } := .scratch ..
  split
  · exact .inl ⟨_, _, rfl, intact⟩
  have validInode : layout.Valid (.inode inode) := hasInode
  obtain ⟨emptied, written, wrote, wrote', renews⟩ := (intact.fits fits).give bound (.inr rfl)
    (.inl ⟨inode, rfl⟩) validInode
    (Nat.lt_of_lt_of_le (@inodeBit_lt layout inode) layout.sane.inodes) same
    (Disk.setInode · inode zeroBytes) (Disk.unmarkInode · inode) (fun _ => disk_inode _ _ _)
    (fun _ => disk_unmarkInode _ hasInode)
  rw [← wrap_start validInode, ← table, length, Region.length, ← fits.geometry] at wrote
  rw [start, Region.start, ← bitmap, ← fits.geometry] at wrote'
  obtain ⟨more, more_eq⟩ : ∃ more, more = wrap 32 (written.freeInodes + 1) := ⟨_, rfl⟩
  generalize layout.descriptor _ _ = descriptor at table wrote wrote' ⊢
  obtain ⟨after, counts, turns⟩ := renews written.freeBlocks more
    { descriptor with freeInodes := wrap 32 (descriptor.freeInodes + 1) }
  rw [intact.view] at turns
  refine .inr ⟨after, ?_, (intact.turns fits).trans turns⟩
  simp only [modify_bind, get_bind]
  refine (bind_of_ok wrote).trans ?_
  simp only [modify_bind, get_bind]
  refine (bind_of_ok wrote').trans ?_
  rw [modify_bind, ← more_eq]
  exact counts

end
end Layout.Fits
end Searches
end Mikos.Ext4
