import Mikos.Ext4.AllocationRuns
import Mikos.Ext4.Content

/-!
# Trees whose extents are in their inodes

The extents of a file that has at most four are in its inode, and mapping them reads no
block.  That a tree of such files lies in an image can be computed.
-/

namespace Mikos.Ext4
open Library Fs

/-- The extents of a file are in its inode. -/
def Node.Inline (node : Node) : Prop :=
  hasFlag node.flags inodeInlineData = false ∧ hasFlag node.flags inodeExtents = true ∧
    littleU16 node.blockData 6 = 0
deriving Decidable

theorem mapOn_inline (isInline : node.Inline) (geometry : Geometry) (left right : Nat → Bytes)
    (logical : Nat) : mapOn geometry left node logical = mapOn geometry right node logical := by
  obtain ⟨notData, extents, depth⟩ := isInline
  simp only [mapOn, mapBlockWith, notData, extents, mapExtents, depth, mapExtentsAt, if_true]

def Layout.nodeOn (layout : Layout) (image : Bytes) (inode : Nat) : Node :=
  let start := layout.start (.inode inode)
  parseInode (splice zeroBytes 0 128 fun position => image (start + position)) inode start

theorem Layout.nodeAt_eq {layout : Layout} (hasInode : layout.HasInode inode) (image : Bytes) :
    layout.nodeAt image inode = layout.nodeOn image inode := by
  have valid : layout.Valid (.inode inode) := hasInode
  have same : splice zeroBytes 0 128 (layout.store image (.inode inode)) =
      splice zeroBytes 0 128 fun i => image (layout.start (.inode inode) + i) := by
    funext i
    rw [splice, splice]
    by_cases inside : 0 ≤ i ∧ i < 0 + 128
    · have large : 128 ≤ layout.length (.inode inode) := layout.sound.inodeSize.1
      rw [if_pos inside, if_pos inside, layout.store_apply image valid (by omega)]
    · rw [if_neg inside, if_neg inside]
  rw [Layout.nodeAt, same]
  rfl

instance (slot : Slot) : Decidable slot.Sound :=
  decidable_of_iff (8 + slot.name.length ≤ slot.recordSize ∧ slot.recordSize % 4 = 0 ∧
    slot.name.length ≤ 255)
    ⟨fun ⟨room, aligned, short⟩ => ⟨room, aligned, short⟩,
      fun ⟨room, aligned, short⟩ => ⟨room, aligned, short⟩⟩

instance decidableChain (geometry : Geometry) (bytes : Bytes) (stop : Nat) :
    (offset : Nat) → (slots : List Slot) → Decidable (Chain geometry bytes stop offset slots)
  | offset, [] => inferInstanceAs (Decidable (offset = stop))
  | offset, slot :: rest =>
    have := decidableChain geometry bytes stop (offset + slot.recordSize) rest
    inferInstanceAs (Decidable (slotAt geometry bytes offset = slot ∧ slot.Sound ∧
      Chain geometry bytes stop (offset + slot.recordSize) rest))

/-- The blocks that meet no structure, by the list of the structures. -/
theorem Layout.isData_of_structures {layout : Layout}
    (physical : layout.validPhysicalBlock block = true) (apart : ∀ region ∈ layout.structures,
      Apart (block * layout.blockSize) layout.blockSize
        (layout.start region) (layout.length region)) : layout.IsData block :=
  ⟨physical, fun metadata => apart _ (Geometry.mem_structures metadata)⟩

section Trees
variable {layout : Layout} {forest : Forest} {image : Bytes}

theorem Forest.Holds.of_inline (root : rootInode ∈ forest.directories)
    (directory : ∀ directory ∈ forest.directories, layout.HasInode directory ∧
      (layout.nodeOn image directory).Inline ∧ (layout.nodeOn image directory).Readable ∧
      (layout.nodeOn image directory).type = .directory ∧
      (layout.nodeOn image directory).size = (forest.leaves directory).length * layout.blockSize ∧
      (forest.leaves directory).length < 2 ^ 32 ∧ (forest.leaves directory).Nodup)
    (mapped : ∀ directory ∈ forest.directories,
      ∀ (i : Nat) (inside : i < (forest.leaves directory).length),
        mapOn layout.toGeometry (fun _ => zeroBytes) (layout.nodeOn image directory) i =
          .ok ⟨(forest.leaves directory)[i], false⟩)
    (apart : ∀ directory ∈ forest.directories, ∀ other ∈ forest.directories, directory ≠ other →
      ∀ block ∈ forest.leaves directory, block ∉ forest.leaves other)
    (blocks : ∀ directory ∈ forest.directories, ∀ block ∈ forest.leaves directory,
      layout.validPhysicalBlock block = true ∧
      (∀ region ∈ layout.structures,
        Apart (block * layout.blockSize) layout.blockSize
          (layout.start region) (layout.length region)) ∧
      Chain layout.toGeometry (window layout.toGeometry image block) layout.blockSize 0
        (forest.slots block))
    (entries : ∀ directory ∈ forest.directories, ∀ block ∈ forest.leaves directory,
      ∀ link ∈ links (forest.slots block), layout.HasInode link.inode ∧
        ((layout.nodeOn image link.inode).type = .directory → link.inode ∈ forest.directories))
    (names : ∀ directory ∈ forest.directories,
      ((forest.listing directory).map fun entry => entry.2.name).Nodup) :
    forest.Holds layout image := by
  have node : ∀ other ∈ forest.directories, layout.nodeAt image other = layout.nodeOn image other :=
    fun other isDirectory => Layout.nodeAt_eq (directory other isDirectory).1 image
  refine
    { root
      directory := fun other isDirectory => ?_
      size := fun other isDirectory => ?_
      mapped := fun other isDirectory blocks _ i inside => ?_
      data := ?_
      distinct := fun other isDirectory => (directory other isDirectory).2.2.2.2.2.2
      apart := fun other isDirectory another isAnother different block left right =>
        apart other isDirectory another isAnother different block left right
      chain := ?_
      closed := ?_
      names }
  · obtain ⟨hasInode, isInline, readable, isType, -⟩ := directory other isDirectory
    rw [node other isDirectory]
    exact ⟨hasInode, readable, isType, isInline.1⟩
  · obtain ⟨-, -, -, -, size, few, -⟩ := directory other isDirectory
    rw [node other isDirectory]
    exact ⟨size, few⟩
  · rw [node other isDirectory, mapOn_inline (directory other isDirectory).2.1 _ _ fun _ => zeroBytes]
    exact mapped other isDirectory i inside
  · rintro block ⟨owner, isDirectory, leaf⟩
    obtain ⟨physical, structures, -⟩ := blocks owner isDirectory block leaf
    exact Layout.isData_of_structures physical structures
  · rintro block ⟨owner, isDirectory, leaf⟩
    exact (blocks owner isDirectory block leaf).2.2
  · rintro block ⟨owner, isDirectory, leaf⟩ link mem isType
    obtain ⟨hasInode, closed⟩ := entries owner isDirectory block leaf link mem
    rw [Layout.nodeAt_eq hasInode] at isType
    exact closed isType

theorem Forest.Readable.of_inline (entries : ∀ directory ∈ forest.directories,
      ∀ entry ∈ forest.listing directory, layout.HasInode entry.2.inode ∧
        (layout.nodeOn image entry.2.inode).Readable) : forest.Readable layout image := by
  intro directory isDirectory entry listed
  obtain ⟨hasInode, readable⟩ := entries directory isDirectory entry listed
  rw [← Layout.nodeAt_eq hasInode] at readable
  exact ⟨hasInode, readable⟩

theorem Layout.Linear.of_inline {node : Node} {leaves : List Nat} {slots : Nat → List Slot}
    (isInline : node.Inline) (type : node.type = .directory)
    (size : node.size = leaves.length * layout.blockSize) (few : leaves.length < 2 ^ 32)
    (distinct : leaves.Nodup) (mapped : ∀ (i : Nat) (inside : i < leaves.length),
      mapOn layout.toGeometry (fun _ => zeroBytes) node i = .ok ⟨leaves[i], false⟩)
    (data : ∀ block ∈ leaves, layout.validPhysicalBlock block = true ∧
      ∀ region ∈ layout.structures,
        Apart (block * layout.blockSize) layout.blockSize
          (layout.start region) (layout.length region))
    (chain : ∀ block ∈ leaves, Chain layout.toGeometry (window layout.toGeometry image block)
      layout.blockSize 0 (slots block)) : layout.Linear image node leaves slots where
  type := type
  plain := isInline.1
  size := size
  few := few
  mapped blocks _ i inside := by
    rw [mapOn_inline isInline _ _ fun _ => zeroBytes]
    exact mapped i inside
  data block leaf := Layout.isData_of_structures (data block leaf).1 (data block leaf).2
  distinct := distinct
  chain := chain

theorem Forest.Leaves.of_inline {node : Node} {count : Nat} (isInline : node.Inline)
    (enough : node.size ≤ count * layout.blockSize) (outside : ∀ logical < count,
      ∀ mapping ∈ (mapOn layout.toGeometry (fun _ => zeroBytes) node logical).toOption,
        mapping.zero = false → ¬ forest.IsLeaf mapping.physical) :
    forest.Leaves layout image node where
  mapped _ _ logical _ := mapOn_inline isInline _ _ _ logical
  outside logical mapping inside mapped := by
    rw [mapOn_inline isInline _ _ fun _ => zeroBytes] at mapped
    exact outside logical (Nat.lt_of_mul_lt_mul_right (inside.trans_le enough)) mapping
      (by rw [mapped]; rfl)

end Trees

theorem Layout.fits_of_mount {layout : Layout} (mounted : mount device = .ok volume)
    (geometry : volume.geometry = layout.toGeometry) (size : device.size = layout.deviceSize)
    (places : ∀ group < layout.groupCount,
      (volume.groupDescriptor group).blockBitmap = (layout.places group).blockBitmap ∧
      (volume.groupDescriptor group).inodeBitmap = (layout.places group).inodeBitmap ∧
      (volume.groupDescriptor group).inodeTable = (layout.places group).inodeTable) :
    layout.Fits volume := by
  obtain ⟨sameDevice, isMounted, -⟩ := mount_sound mounted
  refine ⟨geometry, by rw [sameDevice, size], isMounted, fun group bound => ?_⟩
  have placed := places group bound
  rw [layout.groupDescriptor_eq geometry bound] at placed
  exact placed

end Mikos.Ext4
