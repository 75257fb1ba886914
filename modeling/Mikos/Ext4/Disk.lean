import Mikos.Ext4.Layout

/-!
# What a volume says

The abstract view of a volume: which blocks and inodes are marked used, the records
of the inodes and the contents of the data blocks.  Every write of the driver changes
one of these things, or only counts.
-/

namespace Mikos.Ext4
open Library Fs Function

structure Disk where
  used : Nat → Bool
  inodeUsed : Nat → Bool
  inode : Nat → Bytes
  block : Nat → Bytes

namespace Disk
variable (disk : Disk) (number : Nat) (content : Bytes)

def mark : Disk := { disk with used := update disk.used number true }

def unmark : Disk := { disk with used := update disk.used number false }

def markInode : Disk := { disk with inodeUsed := update disk.inodeUsed number true }

def unmarkInode : Disk := { disk with inodeUsed := update disk.inodeUsed number false }

def setInode : Disk := { disk with inode := update disk.inode number content }

def setBlock : Disk := { disk with block := update disk.block number content }

end Disk

namespace Layout
variable (layout : Layout)

def HasBit (block : Nat) : Prop :=
  layout.firstDataBlock ≤ block ∧ block < layout.blockCount
deriving Decidable

def HasInode (inode : Nat) : Prop := 0 < inode ∧ inode ≤ layout.inodeCount
deriving Decidable

def blockGroup (block : Nat) : Nat :=
  (block - layout.firstDataBlock) / layout.blocksPerGroup

def blockBit (block : Nat) : Nat :=
  (block - layout.firstDataBlock) % layout.blocksPerGroup

def inodeGroup (inode : Nat) : Nat := (inode - 1) / layout.inodesPerGroup

def inodeBit (inode : Nat) : Nat := (inode - 1) % layout.inodesPerGroup

def disk (store : Store) : Disk where
  used block := decide (layout.HasBit block) &&
    bitAt (store (.blockBitmap (layout.blockGroup block))) (layout.blockBit block)
  inodeUsed inode := decide (layout.HasInode inode) &&
    bitAt (store (.inodeBitmap (layout.inodeGroup inode))) (layout.inodeBit inode)
  inode number := store (.inode number)
  block number := store (.block number)

variable {layout} {block inode : Nat}

theorem blockGroup_lt (hasBit : layout.HasBit block) :
    layout.blockGroup block < layout.groupCount := by
  obtain ⟨lower, upper⟩ := hasBit
  have pos := layout.sound.blocksPerGroup
  rw [layout.sound.groupCount, blockGroup]
  refine (Nat.div_lt_iff_lt_mul pos).mpr ?_
  have round := Nat.lt_div_mul_add pos (a := layout.blockCount -
    layout.firstDataBlock + layout.blocksPerGroup - 1)
  omega

theorem blockBit_lt : layout.blockBit block < layout.blocksPerGroup :=
  Nat.mod_lt _ layout.sound.blocksPerGroup

theorem inodeGroup_lt (hasInode : layout.HasInode inode) :
    layout.inodeGroup inode < layout.groupCount := by
  obtain ⟨lower, upper⟩ := hasInode
  rw [layout.sane.inodeCount] at upper
  exact (Nat.div_lt_iff_lt_mul layout.sound.inodesPerGroup).mpr (by omega)

theorem inodeBit_lt : layout.inodeBit inode < layout.inodesPerGroup :=
  Nat.mod_lt _ layout.sound.inodesPerGroup

variable (layout) in
theorem block_eq (lower : layout.firstDataBlock ≤ block) :
    block = layout.firstDataBlock +
      layout.blockGroup block * layout.blocksPerGroup + layout.blockBit block := by
  have whole := Nat.div_add_mod' (block - layout.firstDataBlock)
    layout.blocksPerGroup
  rw [blockGroup, blockBit]
  omega

variable (layout) in
theorem inode_eq (pos : 0 < inode) :
    inode = layout.inodeGroup inode * layout.inodesPerGroup + layout.inodeBit inode + 1 := by
  have whole := Nat.div_add_mod' (inode - 1) layout.inodesPerGroup
  rw [inodeGroup, inodeBit]
  omega

theorem wrap_start (valid : layout.Valid (.inode inode)) :
    wrap 64 ((layout.places (layout.inodeGroup inode)).inodeTable * layout.blockSize +
      layout.inodeBit inode * layout.inodeSize) = layout.start (.inode inode) := by
  have inside := inside_of_valid valid
  have addressable := layout.addressable
  exact wrap_of_lt (Nat.lt_of_le_of_lt (Nat.le_trans (Nat.le_add_right _ _) inside) addressable)

section Changes
variable (store : Store) (content : Bytes)

@[simp] theorem disk_super : layout.disk (update store .super content) = layout.disk store := by
  simp [disk]

@[simp] theorem disk_descriptor (group : Nat) :
    layout.disk (update store (.descriptor group) content) = layout.disk store := by
  simp [disk]

@[simp] theorem disk_block (number : Nat) :
    layout.disk (update store (.block number) content) =
      (layout.disk store).setBlock number content := by
  simp only [disk, Disk.setBlock, Disk.mk.injEq]
  refine ⟨by simp, by simp, by simp, ?_⟩
  funext other
  by_cases same : other = number
  · simp [same]
  · simp [same]

@[simp] theorem disk_inode (number : Nat) :
    layout.disk (update store (.inode number) content) =
      (layout.disk store).setInode number content := by
  simp only [disk, Disk.setInode, Disk.mk.injEq]
  refine ⟨by simp, by simp, ?_, by simp⟩
  funext other
  by_cases same : other = number
  · simp [same]
  · simp [same]

theorem disk_blockBitmap (hasBit : layout.HasBit block)
    (bits_eq : ∀ bit, bitAt bits bit = if bit = layout.blockBit block then value else
      bitAt (store (.blockBitmap (layout.blockGroup block))) bit) :
    layout.disk (update store (.blockBitmap (layout.blockGroup block)) bits) =
      { layout.disk store with used := update (layout.disk store).used block value } := by
  simp only [disk, Disk.mk.injEq]
  refine ⟨?_, by simp, by simp, by simp⟩
  funext other
  by_cases same : other = block
  · subst same
    simp [bits_eq, hasBit]
  rw [update_of_ne same]
  by_cases outside : layout.HasBit other
  · by_cases group : layout.blockGroup other = layout.blockGroup block
    · have bit : layout.blockBit other ≠ layout.blockBit block := by
        intro bit
        apply same
        rw [layout.block_eq outside.1, layout.block_eq hasBit.1, group, bit]
      rw [group, update_self, bits_eq, if_neg bit]
    · rw [update_of_ne (by simp [group])]
  · simp [outside]

theorem disk_inodeBitmap (hasInode : layout.HasInode inode)
    (bits_eq : ∀ bit, bitAt bits bit = if bit = layout.inodeBit inode then value else
      bitAt (store (.inodeBitmap (layout.inodeGroup inode))) bit) :
    layout.disk (update store (.inodeBitmap (layout.inodeGroup inode)) bits) =
      { layout.disk store with
        inodeUsed := update (layout.disk store).inodeUsed inode value } := by
  simp only [disk, Disk.mk.injEq]
  refine ⟨by simp, ?_, by simp, by simp⟩
  funext other
  by_cases same : other = inode
  · subst same
    simp [bits_eq, hasInode]
  rw [update_of_ne same]
  by_cases outside : layout.HasInode other
  · by_cases group : layout.inodeGroup other = layout.inodeGroup inode
    · have bit : layout.inodeBit other ≠ layout.inodeBit inode := by
        intro bit
        apply same
        rw [layout.inode_eq outside.1, layout.inode_eq hasInode.1, group, bit]
      rw [group, update_self, bits_eq, if_neg bit]
    · rw [update_of_ne (by simp [group])]
  · simp [outside]

end Changes
end Layout

/-! ## Bitmaps -/

section Bits
variable {bytes : Bytes} {bit other : Nat}

theorem toNat_or_bit : (UInt8.ofNat ((bytes (bit / 8)).toNat ||| 2 ^ (bit % 8))).toNat =
    (bytes (bit / 8)).toNat ||| 2 ^ (bit % 8) := by
  rw [UInt8.toNat_ofNat', Nat.mod_eq_of_lt]
  refine Nat.or_lt_two_pow (bytes (bit / 8)).toNat_lt ?_
  exact Nat.pow_lt_pow_right (by decide) (Nat.mod_lt bit (by decide))

theorem bitAt_setBit :
    bitAt (setBit bytes bit) other = if other = bit then true else bitAt bytes other := by
  rw [bitAt, bitAt, setBit]
  by_cases same : other / 8 = bit / 8
  · rw [same, update_self, toNat_or_bit, Nat.testBit_or, Nat.testBit_two_pow]
    by_cases equal : other = bit
    · simp [equal]
    · have i : bit % 8 ≠ other % 8 := by omega
      simp [equal, i]
  · have apart : other ≠ bit := fun equal => same (by rw [equal])
    rw [update_of_ne same]
    simp [apart]

theorem testBit_mask (bound : place < 8) (inside : i < 8) :
    (255 - 2 ^ place).testBit i = (i ≠ place : Bool) := by
  have all : ∀ place < 8, ∀ i < 8,
      (255 - 2 ^ place).testBit i = (i ≠ place : Bool) := by decide
  exact all place bound i inside

theorem bitAt_clearBit :
    bitAt (clearBit bytes bit) other = if other = bit then false else bitAt bytes other := by
  rw [bitAt, bitAt, clearBit]
  by_cases same : other / 8 = bit / 8
  · rw [same, update_self, UInt8.toNat_ofNat', Nat.mod_eq_of_lt
      (lt_of_le_of_lt Nat.and_le_left (bytes (bit / 8)).toNat_lt), Nat.testBit_and,
      testBit_mask (Nat.mod_lt _ (by decide)) (Nat.mod_lt _ (by decide))]
    by_cases equal : other = bit
    · simp [equal]
    · have i : other % 8 ≠ bit % 8 := by omega
      simp [equal, i]
  · have apart : other ≠ bit := fun equal => same (by rw [equal])
    rw [update_of_ne same]
    simp [apart]

theorem findBit_eq_some (search : findBit test start count = some found) :
    start ≤ found ∧ found < start + count ∧ test found = true := by
  induction count generalizing start with
  | zero => cases search
  | succ count ih =>
    rw [findBit] at search
    split at search
    next hit =>
      cases search
      exact ⟨le_rfl, by omega, hit⟩
    · obtain ⟨lower, upper, hit⟩ := ih search
      exact ⟨by omega, by omega, hit⟩

end Bits

namespace Layout
variable {layout : Layout} (store : Store) {block inode : Nat}

theorem disk_mark (hasBit : layout.HasBit block) :
    layout.disk (update store (.blockBitmap (layout.blockGroup block))
      (setBit (store (.blockBitmap (layout.blockGroup block))) (layout.blockBit block))) =
        (layout.disk store).mark block :=
  disk_blockBitmap store hasBit fun _ => bitAt_setBit

theorem disk_unmark (hasBit : layout.HasBit block) :
    layout.disk (update store (.blockBitmap (layout.blockGroup block))
      (clearBit (store (.blockBitmap (layout.blockGroup block))) (layout.blockBit block))) =
        (layout.disk store).unmark block :=
  disk_blockBitmap store hasBit fun _ => bitAt_clearBit

theorem disk_markInode (hasInode : layout.HasInode inode) :
    layout.disk (update store (.inodeBitmap (layout.inodeGroup inode))
      (setBit (store (.inodeBitmap (layout.inodeGroup inode))) (layout.inodeBit inode))) =
        (layout.disk store).markInode inode :=
  disk_inodeBitmap store hasInode fun _ => bitAt_setBit

theorem disk_unmarkInode (hasInode : layout.HasInode inode) :
    layout.disk (update store (.inodeBitmap (layout.inodeGroup inode))
      (clearBit (store (.inodeBitmap (layout.inodeGroup inode))) (layout.inodeBit inode))) =
        (layout.disk store).unmarkInode inode :=
  disk_inodeBitmap store hasInode fun _ => bitAt_clearBit

end Layout
end Mikos.Ext4
