import Mikos.Ext4.Directory
import Mikos.Ext4.FileReads

/-!
# What a file contains

A file whose blocks are not those of directories reads the same in two volumes that
differ in blocks of directories only.
-/

namespace Mikos.Ext4
open Library Fs

/-- The blocks of a file, and those that map them, are not blocks of directories. -/
structure Forest.Leaves (forest : Forest) (layout : Layout) (image : Bytes) (node : Node) :
    Prop where
  mapped : ∀ blocks : Nat → Bytes,
    (∀ block, ¬ forest.IsLeaf block → blocks block = window layout.toGeometry image block) →
    ∀ logical, logical * layout.blockSize < node.size →
      mapOn layout.toGeometry blocks node logical =
        mapOn layout.toGeometry (window layout.toGeometry image) node logical
  outside : ∀ logical mapping, logical * layout.blockSize < node.size →
    mapOn layout.toGeometry (window layout.toGeometry image) node logical = .ok mapping →
    mapping.zero = false → ¬ forest.IsLeaf mapping.physical

section Read
variable {layout : Layout} {forest : Forest} {before after last : Volume} {node : Node}
  (spares : forest.Spares layout before after)
  (leaves : forest.Leaves layout before.image node)

include spares leaves

theorem readBlockOf_spared (inside : logical * layout.blockSize < node.size) :
    readBlockOf layout.toGeometry (window layout.toGeometry after.image) node offset stop
        logical =
      readBlockOf layout.toGeometry (window layout.toGeometry before.image) node offset stop
        logical := by
  rw [readBlockOf, readBlockOf, leaves.mapped _ spares.windows logical inside]
  cases found : mapOn layout.toGeometry (window layout.toGeometry before.image) node logical with
  | error error => rfl
  | ok mapping =>
    cases hole : mapping.zero with
    | true =>
      change (if _ then _ else Except.ok _) = if _ then _ else Except.ok _
      simp only [hole]
      rfl
    | false =>
      change (if _ then _ else Except.ok _) = if _ then _ else Except.ok _
      rw [spares.windows _ (leaves.outside logical mapping inside found hole)]

theorem readSeparately_spared (inside : offset + size ≤ node.size) :
    readSeparately layout.toGeometry (window layout.toGeometry after.image) node offset size =
      readSeparately layout.toGeometry (window layout.toGeometry before.image) node offset
        size := by
  rw [readSeparately, readSeparately]
  split
  · rfl
  dsimp only
  rw [mapM_congr fun logical mem => ?_]
  refine readBlockOf_spared spares leaves ?_
  have upper : logical ≤ (offset + size - 1) / layout.blockSize := by
    have := List.mem_range'_1.mp mem
    omega
  have := (Nat.le_div_iff_mul_le layout.blockSize_pos).mp upper
  omega

/-- A file reads the same after blocks of directories were written, whatever name it was
found by. -/
theorem read_spared (fits : layout.Fits before) (intact : Intact after last)
    (place offset size : Nat) :
    answer (Ext4.read { node with directoryEntryOffset := place } offset size last) =
      answer (Ext4.read node offset size before) := by
  have here := @read_answers layout.toGeometry before node fits.spans offset size
  have there := @read_answers layout.toGeometry after { node with directoryEntryOffset := place }
    spares.fits.spans offset size
  rw [there.answer_eq intact, here.answer_eq (refl_of Intact before), spares.fits.mounted,
    fits.mounted]
  change separateRead layout.toGeometry (window layout.toGeometry after.image) node true offset
    size = _
  rw [separateRead, separateRead]
  by_cases none : node.size ≤ offset ∨ size = 0
  · simp only [if_pos none]
  · rw [readSeparately_spared spares leaves (by omega)]

end Read
end Mikos.Ext4
