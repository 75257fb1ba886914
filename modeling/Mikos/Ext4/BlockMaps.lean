import Mikos.Ext4.Mapping

/-!
# What the blocks of an inode say

An extent tree denotes the extents of its leaves, and a tree of block pointers the pointers
of its lowest tables, in their order.  On well-formed trees `mapBlock` finds what the tree
denotes.
-/

namespace Mikos.Ext4
open Library Fs List

/-! ## Extent trees -/

namespace Extent

/-- Longer extents are reserved, but not written. -/
def initialized (extent : Extent) : Bool := extent.rawLength ≤ 32768

def length (extent : Extent) : Nat :=
  if extent.initialized then extent.rawLength else extent.rawLength - 32768

/-- The block after the last one. -/
def stop (extent : Extent) : Nat := extent.first + extent.length

def covers (extent : Extent) (logical : Nat) : Bool :=
  extent.first ≤ logical && logical < extent.stop

def mapping (extent : Extent) (logical : Nat) : BlockMapping :=
  if extent.initialized then ⟨extent.physical + (logical - extent.first), false⟩ else {}

/-- An extent of the blocks from `lower` on and before `upper`. -/
structure Within (geometry : Geometry) (lower upper : Nat) (extent : Extent) : Prop where
  used : 0 < extent.rawLength
  lower : lower ≤ extent.first
  upper : extent.stop ≤ upper
  valid : extent.initialized = true → ∀ position < extent.length,
    geometry.validPhysicalBlock (extent.physical + position) = true

end Extent

/-- Where extents put a block; what none of them covers is a hole. -/
def placeIn (extents : List Extent) (logical : Nat) : BlockMapping :=
  match extents.find? (·.covers logical) with
  | some extent => extent.mapping logical
  | none => {}

/-- The first block of an entry that leads to a child, and the child. -/
def indexFirst (extentNode : Bytes) (index : Nat) : Nat := littleU32 extentNode (12 + index * 12)

def indexChild (extentNode : Bytes) (index : Nat) : Nat :=
  littleU32 extentNode (12 + index * 12 + 4) +
    0x100000000 * littleU16 extentNode (12 + index * 12 + 8)

def entryCount (extentNode : Bytes) : Nat := littleU16 extentNode 2

def treeExtents (blocks : Nat → Bytes) : (depth : Nat) → Bytes → List Extent
  | 0, extentNode => (range (entryCount extentNode)).map (extentAt extentNode)
  | depth + 1, extentNode => (range (entryCount extentNode)).flatMap fun index =>
    treeExtents blocks depth (blocks (indexChild extentNode index))

structure HasHeader (extentNode : Bytes) (depth capacity : Nat) : Prop where
  room : 12 ≤ capacity
  magic : littleU16 extentNode 0 = extentMagic
  entries : entryCount extentNode ≤ littleU16 extentNode 4
  maximum : littleU16 extentNode 4 ≤ (capacity - 12) / 12
  depth : littleU16 extentNode 6 = depth

/-- Where the blocks of a child end. -/
def indexStop (extentNode : Bytes) (upper index : Nat) : Nat :=
  if index + 1 < entryCount extentNode then indexFirst extentNode (index + 1) else upper

/-- A well-formed tree for the blocks from `lower` on and before `upper`: its entries are
sorted and do not overlap. -/
def ExtentTree (geometry : Geometry) (blocks : Nat → Bytes) :
    (depth capacity lower upper : Nat) → Bytes → Prop
  | 0, capacity, lower, upper, extentNode =>
    HasHeader extentNode 0 capacity ∧
      (∀ index < entryCount extentNode, (extentAt extentNode index).Within geometry lower upper) ∧
      ∀ later < entryCount extentNode, ∀ index < later,
        (extentAt extentNode index).stop ≤ (extentAt extentNode later).first
  | depth + 1, capacity, lower, upper, extentNode =>
    HasHeader extentNode (depth + 1) capacity ∧
      (∀ index < entryCount extentNode,
        lower ≤ indexFirst extentNode index ∧ indexFirst extentNode index ≤ upper ∧
        geometry.validPhysicalBlock (indexChild extentNode index) = true ∧
        ExtentTree geometry blocks depth geometry.blockSize (indexFirst extentNode index)
          (indexStop extentNode upper index) (blocks (indexChild extentNode index))) ∧
      ∀ later < entryCount extentNode, ∀ index < later,
        indexFirst extentNode index < indexFirst extentNode later

section Extents
variable {geometry : Geometry} {blocks : Nat → Bytes} {extentNode : Bytes}
  {logical depth capacity lower upper : Nat}

theorem leafMapping_eq (limit : upper ≤ 0x100000000)
    (within : ∀ place < i + rest, (extentAt extentNode place).Within geometry lower upper)
    (sorted : ∀ later < i + rest, ∀ place < later,
      (extentAt extentNode place).stop ≤ (extentAt extentNode later).first)
    (previous : ∀ place, place + 1 = i → previousEnd = (extentAt extentNode place).stop) :
    leafMapping geometry extentNode logical rest i previousEnd =
      .ok (placeIn ((range' i rest).map (extentAt extentNode)) logical) := by
  induction rest generalizing i previousEnd with
  | zero => rfl
  | succ rest ih =>
    have here := within i (by omega)
    have length : (if 32768 < (extentAt extentNode i).rawLength then
        (extentAt extentNode i).rawLength - 32768 else (extentAt extentNode i).rawLength) =
        (extentAt extentNode i).length := by
      simp only [Extent.length, Extent.initialized, decide_eq_true_eq]
      split <;> split <;> omega
    have order : ¬ ((i ≠ 0 ∧ (extentAt extentNode i).first < previousEnd) ∨
        0x100000000 < (extentAt extentNode i).stop) := by
      have upper := here.upper
      rintro (⟨later, before⟩ | beyond)
      · have := sorted i (by omega) (i - 1) (by omega)
        have := previous (i - 1) (by omega)
        omega
      · omega
    rw [leafMapping]
    rw [length, ← Extent.stop, if_neg (Nat.ne_of_gt here.used), if_neg order, range'_succ,
      map_cons, placeIn, find?_cons]
    split
    next outside =>
      have uncovered : (extentAt extentNode i).covers logical = false := by
        rw [Extent.covers, Bool.and_eq_false_iff, decide_eq_false_iff_not, decide_eq_false_iff_not]
        omega
      rw [uncovered]
      refine ih (fun place bound => within place (by omega))
        (fun later bound => sorted later (by omega)) fun place same => ?_
      rw [Nat.add_right_cancel same]
    rename_i inside
    have covered : (extentAt extentNode i).covers logical = true := by
      rw [Extent.covers, Bool.and_eq_true, decide_eq_true_eq, decide_eq_true_eq]
      omega
    rw [covered]
    dsimp only
    split
    next long =>
      have uninitialized : (extentAt extentNode i).initialized = false := decide_eq_false (by omega)
      rw [Extent.mapping, uninitialized]
      rfl
    rename_i short
    have initialized : (extentAt extentNode i).initialized = true := decide_eq_true (by omega)
    have valid := here.valid initialized (logical - (extentAt extentNode i).first)
      (by rw [Extent.stop] at inside; omega)
    rw [if_pos valid, Extent.mapping, initialized]
    rfl

/-- The child for a block is the last one that does not start after it. -/
theorem selectIndex_eq {rest i previous : Nat} {selected : Option Nat}
    (sorted : ∀ later < i + rest, ∀ place < later,
      indexFirst extentNode place < indexFirst extentNode later)
    (before : ∀ place, place + 1 = i → previous = indexFirst extentNode place) :
    (selectIndex extentNode logical rest i previous selected = .ok selected ∧
        (0 < rest → logical < indexFirst extentNode i)) ∨
      ∃ child < i + rest, selectIndex extentNode logical rest i previous selected =
          .ok (some (indexChild extentNode child)) ∧
        indexFirst extentNode child ≤ logical ∧
        (child + 1 < i + rest → logical < indexFirst extentNode (child + 1)) := by
  induction rest generalizing i previous selected with
  | zero => exact .inl ⟨rfl, fun none => absurd none (by omega)⟩
  | succ rest ih =>
    have order : ¬ (i ≠ 0 ∧ indexFirst extentNode i ≤ previous) := by
      rintro ⟨later, equal⟩
      have := sorted i (by omega) (i - 1) (by omega)
      have := before (i - 1) (by omega)
      omega
    rw [selectIndex, ← indexFirst, ← indexChild, if_neg order]
    split
    next starts =>
      have next := @ih (i + 1) (indexFirst extentNode i)
        (some (indexChild extentNode i)) (fun later bound => sorted later (by omega))
        fun place same => by rw [Nat.add_right_cancel same]
      rcases next with ⟨ran, last⟩ | ⟨child, bound, ran, lower, upper⟩
      · exact .inr ⟨i, by omega, ran, starts, fun more => last (by omega)⟩
      · exact .inr ⟨child, by omega, ran, lower, fun more => upper (by omega)⟩
    next after => exact .inl ⟨rfl, fun _ => by omega⟩

theorem ExtentTree.bounds (tree : ExtentTree geometry blocks depth capacity lower upper extentNode) :
    ∀ extent ∈ treeExtents blocks depth extentNode, lower ≤ extent.first ∧ extent.stop ≤ upper := by
  induction depth generalizing capacity lower upper extentNode with
  | zero =>
    intro extent mem
    obtain ⟨i, inside, rfl⟩ := mem_map.mp mem
    have within := tree.2.1 i (mem_range.mp inside)
    exact ⟨within.lower, within.upper⟩
  | succ depth ih =>
    intro extent mem
    obtain ⟨i, inside, mem⟩ := mem_flatMap.mp mem
    obtain ⟨least, most, -, child⟩ := tree.2.1 i (mem_range.mp inside)
    obtain ⟨first, last⟩ := ih child extent mem
    refine ⟨by omega, last.trans ?_⟩
    rw [indexStop]
    split
    next more => exact (tree.2.1 _ more).2.1
    · exact le_rfl

theorem placeIn_none (none : ∀ extent ∈ extents, extent.covers logical = false) :
    placeIn extents logical = {} := by
  rw [placeIn, find?_eq_none.mpr fun extent mem => by simp [none extent mem]]

theorem placeIn_flatMap {count child : Nat} (inside : child < count)
    (others : ∀ i < count, i ≠ child → ∀ extent ∈ parts i, extent.covers logical = false) :
    placeIn ((range count).flatMap parts) logical = placeIn (parts child) logical := by
  induction count with
  | zero => exact absurd inside (by omega)
  | succ count ih =>
    have nothing : ∀ i < count + 1, i ≠ child →
        (parts i).find? (·.covers logical) = none := fun i bound other =>
      find?_eq_none.mpr fun extent mem => by simp [others i bound other extent mem]
    rw [placeIn, range_succ, flatMap_append, find?_append, flatMap_singleton]
    by_cases last : child = count
    · have before : ((range count).flatMap parts).find? (·.covers logical) = none := by
        rw [find?_flatMap, findSome?_eq_none_iff]
        intro i mem
        have bound := mem_range.mp mem
        exact nothing i (by omega) (by omega)
      rw [before, last]
      rfl
    · rw [nothing count (by omega) (Ne.symm last), Option.or_none]
      exact ih (by omega) fun i bound => others i (by omega)

theorem HasHeader.accepted (header : HasHeader extentNode depth capacity) :
    ¬ (capacity < 12 ∨ littleU16 extentNode 0 ≠ extentMagic ∨ littleU16 extentNode 6 ≠ depth ∨
      littleU16 extentNode 4 < littleU16 extentNode 2 ∨
      (capacity - 12) / 12 < littleU16 extentNode 4) := by
  obtain ⟨room, magic, entries, maximum, same⟩ := header
  rw [entryCount] at entries
  simp only [not_or, not_not, Nat.not_lt]
  exact ⟨room, magic, same, entries, maximum⟩

theorem mapExtentsAt_eq (limit : upper ≤ 0x100000000)
    (tree : ExtentTree geometry blocks depth capacity lower upper extentNode) :
    mapExtentsAt geometry (fetchFrom geometry blocks) logical depth capacity extentNode =
      .ok (placeIn (treeExtents blocks depth extentNode) logical) := by
  induction depth generalizing capacity lower upper extentNode with
  | zero =>
    obtain ⟨header, within, sorted⟩ := tree
    rw [mapExtentsAt, if_neg header.accepted, ofExcept_eq, ← entryCount,
      leafMapping_eq limit (by simpa using within) (by simpa using sorted) (by simp),
      treeExtents, range_eq_range']
  | succ depth ih =>
    have bounds := tree.bounds
    obtain ⟨header, children, sorted⟩ := tree
    rw [mapExtentsAt, if_neg header.accepted, ofExcept_eq, ← entryCount, treeExtents]
    rw [treeExtents] at bounds
    have parts : ∀ i < entryCount extentNode, ∀ extent ∈
        treeExtents blocks depth (blocks (indexChild extentNode i)),
        indexFirst extentNode i ≤ extent.first ∧
          extent.stop ≤ indexStop extentNode upper i := fun i inside =>
      (children i inside).2.2.2.bounds
    have select := @selectIndex_eq extentNode logical (entryCount extentNode) 0 0 none
      (by simpa using sorted) (by simp)
    rw [Nat.zero_add] at select
    rcases select with ⟨ran, early⟩ | ⟨child, inside, ran, starts, next⟩
    · rw [ran, placeIn_none]
      · rfl
      intro extent mem
      obtain ⟨i, inside, mem⟩ := mem_flatMap.mp mem
      have bound := mem_range.mp inside
      have first := (parts i bound extent mem).1
      have start : indexFirst extentNode 0 ≤ indexFirst extentNode i := by
        rcases Nat.eq_zero_or_pos i with rfl | pos
        · exact le_rfl
        · exact Nat.le_of_lt (sorted i bound 0 pos)
      have before := early (by omega)
      rw [Extent.covers, Bool.and_eq_false_iff, decide_eq_false_iff_not]
      omega
    obtain ⟨least, most, valid, subtree⟩ := children child inside
    have limit' : indexStop extentNode upper child ≤ 0x100000000 := by
      rw [indexStop]
      split
      next more => exact (children _ more).2.1.trans limit
      · exact limit
    rw [ran, placeIn_flatMap inside, ← ih limit' subtree]
    · change fetchFrom geometry blocks _ >>= _ = _
      rw [fetchFrom, if_pos valid]
      rfl
    intro i bound other extent mem
    obtain ⟨first, last⟩ := parts i bound extent mem
    rw [Extent.covers, Bool.and_eq_false_iff, decide_eq_false_iff_not, decide_eq_false_iff_not]
    rcases Nat.lt_or_gt_of_ne other with smaller | larger
    · rw [indexStop, if_pos (by omega)] at last
      have : indexFirst extentNode (i + 1) ≤ indexFirst extentNode child := by
        rcases Nat.eq_or_lt_of_le (Nat.succ_le_of_lt smaller) with same | less
        · rw [← same]
        · exact Nat.le_of_lt (sorted child inside _ less)
      omega
    have := next (by omega)
    have : indexFirst extentNode (child + 1) ≤ indexFirst extentNode i := by
      rcases Nat.eq_or_lt_of_le (Nat.succ_le_of_lt larger) with same | less
      · rw [← same]
      · exact Nat.le_of_lt (sorted i bound _ less)
    omega

end Extents

/-! ## Block pointers -/

section Pointers
variable (geometry : Geometry) (blocks : Nat → Bytes)

/-- The pointers of the lowest tables under a block, in order.  No block has no tables. -/
def pointersBelow : (level block : Nat) → List Nat
  | 0, block => [block]
  | level + 1, block =>
    if block = 0 then
      replicate ((geometry.blockSize / 4) ^ (level + 1)) 0
    else
      (range (geometry.blockSize / 4)).flatMap fun index =>
        pointersBelow level (littleU32 (blocks block) (index * 4))

/-- Every pointer is zero or leads to a block of the volume. -/
def PointerTree : (level block : Nat) → Prop
  | 0, block => block = 0 ∨ geometry.validPhysicalBlock block = true
  | level + 1, block => block = 0 ∨ geometry.validPhysicalBlock block = true ∧
    ∀ index < geometry.blockSize / 4, PointerTree level (littleU32 (blocks block) (index * 4))

/-- The pointers of an inode: twelve of its own, and those of three trees. -/
def inodePointers (node : Node) : List Nat :=
  (range 12).map (fun index => littleU32 node.blockData (index * 4)) ++
    (pointersBelow geometry blocks 1 (littleU32 node.blockData 48) ++
      (pointersBelow geometry blocks 2 (littleU32 node.blockData 52) ++
        pointersBelow geometry blocks 3 (littleU32 node.blockData 56)))

structure LegacyMap (node : Node) : Prop where
  direct : ∀ index < 12, PointerTree geometry blocks 0 (littleU32 node.blockData (index * 4))
  single : PointerTree geometry blocks 1 (littleU32 node.blockData 48)
  double : PointerTree geometry blocks 2 (littleU32 node.blockData 52)
  triple : PointerTree geometry blocks 3 (littleU32 node.blockData 56)

/-- Tables looked up one after the other, by the digits of an index. -/
def followPointers : (level block index : Nat) → Except Error Nat
  | 0, block, _ => .ok block
  | level + 1, block, index => do
    let child ← indirectPointer geometry (fetchFrom geometry blocks) block
      (index / (geometry.blockSize / 4) ^ level)
    followPointers level child (index % (geometry.blockSize / 4) ^ level)

variable {geometry blocks} {level block i : Nat}

theorem PointerTree.root (tree : PointerTree geometry blocks level block) :
    block = 0 ∨ geometry.validPhysicalBlock block = true := by
  cases level with
  | zero => exact tree
  | succ level => exact tree.imp id And.left

theorem length_flatMap_range {count size : Nat} {parts : Nat → List Nat}
    (sizes : ∀ i, (parts i).length = size) :
    ((range count).flatMap parts).length = count * size := by
  simp [length_flatMap, sizes]

theorem getElem?_flatMap_range {count size place : Nat} {parts : Nat → List Nat}
    (sizes : ∀ i, (parts i).length = size) (inside : place < count * size) :
    ((range count).flatMap parts)[place]? = (parts (place / size))[place % size]? := by
  induction count with
  | zero => exact absurd inside (by omega)
  | succ count ih =>
    rw [range_succ, flatMap_append, flatMap_singleton]
    by_cases before : place < count * size
    · rw [getElem?_append_left (by rw [length_flatMap_range sizes]; exact before), ih before]
    rw [Nat.succ_mul] at inside
    have digit : place / size = count :=
      Nat.div_eq_of_lt_le (by omega) (by rw [Nat.succ_mul]; omega)
    have rest := Nat.div_add_mod place size
    rw [digit, Nat.mul_comm] at rest
    rw [getElem?_append_right (by rw [length_flatMap_range sizes]; omega),
      length_flatMap_range sizes, digit, show place - count * size = place % size by omega]

theorem length_pointersBelow (level block : Nat) :
    (pointersBelow geometry blocks level block).length = (geometry.blockSize / 4) ^ level := by
  induction level generalizing block with
  | zero => rfl
  | succ level ih =>
    rw [pointersBelow]
    split
    · exact length_replicate
    · rw [length_flatMap_range fun i => ih _, Nat.pow_succ, Nat.mul_comm]

theorem followPointers_zero : followPointers geometry blocks level 0 i = .ok 0 := by
  induction level generalizing i with
  | zero => rfl
  | succ level ih =>
    rw [followPointers, indirectPointer, if_pos rfl]
    exact ih

/-- The digits of an index lead to the pointer at that place. -/
theorem followPointers_eq (tree : PointerTree geometry blocks level block)
    (inside : i < (geometry.blockSize / 4) ^ level) :
    ∃ value, followPointers geometry blocks level block i = .ok value ∧
      (pointersBelow geometry blocks level block)[i]? = some value := by
  induction level generalizing block i with
  | zero =>
    rw [Nat.pow_zero, Nat.lt_one_iff] at inside
    exact ⟨block, rfl, by rw [inside]; rfl⟩
  | succ level ih =>
    rw [pointersBelow]
    rcases tree with rfl | ⟨valid, children⟩
    · refine ⟨0, followPointers_zero, ?_⟩
      rw [if_pos rfl, getElem?_replicate, if_pos inside]
    have nonzero : block ≠ 0 := by
      rintro rfl
      simp [Geometry.validPhysicalBlock] at valid
    rw [Nat.pow_succ, Nat.mul_comm] at inside
    have pos : 0 < (geometry.blockSize / 4) ^ level :=
      Nat.pos_of_mul_pos_left (Nat.zero_lt_of_lt inside)
    have digit : i / (geometry.blockSize / 4) ^ level < geometry.blockSize / 4 :=
      Nat.div_lt_of_lt_mul (by rw [Nat.mul_comm]; exact inside)
    obtain ⟨value, followed, found⟩ := ih (children _ digit) (Nat.mod_lt i pos)
    refine ⟨value, ?_, ?_⟩
    · have looked : ¬ (geometry.blockSize / 4 ≤ i / (geometry.blockSize / 4) ^ level ∨
          littleU32 (blocks block) (i / (geometry.blockSize / 4) ^ level * 4) ≠ 0 ∧
            geometry.validPhysicalBlock (littleU32 (blocks block)
              (i / (geometry.blockSize / 4) ^ level * 4)) = false) := by
        rintro (beyond | ⟨used, invalid⟩)
        · omega
        · rcases (children _ digit).root with zero | valid
          · exact used zero
          · rw [valid] at invalid
            cases invalid
      rw [followPointers, indirectPointer, if_neg nonzero, fetchFrom, if_pos valid]
      change (if _ then _ else Except.ok _) >>= _ = _
      rw [if_neg looked]
      exact followed
    · rw [if_neg nonzero, getElem?_flatMap_range (fun _ => length_pointersBelow level _) inside]
      exact found

theorem mapLegacy_eq (map : LegacyMap geometry blocks node) :
    mapLegacy geometry (fetchFrom geometry blocks) node logical =
      match (inodePointers geometry blocks node)[logical]? with
      | some block => .ok (pointerMapping block)
      | none => .error .outOfBounds := by
  have firsts : ((range 12).map fun i => littleU32 node.blockData (i * 4)).length = 12 := by
    rw [length_map, length_range]
  have second := @length_pointersBelow geometry blocks 1 (littleU32 node.blockData 48)
  have third := @length_pointersBelow geometry blocks 2 (littleU32 node.blockData 52)
  have fourth := @length_pointersBelow geometry blocks 3 (littleU32 node.blockData 56)
  have square : (geometry.blockSize / 4) ^ 2 = geometry.blockSize / 4 * (geometry.blockSize / 4) :=
    Nat.pow_two _
  have cube : (geometry.blockSize / 4) ^ 3 =
      geometry.blockSize / 4 * (geometry.blockSize / 4) * (geometry.blockSize / 4) := by
    rw [Nat.pow_succ, square]
  rw [Nat.pow_one] at second
  rw [mapLegacy, inodePointers]
  dsimp only
  split
  next own =>
    rw [getElem?_append_left (by omega), getElem?_map, getElem?_range own]
    rw [if_neg]
    · rfl
    rintro ⟨used, invalid⟩
    rcases map.direct logical own with zero | valid
    · exact used zero
    · rw [valid] at invalid
      cases invalid
  rw [getElem?_append_right (by omega), firsts]
  split
  next inside =>
    obtain ⟨value, followed, found⟩ := followPointers_eq map.single
      (show logical - 12 < _ by rw [Nat.pow_one]; exact inside)
    rw [getElem?_append_left (by omega), found]
    simp only [followPointers, Nat.pow_zero, Nat.div_one] at followed
    obtain ⟨pointer, looked, same⟩ := ok_of_bind followed
    cases same
    rw [looked]
    rfl
  rw [getElem?_append_right (by omega), second]
  split
  next inside =>
    obtain ⟨value, followed, found⟩ := followPointers_eq map.double
      (show logical - 12 - geometry.blockSize / 4 < _ by rw [square]; exact inside)
    rw [getElem?_append_left (by omega), found]
    simp only [followPointers, Nat.pow_zero, Nat.pow_one, Nat.div_one] at followed
    obtain ⟨single, looked, followed⟩ := ok_of_bind followed
    obtain ⟨pointer, looked', same⟩ := ok_of_bind followed
    cases same
    rw [looked, ok_bind, looked']
    rfl
  rw [getElem?_append_right (by omega), third, square]
  split
  next beyond =>
    rw [getElem?_eq_none (by omega)]
    rfl
  rename_i inside
  obtain ⟨value, followed, found⟩ := followPointers_eq map.triple
    (show logical - 12 - geometry.blockSize / 4 -
      geometry.blockSize / 4 * (geometry.blockSize / 4) < _ by rw [cube]; omega)
  rw [found]
  simp only [followPointers, Nat.pow_zero, Nat.pow_one, Nat.div_one, square] at followed
  obtain ⟨double, looked, followed⟩ := ok_of_bind followed
  obtain ⟨single, looked', followed⟩ := ok_of_bind followed
  obtain ⟨pointer, looked'', same⟩ := ok_of_bind followed
  cases same
  rw [looked, ok_bind, looked', ok_bind, looked'']
  rfl

end Pointers

/-! ## The mapping of blocks -/

/-- Whatever a device contains, a block is mapped into the volume or not at all.  On a
well-formed tree of extents, of any depth that is supported, and on well-formed tables of
pointers the mapping of every block is the one that the tree denotes. -/
theorem mapBlock_denotes {volume : Volume} (sound : volume.geometry.Sound volume.device.size)
    (node : Node) (logical : Nat) :
    (∀ mapping, answer (mapBlock node logical volume) = .ok mapping → mapping.zero = false →
      1 ≤ mapping.physical ∧ mapping.physical < volume.geometry.blockCount) ∧
    (hasFlag node.flags inodeInlineData = false → hasFlag node.flags inodeExtents = true →
      ∀ depth ≤ 5, ExtentTree volume.geometry (window volume.geometry volume.device.image) depth 60
        0 0x100000000 node.blockData →
      answer (mapBlock node logical volume) = .ok (placeIn
        (treeExtents (window volume.geometry volume.device.image) depth node.blockData) logical)) ∧
    (hasFlag node.flags inodeInlineData = false → hasFlag node.flags inodeExtents = false →
      LegacyMap volume.geometry (window volume.geometry volume.device.image) node →
      answer (mapBlock node logical volume) =
        match (inodePointers volume.geometry (window volume.geometry volume.device.image)
          node)[logical]? with
        | some block => .ok (pointerMapping block)
        | none => .error .outOfBounds) := by
  have spans : volume.geometry.Spans volume := ⟨sound, rfl⟩
  rw [(mapBlock_answers spans node logical).answer_eq (refl_of Intact volume)]
  refine ⟨fun mapping found stored => ?_, fun present extents depth shallow tree => ?_,
    fun present pointers map => ?_⟩
  · have valid := mapOn_leads found stored
    simp only [Geometry.validPhysicalBlock, Bool.and_eq_true, decide_eq_true_eq] at valid
    omega
  · have header : littleU16 node.blockData 6 = depth := by
      cases depth with
      | zero
      | succ depth => exact tree.1.depth
    rw [mapOn, mapBlockWith, if_neg (by simp [present]), if_pos extents, mapExtents, header,
      if_neg (by omega)]
    exact mapExtentsAt_eq le_rfl tree
  · rw [mapOn, mapBlockWith, if_neg (by simp [present]), if_neg (by simp [pointers])]
    exact mapLegacy_eq map

/-- A volume with a leaf of extents in block 7 and a table of pointers in block 6. -/
def branched : Volume :=
  { striped with
    device.image := put32 (splice zeroBytes 0x1c00 60 stripedFile.blockData) 0x1804 9 }

/-- The root of a tree with the leaf below it. -/
def indexedFile : Node :=
  { stripedFile with
    blockData := put32 (put32 (put16 stripedFile.blockData 6 1) 16 7) 20 0 }

/-- A file with an extent below an index and a hole behind it, and one with an indirect pointer. -/
theorem mapBlock_denotes_branched :
    branched.geometry.Sound branched.device.size ∧
      answer (mapBlock indexedFile 1 branched) = .ok ⟨9, false⟩ ∧
      answer (mapBlock indexedFile 2 branched) = .ok {} ∧
      answer (mapBlock { stripedFile with flags := 0, blockData := put32 zeroBytes 48 6 } 13
        branched) = .ok ⟨9, false⟩ := by
  have sound : branched.geometry.Sound branched.device.size := striped_sound
  have tree : ExtentTree branched.geometry (window branched.geometry branched.device.image) 1 60 0
      0x100000000 indexedFile.blockData := by
    have one : entryCount indexedFile.blockData = 1 := by decide
    have leaf : entryCount (window branched.geometry branched.device.image 7) = 1 := by decide
    refine ⟨by constructor <;> decide, fun index inside => ?_, fun later inside index before => ?_⟩
    · obtain rfl : index = 0 := by omega
      refine ⟨by decide, by decide, by decide, by constructor <;> decide, fun index inside => ?_,
        fun later (inside : later < entryCount (window _ _ 7)) index before => ?_⟩
      · obtain rfl : index = 0 := Nat.lt_one_iff.mp (leaf ▸ inside)
        constructor <;> decide
      · omega
    · omega
  refine ⟨sound, ?_, ?_, ?_⟩
  · exact (mapBlock_denotes sound indexedFile 1).2.1 (by decide) (by decide) 1 (by decide) tree
  · exact (mapBlock_denotes sound indexedFile 2).2.1 (by decide) (by decide) 1 (by decide) tree
  have direct : ∀ index < 12, littleU32 (put32 zeroBytes 48 6) (index * 4) = 0 := by decide
  have table : ∀ index < 256, littleU32 (window branched.geometry branched.device.image 6)
      (index * 4) ∈ [0, 9] := by
    decide +kernel
  have valid : ∀ block ∈ [0, 9], block = 0 ∨ striped.geometry.validPhysicalBlock block := by decide
  exact (mapBlock_denotes sound _ 13).2.2 (by decide) (by decide)
    ⟨fun index inside => .inl (direct index inside),
      .inr ⟨by decide, fun index inside => valid _ (table index inside)⟩, .inl (by decide),
      .inl (by decide)⟩

end Mikos.Ext4
