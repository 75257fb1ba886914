import Mikos.Ext4.ReadOnly

/-!
# Where the blocks of a file are

The routines that map a logical block of a file read blocks of the device into the
scratch buffer.  What they find is a function of the blocks of the image.
-/

namespace Mikos.Ext4
open Library Fs

def window (geometry : Geometry) (image : Bytes) (block : Nat) : Bytes := fun position =>
  if position < geometry.blockSize then image (block * geometry.blockSize + position) else 0

def fetchFrom (geometry : Geometry) (blocks : Nat → Bytes) (block : Nat) : Except Error Bytes :=
  if geometry.validPhysicalBlock block then .ok (blocks block) else .error .corrupt

def mapOn (geometry : Geometry) (blocks : Nat → Bytes) (node : Node) (logical : Nat) :
    Except Error BlockMapping :=
  mapBlockWith geometry (fetchFrom geometry blocks) node logical

/-! ## Where mappings lead -/

theorem ofExcept_eq (result : Except Error α) :
    (MonadExcept.ofExcept result : Except Error α) = result := by
  cases result <;> rfl

section Valid
variable {geometry : Geometry} {fetch : Nat → Except Error Bytes} {logical : Nat}
  {mapping : BlockMapping}

/-- A block of the volume, unless it is a hole. -/
def Geometry.Leads (geometry : Geometry) (mapping : BlockMapping) : Prop :=
  mapping.zero = false → geometry.validPhysicalBlock mapping.physical = true

theorem leafMapping_leads
    (found : leafMapping geometry extentNode logical rest i previousEnd = .ok mapping) :
    geometry.Leads mapping := by
  induction rest generalizing i previousEnd with
  | zero =>
    cases found
    exact nofun
  | succ rest ih =>
    rw [leafMapping] at found
    dsimp only at found
    generalize (if 32768 < (extentAt extentNode i).rawLength then _ else _ : Nat) = length
      at found
    split at found
    · cases found
    split at found
    · cases found
    split at found
    · exact ih found
    split at found
    · cases found
      exact nofun
    split at found
    next valid =>
      cases found
      exact fun _ => valid
    · cases found

theorem mapExtentsAt_leads
    (found : mapExtentsAt geometry fetch logical depth capacity extentNode = .ok mapping) :
    geometry.Leads mapping := by
  induction depth generalizing capacity extentNode with
  | zero =>
    rw [mapExtentsAt, ofExcept_eq] at found
    split at found
    · cases found
    · exact leafMapping_leads found
  | succ depth ih =>
    rw [mapExtentsAt] at found
    split at found
    · cases found
    obtain ⟨selected, -, found⟩ := ok_of_bind found
    cases selected with
    | none =>
      cases found
      intro stored
      cases stored
    | some child =>
      obtain ⟨next, -, found⟩ := ok_of_bind found
      exact ih found

theorem indirectPointer_leads (found : indirectPointer geometry fetch block i = .ok value) :
    geometry.Leads (pointerMapping value) := by
  intro stored
  have nonzero : value ≠ 0 := by simpa [pointerMapping] using stored
  rw [indirectPointer] at found
  split at found
  · cases found
    exact absurd rfl nonzero
  obtain ⟨bytes, -, found⟩ := ok_of_bind found
  dsimp only at found
  split at found
  · cases found
  rename_i passed
  cases found
  simp only [not_or, not_and, Bool.not_eq_false] at passed
  exact passed.2 nonzero

theorem mapLegacy_leads (found : mapLegacy geometry fetch node logical = .ok mapping) :
    geometry.Leads mapping := by
  -- The last step of every path is a look at a table of pointers.
  have pointer : ∀ {block index}, (do
      return pointerMapping (← indirectPointer geometry fetch block index)) = .ok mapping →
      geometry.Leads mapping := by
    intro block index ran
    obtain ⟨value, looked, same⟩ := ok_of_bind ran
    cases same
    exact indirectPointer_leads looked
  simp only [mapLegacy] at found
  split at found
  · split at found
    · cases found
    rename_i passed
    cases found
    intro stored
    simp only [pointerMapping, decide_eq_false_iff_not, not_and, Bool.not_eq_false]
      at stored passed
    exact passed stored
  split at found
  · exact pointer found
  split at found
  · obtain ⟨single, -, found⟩ := ok_of_bind found
    exact pointer found
  split at found
  · cases found
  · obtain ⟨double, -, found⟩ := ok_of_bind found
    obtain ⟨single, -, found⟩ := ok_of_bind found
    exact pointer found

/-- A block that is mapped is a block of the volume, whatever the blocks contain. -/
theorem mapOn_leads (found : mapOn geometry blocks node logical = .ok mapping) :
    geometry.Leads mapping := by
  rw [mapOn, mapBlockWith] at found
  split at found
  · cases found
  split at found
  · rw [mapExtents] at found
    split at found
    · cases found
    · exact mapExtentsAt_leads found
  · exact mapLegacy_leads found

end Valid

/-- A volume that is all on its device, whatever its blocks contain. -/
structure Geometry.Spans (geometry : Geometry) (volume : Volume) : Prop where
  sound : geometry.Sound volume.device.size
  geometry : volume.geometry = geometry

theorem Layout.Fits.spans {layout : Layout} (fits : layout.Fits volume) : layout.Spans volume :=
  ⟨fits.size ▸ layout.sound, fits.geometry⟩

section Fetch
variable {geometry : Geometry} {volume : Volume} {block : Nat}

theorem Geometry.lt_of_validPhysicalBlock (physical : geometry.validPhysicalBlock block = true) :
    block < geometry.blockCount := by
  rw [Geometry.validPhysicalBlock, Bool.and_eq_true, decide_eq_true_eq, decide_eq_true_eq]
    at physical
  exact physical.2

namespace Geometry.Spans
variable (spans : geometry.Spans volume)
include spans

theorem intact (intact : Intact volume after) : geometry.Spans after :=
  ⟨intact.device ▸ spans.sound, intact.geometry.trans spans.geometry⟩

theorem blockSize_pos : 0 < geometry.blockSize := by
  have := spans.sound.blockSize
  omega

theorem readExact (output : Bytes)
    (inside : offset + size ≤ geometry.blockCount * geometry.blockSize) :
    Ext4.readExact offset size output volume =
      .ok (splice output 0 size fun i => volume.image (offset + i))
        volume := by
  have whole := spans.sound.device
  rw [Ext4.readExact, Device.readExact, if_neg (by omega)]

theorem readBlock (physical : geometry.validPhysicalBlock block = true) (output : Bytes) :
    ∃ bytes, Ext4.readPhysicalBlock block output volume = .ok bytes volume ∧
      ∀ i < geometry.blockSize, bytes i = window geometry volume.image block i := by
  have bound := Nat.mul_le_mul_right geometry.blockSize (lt_of_validPhysicalBlock physical)
  rw [Nat.succ_mul] at bound
  refine ⟨splice output 0 geometry.blockSize fun i =>
    volume.image (block * geometry.blockSize + i), ?_, fun i small => ?_⟩
  · simp only [Ext4.readPhysicalBlock, get_bind, ite_apply_state, spans.geometry, physical, if_true]
    exact spans.readExact output bound
  · rw [splice_inside (by omega), Nat.sub_zero, window, if_pos small]

theorem readPhysicalBlock_invalid (invalid : geometry.validPhysicalBlock block = false)
    (output : Bytes) : Ext4.readPhysicalBlock block output volume = .error .corrupt volume := by
  simp only [Ext4.readPhysicalBlock, get_bind, ite_apply_state, spans.geometry, invalid]
  rfl

end Geometry.Spans

/-- A routine comes to a result and changes at most the scratch buffers. -/
abbrev Answers {α : Type} (volume : Volume) (program : Action α) (result : Except Error α) : Prop :=
  Settles (Intact volume) program result

theorem Answers.fetch (spans : geometry.Spans volume) (same : ∀ bytes, (∀ i < geometry.blockSize,
      bytes i = window geometry volume.image block i) →
      Answers volume (next bytes) (later (window geometry volume.image block))) :
    Answers volume (fetchBlock block >>= next)
      (fetchFrom geometry (window geometry volume.image) block >>= later) := by
  intro state intact
  rw [fetchFrom]
  cases physical : geometry.validPhysicalBlock block with
  | false =>
    have failed : fetchBlock block state = .error .corrupt state := by
      simp only [fetchBlock, loadBlock, bind_assoc, get_bind]
      exact bind_of_error ((spans.intact intact).readPhysicalBlock_invalid physical state.block)
    exact ⟨state, intact, bind_of_error failed⟩
  | true =>
    obtain ⟨bytes, read, agree⟩ := (spans.intact intact).readBlock physical state.block
    have fetched : fetchBlock block state = .ok bytes { state with block := bytes } := by
      simp only [fetchBlock, loadBlock, bind_assoc, get_bind]
      exact (bind_of_ok read).trans rfl
    rw [intact.image] at agree
    obtain ⟨last, stillIntact, ran⟩ := same bytes agree { state with block := bytes }
      (trans_of Intact intact (.scratch state bytes))
    exact ⟨last, stillIntact, (bind_of_ok fetched).trans ran⟩

end Fetch

/-! ## Extents -/

section Extents
variable {geometry : Geometry} {left right : Bytes} {logical : Nat}

section
variable (same : ∀ place < limit, left place = right place)
include same

theorem extentAt_congr (inside : 12 + (i + 1) * 12 ≤ limit) :
    extentAt left i = extentAt right i := by
  simp (disch := omega) only [extentAt, littleU32_below same, littleU16_below same]

theorem leafMapping_congr (inside : 12 + (i + rest) * 12 ≤ limit) :
    leafMapping geometry left logical rest i previousEnd =
      leafMapping geometry right logical rest i previousEnd := by
  induction rest generalizing i previousEnd with
  | zero => rfl
  | succ rest ih =>
    have here := extentAt_congr same (show 12 + (i + 1) * 12 ≤ limit by omega)
    simp only [leafMapping, here]
    rw [ih (by omega)]

theorem selectIndex_congr (inside : 12 + (i + rest) * 12 ≤ limit) :
    selectIndex left logical rest i previous selected =
      selectIndex right logical rest i previous selected := by
  induction rest generalizing i previous selected with
  | zero => rfl
  | succ rest ih =>
    simp (disch := omega) only [selectIndex, littleU32_below same, littleU16_below same]
    rw [ih (by omega)]

end

variable {volume : Volume}

theorem mapExtentsAt_answers (spans : geometry.Spans volume)
    (same : ∀ i < capacity, left i = right i) :
    Answers volume (mapExtentsAt geometry fetchBlock logical depth capacity left)
      (mapExtentsAt geometry
        (fetchFrom geometry (window geometry volume.image)) logical depth
        capacity right) := by
  induction depth generalizing capacity left right with
  | zero =>
    rw [mapExtentsAt, mapExtentsAt]
    by_cases small : capacity < 12
    · rw [if_pos (.inl small), if_pos (.inl small)]
      exact .throw _
    simp (disch := omega) only [littleU16_below same]
    refine .ite (fun _ => .throw _) fun taken => ?_
    rw [ofExcept_eq, leafMapping_congr same (by omega)]
    exact .ofExcept _
  | succ depth ih =>
    rw [mapExtentsAt, mapExtentsAt]
    by_cases small : capacity < 12
    · rw [if_pos (.inl small), if_pos (.inl small)]
      exact .throw _
    simp (disch := omega) only [littleU16_below same]
    refine .ite (fun _ => .throw _) fun taken => ?_
    rw [ofExcept_eq, selectIndex_congr same (by omega)]
    refine .bind (.ofExcept _) fun selected _ => ?_
    cases selected with
    | none => exact .pure _
    | some child => exact Answers.fetch spans fun bytes agree => ih agree

theorem mapExtents_answers (spans : geometry.Spans volume) (node : Node) :
    Answers volume (mapExtents geometry fetchBlock node logical) (mapExtents geometry
        (fetchFrom geometry (window geometry volume.image)) node logical) :=
  .ite (fun _ => .throw _) fun _ => mapExtentsAt_answers spans fun _ _ => rfl

end Extents

/-! ## Block pointers -/

section Pointers
variable {geometry : Geometry} {volume : Volume} {logical : Nat}

section
variable (spans : geometry.Spans volume)
include spans

theorem indirectPointer_answers (block i : Nat) :
    Answers volume (indirectPointer geometry fetchBlock block i) (indirectPointer geometry
        (fetchFrom geometry (window geometry volume.image)) block i) := by
  refine .ite (fun _ => .pure _) fun _ => Answers.fetch spans fun bytes agree => ?_
  by_cases beyond : geometry.blockSize / 4 ≤ i
  · rw [if_pos (.inl beyond), if_pos (.inl beyond)]
    exact .throw _
  · rw [littleU32_below agree (by omega)]
    exact .ite (fun _ => .throw _) fun _ => .pure _

theorem mapLegacy_answers (node : Node) :
    Answers volume (mapLegacy geometry fetchBlock node logical) (mapLegacy geometry
        (fetchFrom geometry (window geometry volume.image)) node logical) := by
  have pointer := indirectPointer_answers spans
  refine .ite (fun _ => .ite (fun _ => .throw _) fun _ => .pure _) fun _ => .ite (fun _ => ?_)
    fun _ => .ite (fun _ => ?_) fun _ => .ite (fun _ => .throw _) fun _ => ?_
  · exact .bind (pointer _ _) fun _ _ => .pure _
  · exact .bind (pointer _ _) fun _ _ => .bind (pointer _ _) fun _ _ => .pure _
  · exact .bind (pointer _ _) fun _ _ => .bind (pointer _ _) fun _ _ =>
      .bind (pointer _ _) fun _ _ => .pure _

/-- The mapping of a block is a function of the image. -/
theorem mapBlock_answers (node : Node) (logical : Nat) :
    Answers volume (mapBlock node logical)
      (mapOn geometry (window geometry volume.image) node logical) := by
  have inner : Answers volume (mapBlockWith geometry fetchBlock node logical)
      (mapOn geometry (window geometry volume.image) node logical) :=
    .ite (fun _ => .throw _) fun _ => .ite (fun _ => mapExtents_answers spans node)
      fun _ => mapLegacy_answers spans node
  refine .get_bind fun state intact => ?_
  rw [intact.geometry, spans.geometry]
  exact inner

end
end Pointers

/-! ## A small volume -/

/-- A volume whose bytes are the numbers of their blocks. -/
def striped : Volume where
  device := { journaled with image := fun position => UInt8.ofNat (position / 1024) }
  geometry :=
    { blockSize := 1024, blockCount := 16, firstDataBlock := 1, blocksPerGroup := 8192,
      inodesPerGroup := 16, inodeCount := 16, inodeSize := 128, descriptorSize := 32,
      groupCount := 1, firstInode := 11 }
  mounted := true

/-- A file with one extent of the blocks 8 and 9. -/
def stripedFile : Node where
  flags := inodeExtents
  size := 3000
  type := .regular
  blockData := put32 (put16 (put16 (put16 (put16 zeroBytes 0 extentMagic) 2 1) 4 4) 16 2) 20 8

theorem striped_sound : striped.geometry.Sound striped.device.size := by
  constructor <;> decide

end Mikos.Ext4
