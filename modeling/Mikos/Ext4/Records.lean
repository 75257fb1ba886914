import Mikos.Ext4.Volume

/-!
# The records of a directory block

A directory block is a chain of records, some of which name an inode.  Entering a
name splits a record or fills a free one, and erasing a name makes its record free;
the other names stay where they are.
-/

namespace Mikos.Ext4
open Library Fs List

/-- A record of a directory block; it is free when it names the inode zero. -/
structure Slot where
  offset : Nat
  inode : Nat
  recordSize : Nat
  name : List UInt8
  deriving DecidableEq, Repr

/-- A record has room for its name. -/
structure Slot.Sound (slot : Slot) : Prop where
  room : 8 + slot.name.length ≤ slot.recordSize
  aligned : slot.recordSize % 4 = 0
  short : slot.name.length ≤ 255

def slotAt (geometry : Geometry) (bytes : Bytes) (offset : Nat) : Slot where
  offset
  inode := (recordHead geometry bytes offset).inode
  recordSize := (recordHead geometry bytes offset).recordSize
  name := recordName bytes offset (recordHead geometry bytes offset).nameSize

/-- Records that follow one another up to an end. -/
def Chain (geometry : Geometry) (bytes : Bytes) (stop : Nat) : (offset : Nat) → List Slot → Prop
  | offset, [] => offset = stop
  | offset, slot :: rest =>
    slotAt geometry bytes offset = slot ∧ slot.Sound ∧
      Chain geometry bytes stop (offset + slot.recordSize) rest

section Chain
variable {geometry : Geometry} {bytes left right : Bytes} {stop offset : Nat} {slot : Slot}
  {slots first second : List Slot}

theorem length_recordName (nameSize : Nat) :
    (recordName bytes offset nameSize).length = nameSize := by
  simp [recordName]

theorem length_slotAt_name :
    (slotAt geometry bytes offset).name.length = (recordHead geometry bytes offset).nameSize :=
  length_recordName _

theorem chain_append : Chain geometry bytes stop offset (first ++ second) ↔
    ∃ middle, Chain geometry bytes middle offset first ∧ Chain geometry bytes stop middle second := by
  induction first generalizing offset with
  | nil => simp [Chain]
  | cons slot rest ih =>
    simp only [cons_append, Chain, ih]
    constructor
    · rintro ⟨here, sound, middle, before, after⟩
      exact ⟨middle, ⟨here, sound, before⟩, after⟩
    · rintro ⟨middle, ⟨here, sound, before⟩, after⟩
      exact ⟨here, sound, middle, before, after⟩

theorem Chain.length_le (chain : Chain geometry bytes stop offset slots) :
    offset + 8 * slots.length ≤ stop := by
  induction slots generalizing offset with
  | nil =>
    rw [Chain] at chain
    simp [chain]
  | cons slot rest ih =>
    have := ih chain.2.2
    have := chain.2.1.room
    rw [length_cons]
    omega

theorem slotAt_congr (same : ∀ position, offset ≤ position →
      position < offset + 8 + (slotAt geometry left offset).name.length →
      left position = right position) :
    slotAt geometry right offset = slotAt geometry left offset := by
  have sizes : recordHead geometry right offset = recordHead geometry left offset := by
    rw [recordHead, recordHead,
      littleU32_congr fun position _ _ => same position (by omega) (by omega),
      littleU16_congr fun position _ _ => same position (by omega) (by omega),
      littleU16_congr fun position _ _ => same position (by omega) (by omega),
      same (offset + 6) (by omega) (by omega)]
  rw [length_slotAt_name] at same
  rw [slotAt, slotAt, sizes]
  congr 1
  refine map_congr_left fun i inside => ?_
  have bound := mem_range.mp inside
  exact (same _ (by omega) (by omega)).symm

theorem Chain.congr (chain : Chain geometry left stop offset slots)
    (same : ∀ i, offset ≤ i → i < stop → left i = right i) :
    Chain geometry right stop offset slots := by
  induction slots generalizing offset with
  | nil => exact chain
  | cons slot rest ih =>
    obtain ⟨rfl, sound, rest_chain⟩ := chain
    have room := sound.room
    have inside := rest_chain.length_le
    refine ⟨slotAt_congr fun i lower upper => same i lower (by omega), sound,
      ih rest_chain fun i lower upper => same i (by omega) upper⟩

/-- Records in the place of one, while the bytes around it stay. -/
theorem Chain.replace {middle : List Slot}
    (chain : Chain geometry left stop offset (first ++ slot :: second))
    (same : ∀ i, i < slot.offset ∨ slot.offset + slot.recordSize ≤ i → left i = right i)
    (renewed : Chain geometry right (slot.offset + slot.recordSize) slot.offset middle) :
    Chain geometry right stop offset (first ++ middle ++ second) := by
  obtain ⟨place, before, here, -, behind⟩ := chain_append.mp chain
  have place_eq : slot.offset = place := by rw [← here, slotAt]
  rw [place_eq] at same renewed
  refine chain_append.mpr ⟨place + slot.recordSize, chain_append.mpr ⟨place, ?_, renewed⟩, ?_⟩
  · exact before.congr fun i _ upper => same i (.inl upper)
  · exact behind.congr fun i lower _ => same i (.inr lower)

theorem Chain.here (chain : Chain geometry bytes stop offset (first ++ slot :: second)) :
    slotAt geometry bytes slot.offset = slot ∧ slot.Sound ∧ offset ≤ slot.offset ∧
      slot.offset + slot.recordSize ≤ stop := by
  obtain ⟨place, before, here, sound, behind⟩ := chain_append.mp chain
  have place_eq : slot.offset = place := by rw [← here, slotAt]
  have lower := before.length_le
  have upper := behind.length_le
  rw [place_eq]
  exact ⟨here, sound, by omega, by omega⟩

end Chain

/-! ## Names -/

/-- A name of an inode, with the place of its record. -/
structure Link where
  offset : Nat
  inode : Nat
  name : List UInt8
  deriving DecidableEq, Repr

/-- The name that a record enters. -/
def Slot.link (slot : Slot) : Option Link :=
  if slot.inode = 0 then none else some ⟨slot.offset, slot.inode, slot.name⟩

/-- The names that the records of a block enter. -/
def links (slots : List Slot) : List Link := slots.filterMap Slot.link

theorem links_append (first second : List Slot) :
    links (first ++ second) = links first ++ links second :=
  filterMap_append

theorem links_cons_free (free : slot.inode = 0) (slots : List Slot) :
    links (slot :: slots) = links slots := by
  simp [links, Slot.link, free]

theorem links_cons_used (used : slot.inode ≠ 0) (slots : List Slot) :
    links (slot :: slots) = ⟨slot.offset, slot.inode, slot.name⟩ :: links slots := by
  simp [links, Slot.link, used]

theorem exists_slot_of_link {before after : List Link}
    (listed : links slots = before ++ link :: after) :
    ∃ first slot second, slots = first ++ slot :: second ∧ links first = before ∧
      links second = after ∧ slot.link = some link := by
  obtain ⟨first, rest, rfl, hit, tail⟩ := filterMap_eq_append_iff.mp listed
  obtain ⟨free, slot, second, rfl, none, some, later⟩ := filterMap_eq_cons_iff.mp tail
  refine ⟨first ++ free, slot, second, by simp, ?_, later, some⟩
  rw [links_append, links, links, hit, filterMap_eq_nil_iff.mpr none, append_nil]

/-! ## Erasing -/

section Erase
variable {geometry : Geometry} {bytes : Bytes} {stop offset : Nat} {slot : Slot}
  {first second : List Slot}

theorem slotAt_put32_zero (bytes : Bytes) (offset : Nat) :
    slotAt geometry (put32 bytes offset 0) offset =
      { slotAt geometry bytes offset with inode := 0 } := by
  have size : (recordHead geometry (put32 bytes offset 0) offset).nameSize =
      (recordHead geometry bytes offset).nameSize := by
    simp only [recordHead]
    rw [put32, splice_outside (by omega), littleU16_splice_outside (by omega)]
  simp only [slotAt, size, Slot.mk.injEq, true_and]
  refine ⟨by simp [recordHead], ?_, ?_⟩
  · simp only [recordHead]
    rw [put32, littleU16_splice_outside (by omega)]
  · refine map_congr_left fun i _ => ?_
    rw [put32, splice_outside (by omega)]

theorem Chain.erase (chain : Chain geometry bytes stop offset (first ++ slot :: second)) :
    Chain geometry (put32 bytes slot.offset 0) stop offset
      (first ++ { slot with inode := 0 } :: second) := by
  obtain ⟨here, sound, -, -⟩ := chain.here
  have room := sound.room
  have renewed := @Chain.replace geometry bytes (put32 bytes slot.offset 0) stop offset slot first
    second [{ slot with inode := 0 }] chain
    (fun i outside => by rw [put32, splice_outside (by omega)])
    ⟨by rw [slotAt_put32_zero, here], ⟨sound.room, sound.aligned, sound.short⟩, rfl⟩
  simpa using renewed

theorem links_erase (first second : List Slot) (slot : Slot) :
    links (first ++ { slot with inode := 0 } :: second) = links first ++ links second := by
  rw [links_append, links_cons_free rfl]

end Erase

/-! ## Entering -/

section Enter
variable {geometry : Geometry} {bytes : Bytes} {place inode size type : Nat} {name : List UInt8}

theorem toNat_put8 (value : Nat) (small : value < 256) :
    (put8 bytes place value place).toNat = value := by
  rw [put8, splice_inside (by omega), toNat_littleBytes, Nat.sub_self]
  simp only [Nat.pow_zero, Nat.div_one]
  omega

theorem slotAt_putRecord (inodeLimit : inode < 2 ^ 32) (sizeLimit : size < 2 ^ 16)
    (short : name.length ≤ 255) (typed : geometry.hasFileType = false → type = 0) :
    slotAt geometry (putRecord bytes place inode size type name) place =
      ⟨place, inode, size, name⟩ := by
  have atName : ∀ position, place + 6 ≤ position → position < place + 8 →
      putRecord bytes place inode size type name position =
        put8 (put8 (put16 (put32 bytes place inode) (place + 4) size) (place + 6) name.length)
          (place + 7) type position := by
    intro position lower upper
    rw [putRecord, splice_outside (by omega)]
  have nameByte : (putRecord bytes place inode size type name (place + 6)).toNat = name.length := by
    rw [atName _ (by omega) (by omega), put8, splice_outside (by omega), toNat_put8 _ (by omega)]
  have nameSize : (recordHead geometry (putRecord bytes place inode size type name) place).nameSize =
      name.length := by
    simp only [recordHead, nameByte]
    split
    · rfl
    next plain =>
      rw [littleU16, nameByte, atName _ (by omega) (by omega),
        typed (Bool.eq_false_iff.mpr plain), toNat_put8 _ (by omega), Nat.mul_zero, Nat.add_zero]
  simp only [slotAt, nameSize, Slot.mk.injEq, true_and]
  refine ⟨?_, ?_, ?_⟩
  · simp only [recordHead, putRecord, put8, put16]
    rw [littleU32_splice_outside (by omega), littleU32_splice_outside (by omega),
      littleU32_splice_outside (by omega), littleU32_splice_outside (by omega), littleU32_put32]
    exact Nat.mod_eq_of_lt inodeLimit
  · simp only [recordHead, putRecord, put8]
    rw [littleU16_splice_outside (by omega), littleU16_splice_outside (by omega),
      littleU16_splice_outside (by omega), littleU16_put16]
    exact Nat.mod_eq_of_lt sizeLimit
  refine ext_getElem (length_recordName _) fun i inside _ => ?_
  have bound : i < name.length := by rwa [length_recordName] at inside
  simp only [recordName, getElem_map, getElem_range, putRecord]
  rw [splice_inside (by omega), Nat.add_sub_cancel_left, getD_eq_getElem?_getD,
    getElem?_eq_getElem bound, Option.getD_some]

variable {stop offset needed fuel : Nat} {slots : List Slot}

/-- A record has room for another one. -/
def Slot.HasRoom (slot : Slot) (needed : Nat) : Prop :=
  if slot.inode = 0 then needed ≤ slot.recordSize
  else recordRoom slot.name.length + needed ≤ slot.recordSize

/-- The room that is found: behind the name of a record, or a free record. -/
inductive Room (bytes : Bytes) (needed : Nat) (slots : List Slot) : Bytes × Nat × Nat → Prop where
  | behind (first second : List Slot) (slot : Slot) : slots = first ++ slot :: second →
      slot.inode ≠ 0 → recordRoom slot.name.length + needed ≤ slot.recordSize →
      Room bytes needed slots (put16 bytes (slot.offset + 4) (recordRoom slot.name.length),
        slot.offset + recordRoom slot.name.length, slot.recordSize - recordRoom slot.name.length)
  | free (first second : List Slot) (slot : Slot) : slots = first ++ slot :: second →
      slot.inode = 0 → needed ≤ slot.recordSize →
      Room bytes needed slots (bytes, slot.offset, slot.recordSize)

theorem Room.cons {slot : Slot} {found : Bytes × Nat × Nat} (room : Room bytes needed slots found) :
    Room bytes needed (slot :: slots) found := by
  cases room with
  | behind first second other split used fits =>
    exact .behind (slot :: first) second other (by rw [split]; rfl) used fits
  | free first second other split unused fits =>
    exact .free (slot :: first) second other (by rw [split]; rfl) unused fits

theorem toNat_nameByte (short : (slotAt geometry bytes offset).name.length ≤ 255) :
    (bytes (offset + 6)).toNat = (slotAt geometry bytes offset).name.length := by
  rw [length_slotAt_name] at short ⊢
  simp only [recordHead] at short ⊢
  split
  · rfl
  rename_i plain
  rw [if_neg plain, littleU16] at short
  rw [littleU16]
  omega

theorem findRoom_chain (chain : Chain geometry bytes stop offset slots)
    (enough : slots.length ≤ fuel) :
    (findRoom stop needed fuel bytes offset = .ok none ∧ ∀ slot ∈ slots, ¬ slot.HasRoom needed) ∨
      ∃ found, findRoom stop needed fuel bytes offset = .ok (some found) ∧
        Room bytes needed slots found := by
  induction fuel generalizing offset slots with
  | zero =>
    rw [eq_nil_of_length_eq_zero (Nat.le_zero.mp enough)]
    exact .inl ⟨rfl, nofun⟩
  | succ fuel ih =>
    cases slots with
    | nil =>
      rw [Chain] at chain
      rw [findRoom, if_pos (by omega)]
      exact .inl ⟨rfl, nofun⟩
    | cons slot rest =>
      have inside := chain.length_le
      obtain ⟨here, sound, behind⟩ := chain
      have room := sound.room
      have limit := behind.length_le
      have place : slot.offset = offset := by rw [← here, slotAt]
      have inode : littleU32 bytes offset = slot.inode := by rw [← here, slotAt, recordHead]
      have record : littleU16 bytes (offset + 4) = slot.recordSize := by
        rw [← here, slotAt, recordHead]
      have nameByte : (bytes (offset + 6)).toNat = slot.name.length := by
        have short := sound.short
        rw [← here] at short ⊢
        exact toNat_nameByte short
      have aligned := sound.aligned
      rw [length_cons] at inside enough
      simp only [findRoom, inode, record, nameByte]
      rw [if_neg (by omega), if_neg (by omega)]
      have later (full : ¬ slot.HasRoom needed) :
          (findRoom stop needed fuel bytes (offset + slot.recordSize) = .ok none ∧
            ∀ other ∈ slot :: rest, ¬ other.HasRoom needed) ∨
          ∃ found, findRoom stop needed fuel bytes (offset + slot.recordSize) =
            .ok (some found) ∧ Room bytes needed (slot :: rest) found :=
        (ih behind (by omega)).imp
          (fun ⟨missed, noRoom⟩ => ⟨missed, forall_mem_cons.mpr ⟨full, noRoom⟩⟩)
          fun ⟨found, hit, inner⟩ => ⟨found, hit, inner.cons⟩
      split
      next used =>
        split
        next small => exact later (by rw [Slot.HasRoom, if_neg used]; omega)
        rename_i fits
        refine .inr ⟨_, rfl, ?_⟩
        rw [← place]
        exact .behind [] rest slot rfl used (by omega)
      rename_i unused
      split
      next small => exact later (by rw [Slot.HasRoom, if_pos (by omega)]; omega)
      rename_i fits
      refine .inr ⟨_, rfl, ?_⟩
      rw [← place]
      exact .free [] rest slot rfl (by omega) (by omega)

theorem putRecord_outside (outside : i < place ∨ place + 8 + name.length ≤ i) :
    putRecord bytes place inode size type name i = bytes i := by
  rw [putRecord, splice_outside (by omega), put8, splice_outside (by omega), put8,
    splice_outside (by omega), put16, splice_outside (by omega), put32, splice_outside (by omega)]

theorem slotAt_put16_size (value : Nat) (small : value < 2 ^ 16) :
    slotAt geometry (put16 bytes (offset + 4) value) offset =
      { slotAt geometry bytes offset with recordSize := value } := by
  have sizes : (recordHead geometry (put16 bytes (offset + 4) value) offset).nameSize =
      (recordHead geometry bytes offset).nameSize := by
    simp only [recordHead]
    rw [put16, splice_outside (by omega), littleU16_splice_outside (by omega)]
  simp only [slotAt, sizes, Slot.mk.injEq, true_and]
  refine ⟨?_, ?_, ?_⟩
  · simp only [recordHead]
    rw [put16, littleU32_splice_outside (by omega)]
  · simp only [recordHead, littleU16_put16]
    exact Nat.mod_eq_of_lt small
  · refine map_congr_left fun i _ => ?_
    rw [put16, splice_outside (by omega)]

/-- The new record and, when it shares the room of another, the record before it. -/
theorem Room.chain {found : Bytes × Nat × Nat}
    (room : Room bytes (recordRoom name.length) slots found)
    (chain : Chain geometry bytes stop offset slots) (used : inode ≠ 0)
    (inodeLimit : inode < 2 ^ 32) (short : name.length ≤ 255)
    (typed : geometry.hasFileType = false → type = 0) :
    ∃ renewed before after,
      Chain geometry (putRecord (splice found.1 found.2.1 found.2.2 zeroBytes) found.2.1 inode
        found.2.2 type name) stop offset renewed ∧
      links slots = before ++ after ∧
      links renewed = before ++ ⟨found.2.1, inode, name⟩ :: after := by
  have needed : 8 + name.length ≤ recordRoom name.length := by
    rw [recordRoom]
    omega
  cases room with
  | behind first second slot split taken fits =>
    subst split
    obtain ⟨here, sound, -, -⟩ := chain.here
    have limit : slot.recordSize < 2 ^ 16 := by
      rw [← here]
      exact littleU16_lt
    have own : 8 + slot.name.length ≤ recordRoom slot.name.length := by
      rw [recordRoom]
      omega
    have aligned : recordRoom slot.name.length % 4 = 0 := by
      rw [recordRoom]
      omega
    have sizeAligned := sound.aligned
    dsimp only
    generalize newBytes : putRecord _ _ _ _ _ _ = renewed
    have outside : ∀ i, i < slot.offset + recordRoom slot.name.length ∨
        slot.offset + slot.recordSize ≤ i →
        put16 bytes (slot.offset + 4) (recordRoom slot.name.length) i = renewed i := by
      intro i outside
      rw [← newBytes, putRecord_outside (by omega), splice_outside (by omega)]
    have kept : slotAt geometry renewed slot.offset =
        { slot with recordSize := recordRoom slot.name.length } := by
      have shorter := @slotAt_put16_size geometry bytes slot.offset
        (recordRoom slot.name.length) (by omega)
      rw [here] at shorter
      rw [← shorter]
      refine slotAt_congr fun i lower upper => outside i ?_
      rw [shorter] at upper
      exact .inl (Nat.lt_of_lt_of_le upper (by dsimp only; omega))
    have entered : slotAt geometry renewed (slot.offset + recordRoom slot.name.length) =
        ⟨slot.offset + recordRoom slot.name.length, inode,
          slot.recordSize - recordRoom slot.name.length, name⟩ := by
      rw [← newBytes]
      exact slotAt_putRecord inodeLimit (by omega) short typed
    have both : Chain geometry renewed (slot.offset + slot.recordSize) slot.offset
        [{ slot with recordSize := recordRoom slot.name.length },
          ⟨slot.offset + recordRoom slot.name.length, inode,
            slot.recordSize - recordRoom slot.name.length, name⟩] :=
      ⟨kept, ⟨own, aligned, sound.short⟩, entered,
        ⟨by dsimp only; omega, by dsimp only; omega, short⟩, by rw [Chain]; dsimp only; omega⟩
    refine ⟨_, links first ++ [⟨slot.offset, slot.inode, slot.name⟩], links second,
      chain.replace (fun i beyond => ?_) both, ?_, ?_⟩
    · rw [← outside i (by omega), put16, splice_outside (by omega)]
    · rw [links_append, links_cons_used taken, append_assoc, singleton_append]
    · simp [links, Slot.link, taken, used]
  | free first second slot split unused fits =>
    subst split
    obtain ⟨here, sound, -, -⟩ := chain.here
    have limit : slot.recordSize < 2 ^ 16 := by
      rw [← here]
      exact littleU16_lt
    dsimp only
    have entered := @slotAt_putRecord geometry
      (splice bytes slot.offset slot.recordSize zeroBytes) slot.offset inode slot.recordSize type
      name inodeLimit limit short typed
    have one : Chain geometry (putRecord (splice bytes slot.offset slot.recordSize zeroBytes)
        slot.offset inode slot.recordSize type name) (slot.offset + slot.recordSize) slot.offset
        [⟨slot.offset, inode, slot.recordSize, name⟩] :=
      ⟨entered, ⟨by dsimp only; omega, sound.aligned, short⟩, rfl⟩
    refine ⟨_, links first, links second, chain.replace (fun i beyond => ?_) one, ?_, ?_⟩
    · rw [putRecord_outside (by omega), splice_outside (by omega)]
    · rw [links_append, links_cons_free unused]
    · rw [append_assoc, links_append, singleton_append, links_cons_used used]

end Enter
end Mikos.Ext4
