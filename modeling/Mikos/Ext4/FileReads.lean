import Mikos.Ext4.Mapping

/-!
# Reading files

`read` transfers blocks that follow each other on the device at once, and maps blocks ahead
to find them.  It comes to what a read comes to that maps and copies each block of the file
by itself; so its result is a function of the blocks of the image.
-/

namespace Mikos.Ext4
open Library Fs List

/-! ## One block after the other -/

section Separate
variable (geometry : Geometry) (blocks : Nat → Bytes) (node : Node)

/-- The bytes of one block of a file, from `offset` on and before `stop`.  A hole reads as
zero bytes. -/
def readBlockOf (offset stop logical : Nat) : Except Error (List UInt8) :=
  if 0xffffffff < logical then
    throw .unsupported
  else do
    let mapping ← mapOn geometry blocks node logical
    let start := logical * geometry.blockSize
    let first := max offset start
    let last := min stop (start + geometry.blockSize)
    return (range (last - first)).map fun position =>
      if mapping.zero then 0 else blocks mapping.physical (first - start + position)

/-- Bytes of a file, each of its blocks mapped and copied by itself. -/
def readSeparately (offset size : Nat) : Except Error (List UInt8) :=
  if size = 0 then
    return []
  else do
    let first := offset / geometry.blockSize
    let last := (offset + size - 1) / geometry.blockSize
    let pieces ← (range' first (last + 1 - first)).mapM
      (readBlockOf geometry blocks node offset (offset + size))
    return pieces.flatten

/-- A read of a file, clipped to its size. -/
def separateRead (mounted : Bool) (offset size : Nat) : Except Error (List UInt8) :=
  if mounted = false then
    throw .invalidArgument
  else if node.type = .directory then
    throw .isDirectory
  else if node.type ≠ .regular ∨ hasFlag node.flags inodeInlineData then
    throw .unsupported
  else if node.size ≤ offset ∨ size = 0 then
    return []
  else
    readSeparately geometry blocks node offset (min (node.size - offset) size)

end Separate

section Steps
variable {geometry : Geometry} {blocks : Nat → Bytes} {node : Node} {offset size : Nat}

theorem mapM_congr {left right : α → Except Error β} {items : List α}
    (same : ∀ item ∈ items, left item = right item) : items.mapM left = items.mapM right := by
  induction items with
  | nil => rfl
  | cons item items ih =>
    rw [mapM_cons, mapM_cons, same item mem_cons_self,
      ih fun other mem => same other (mem_cons_of_mem _ mem)]

section
variable (pos : 0 < geometry.blockSize)
include pos

theorem readSeparately_step (some : 0 < size) {count : Nat}
    (amount : count = min size (geometry.blockSize - offset % geometry.blockSize)) :
    readSeparately geometry blocks node offset size = do
      let piece ← readBlockOf geometry blocks node offset (offset + size)
        (offset / geometry.blockSize)
      let rest ← readSeparately geometry blocks node (offset + count) (size - count)
      return piece ++ rest := by
  have split := Nat.div_add_mod offset geometry.blockSize
  have within := Nat.mod_lt offset pos
  rw [Nat.mul_comm] at split
  have later : offset / geometry.blockSize ≤ (offset + size - 1) / geometry.blockSize :=
    Nat.div_le_div_right (by omega)
  obtain ⟨more, more_eq⟩ := Nat.exists_eq_add_of_le later
  rw [readSeparately, if_neg (by omega)]
  dsimp only
  rw [more_eq, show offset / geometry.blockSize + more + 1 - offset / geometry.blockSize =
    more + 1 by omega, range'_succ, mapM_cons]
  simp only [bind_assoc, pure_bind, flatten_cons]
  generalize offset / geometry.blockSize = first at *
  congr 1
  funext piece
  by_cases whole : size ≤ geometry.blockSize - offset % geometry.blockSize
  · have alone : more = 0 := by
      have upper : (offset + size - 1) / geometry.blockSize < first + 1 := by
        rw [Nat.div_lt_iff_lt_mul pos, Nat.add_mul]
        omega
      omega
    rw [alone, amount, Nat.min_eq_left whole, Nat.sub_self, readSeparately, if_pos rfl]
    rfl
  have next : offset + (geometry.blockSize - offset % geometry.blockSize) =
      (first + 1) * geometry.blockSize := by
    rw [Nat.add_mul]
    omega
  rw [amount, Nat.min_eq_right (by omega), readSeparately, if_neg (by omega)]
  dsimp only
  rw [next, Nat.mul_div_cancel _ pos,
    show (first + 1) * geometry.blockSize +
      (size - (geometry.blockSize - offset % geometry.blockSize)) = offset + size by omega,
    more_eq, show first + more + 1 - (first + 1) = more by omega]
  simp only [bind_assoc, pure_bind]
  rw [mapM_congr fun logical mem => ?_]
  have after := (mem_range'_1.mp mem).1
  have start : (first + 1) * geometry.blockSize ≤ logical * geometry.blockSize :=
    Nat.mul_le_mul_right _ after
  rw [readBlockOf, readBlockOf]
  dsimp only
  rw [Nat.max_eq_right (by omega), Nat.max_eq_right start]

theorem readBlockOf_first {mapping : BlockMapping} {count : Nat}
    (amount : count = min size (geometry.blockSize - offset % geometry.blockSize))
    (small : offset / geometry.blockSize ≤ 0xffffffff)
    (found : mapOn geometry blocks node (offset / geometry.blockSize) = .ok mapping) :
    readBlockOf geometry blocks node offset (offset + size) (offset / geometry.blockSize) =
      .ok ((range count).map fun i => if mapping.zero then 0
        else blocks mapping.physical (offset % geometry.blockSize + i)) := by
  have split := Nat.div_add_mod offset geometry.blockSize
  have within := Nat.mod_lt offset pos
  rw [Nat.mul_comm] at split
  rw [readBlockOf, if_neg (by omega), found]
  generalize offset / geometry.blockSize * geometry.blockSize = start at *
  generalize offset % geometry.blockSize = rest at *
  dsimp only
  rw [← split, Nat.max_eq_left (by omega), show start + rest - start = rest by omega,
    show min (start + rest + size) (start + geometry.blockSize) - (start + rest) = count by omega]
  rfl

theorem length_of_readSeparately
    (read : readSeparately geometry blocks node offset size = .ok bytes) : bytes.length = size := by
  induction size using Nat.strong_induction_on generalizing offset bytes with
  | h size ih =>
    by_cases some : 0 < size
    case neg =>
      rw [readSeparately, if_pos (by omega)] at read
      cases read
      exact (Nat.eq_zero_of_not_pos some).symm
    have within := Nat.mod_lt offset pos
    rw [readSeparately_step pos some rfl] at read
    obtain ⟨piece, first, read⟩ := ok_of_bind read
    obtain ⟨rest, others, same⟩ := ok_of_bind read
    cases same
    have small : offset / geometry.blockSize ≤ 0xffffffff := by
      by_contra large
      rw [readBlockOf, if_pos (by omega)] at first
      cases first
    cases found : mapOn geometry blocks node (offset / geometry.blockSize) with
    | error error =>
      rw [readBlockOf, if_neg (by omega), found] at first
      cases first
    | ok mapping =>
      rw [readBlockOf_first pos rfl small found] at first
      cases first
      rw [length_append, length_map, length_range, ih _ (by omega) others]
      omega

end

/-- Blocks that follow each other on the device. -/
def Consecutive (geometry : Geometry) (blocks : Nat → Bytes) (node : Node)
    (logical physical count : Nat) : Prop :=
  ∀ position < count, logical + position ≤ 0xffffffff ∧
    mapOn geometry blocks node (logical + position) = .ok ⟨physical + position, false⟩

theorem readSeparately_run (pos : 0 < geometry.blockSize) {logical physical count : Nat}
    (run : Consecutive geometry (window geometry image) node logical physical count)
    (inside : count * geometry.blockSize ≤ size) :
    readSeparately geometry (window geometry image) node (logical * geometry.blockSize) size = do
      let rest ← readSeparately geometry (window geometry image) node
        (logical * geometry.blockSize + count * geometry.blockSize)
        (size - count * geometry.blockSize)
      return (range (count * geometry.blockSize)).map (fun i =>
        image (physical * geometry.blockSize + i)) ++ rest := by
  induction count generalizing logical physical size with
  | zero => simp
  | succ count ih =>
    have here := run 0 (by omega)
    rw [Nat.add_zero, Nat.add_zero] at here
    have following : Consecutive geometry (window geometry image) node (logical + 1) (physical + 1)
        count := by
      intro i bound
      rw [Nat.add_right_comm, Nat.add_right_comm physical]
      exact run (i + 1) (by omega)
    have whole := Nat.mul_div_cancel logical pos
    rw [Nat.succ_mul] at inside ⊢
    have amount : geometry.blockSize = min size
        (geometry.blockSize - logical * geometry.blockSize % geometry.blockSize) := by
      rw [Nat.mul_mod_left]
      omega
    have later := ih following (show count * geometry.blockSize ≤ size - geometry.blockSize by omega)
    rw [Nat.add_mul, Nat.add_mul, Nat.one_mul] at later
    rw [readSeparately_step pos (by omega) amount,
      readBlockOf_first pos amount (by omega) (by rw [whole]; exact here.2), later]
    simp only [bind_assoc, pure_bind, Nat.mul_mod_left]
    rw [show logical * geometry.blockSize + geometry.blockSize + count * geometry.blockSize =
        logical * geometry.blockSize + (count * geometry.blockSize + geometry.blockSize) by omega,
      show size - geometry.blockSize - count * geometry.blockSize =
        size - (count * geometry.blockSize + geometry.blockSize) by omega]
    change (readSeparately _ _ _ _ _ >>= _) = _
    congr 1
    funext rest
    rw [Nat.add_comm (count * _), range_add, map_append, append_assoc, map_map]
    congr 2
    · refine map_congr_left fun i mem => ?_
      rw [Nat.zero_add, window, if_pos (mem_range.mp mem)]
      rfl
    · congr 1
      refine map_congr_left fun i _ => ?_
      rw [Function.comp_apply, Nat.add_assoc]

end Steps

/-! ## The read of the driver -/

section Read
variable {geometry : Geometry} {volume : Volume} {node : Node} (spans : geometry.Spans volume)

include spans

/-- However far a read is extended, its blocks follow each other. -/
theorem extendRead_answers (begun : 0 < following) (most : following * geometry.blockSize ≤ left)
    (run : Consecutive geometry (window geometry volume.image) node logical physical following) :
    ∃ count, Answers volume
        (extendRead node logical physical left fuel following (following * geometry.blockSize))
        (.ok (count * geometry.blockSize)) ∧
      0 < count ∧ count * geometry.blockSize ≤ left ∧
      Consecutive geometry (window geometry volume.image) node logical physical count := by
  induction fuel generalizing following with
  | zero => exact ⟨following, .pure _, begun, most, run⟩
  | succ fuel ih =>
    have stop : Answers volume (pure (following * geometry.blockSize))
        (.ok (following * geometry.blockSize)) := .pure _
    have least := Nat.mul_le_mul_right geometry.blockSize begun
    have caught := (mapBlock_answers spans node (logical + following)).tryCatch
      fun _ _ => Settles.pure ({} : BlockMapping)
    -- the look ahead ends the run, or makes it longer by one block
    by_cases more : following * geometry.blockSize ≤ left - geometry.blockSize ∧
        logical + following ≤ 0xffffffff
    case neg =>
      refine ⟨following, ?_, begun, most, run⟩
      rw [extendRead]
      refine .get_bind fun state intact => ?_
      rw [intact.geometry, spans.geometry, if_neg more]
      exact stop
    by_cases next : mapOn geometry (window geometry volume.image) node
        (logical + following) = .ok ⟨physical + following, false⟩
    case neg =>
      refine ⟨following, ?_, begun, most, run⟩
      rw [extendRead]
      refine .get_bind fun state intact => ?_
      rw [intact.geometry, spans.geometry, if_pos more]
      cases found : mapOn geometry (window geometry volume.image) node
          (logical + following) with
      | error error =>
        rw [found] at caught
        exact .bind_ok caught stop
      | ok mapping =>
        rw [found] at caught next
        refine .bind_ok caught ?_
        rw [if_pos]
        · exact stop
        · obtain ⟨place, zero⟩ := mapping
          cases zero with
          | true => exact .inl rfl
          | false => exact .inr fun same => next (by rw [show place = _ from same])
    have longer : following * geometry.blockSize + geometry.blockSize =
        (following + 1) * geometry.blockSize := by
      rw [Nat.add_mul, Nat.one_mul]
    have further : Consecutive geometry (window geometry volume.image) node logical physical
        (following + 1) := by
      intro i bound
      rcases Nat.lt_succ_iff_lt_or_eq.mp bound with earlier | rfl
      · exact run i earlier
      · exact ⟨more.2, next⟩
    obtain ⟨count, answers, rest⟩ := ih (by omega) (by omega) further
    refine ⟨count, ?_, rest⟩
    rw [extendRead]
    refine .get_bind fun state intact => ?_
    rw [intact.geometry, spans.geometry, if_pos more]
    rw [next] at caught
    refine .bind_ok caught ?_
    rw [if_neg (by simp), longer]
    exact answers

theorem transfer_answers {place count : Nat}
    (inside : place + count ≤ geometry.blockCount * geometry.blockSize)
    (later : Answers volume rest result) : Answers volume (do
        let bytes ← Ext4.readExact place count zeroBytes
        let chunk ← pure ((range count).map bytes)
        let rest ← rest
        return chunk ++ rest)
      (do
        let rest ← result
        return (range count).map (fun i => volume.image (place + i)) ++ rest) := by
  have read : Answers volume (Ext4.readExact place count zeroBytes) (.ok
      (splice zeroBytes 0 count fun i => volume.image (place + i))) := by
    intro state intact
    have read := (spans.intact intact).readExact zeroBytes inside
    rw [intact.image] at read
    exact ⟨state, intact, read⟩
  refine .bind_ok read ?_
  have same : (range count).map (splice zeroBytes 0 count fun i =>
      volume.image (place + i)) =
      (range count).map fun i => volume.image (place + i) := by
    refine map_congr_left fun i mem => ?_
    have small := mem_range.mp mem
    rw [splice_inside (by omega), Nat.sub_zero]
  rw [same]
  exact .bind_ok (.pure _) (later.bind fun _ _ => .pure _)

theorem readChunks_answers {fuel offset rest : Nat} (enough : rest ≤ fuel) :
    Answers volume (readChunks node fuel offset rest)
      (readSeparately geometry (window geometry volume.image) node offset rest) := by
  have pos := spans.blockSize_pos
  induction fuel generalizing offset rest with
  | zero =>
    rw [Nat.le_zero.mp enough]
    exact .pure _
  | succ fuel ih =>
    rw [readChunks]
    by_cases none : rest = 0
    · rw [if_pos none, readSeparately, if_pos none]
      exact .pure _
    rw [if_neg none]
    refine .get_bind fun state intact => ?_
    rw [intact.geometry, spans.geometry]
    have within := Nat.mod_lt offset pos
    have step := @readSeparately_step geometry (window geometry volume.image) node offset
      rest pos (by omega) _ rfl
    by_cases large : 0xffffffff < offset / geometry.blockSize
    · rw [if_pos large, step, readBlockOf, if_pos large]
      exact .throw _
    rw [if_neg large]
    have mapped := mapBlock_answers spans node (offset / geometry.blockSize)
    cases found : mapOn geometry (window geometry volume.image) node
        (offset / geometry.blockSize) with
    | error error =>
      rw [found] at mapped
      rw [step, readBlockOf, if_neg large, found]
      exact .bind_error mapped
    | ok mapping =>
      rw [found] at mapped
      refine .bind_ok mapped ?_
      dsimp only
      have leads := mapOn_leads found
      split
      next aligned =>
        -- whole blocks, and those after them that follow on the device
        obtain ⟨stored, start, full⟩ := aligned
        have place : offset / geometry.blockSize * geometry.blockSize = offset := by
          have split := Nat.div_add_mod offset geometry.blockSize
          rw [Nat.mul_comm] at split
          omega
        have single : Consecutive geometry (window geometry volume.image) node
            (offset / geometry.blockSize) mapping.physical 1 := by
          intro i bound
          rw [Nat.lt_one_iff.mp bound, ← stored]
          exact ⟨Nat.le_of_not_lt large, found⟩
        obtain ⟨count, extended, some, inside, run⟩ := extendRead_answers spans Nat.one_pos
          (show 1 * geometry.blockSize ≤ rest by omega) single
        have last := Geometry.lt_of_validPhysicalBlock
          (mapOn_leads (run (count - 1) (by omega)).2 rfl)
        have bound := Nat.mul_le_mul_right geometry.blockSize
          (show mapping.physical + count ≤ geometry.blockCount by dsimp only at last; omega)
        have many := Nat.mul_le_mul_right geometry.blockSize some
        rw [Nat.add_mul] at bound
        rw [Nat.one_mul] at extended
        rw [full]
        refine .bind_ok extended ?_
        rw [if_neg (by simp [stored]), start, Nat.add_zero, ← place, readSeparately_run pos run
          inside, place]
        exact transfer_answers spans bound (ih (by omega))
      have piece := @readBlockOf_first geometry (window geometry volume.image) node offset
        rest pos mapping _ rfl (Nat.le_of_not_lt large) found
      rw [step, piece]
      generalize amount : min rest (geometry.blockSize - offset % geometry.blockSize) = count
      have later : Answers volume (readChunks node fuel (offset + count) (rest - count))
          (readSeparately geometry (window geometry volume.image) node (offset + count)
            (rest - count)) := ih (by omega)
      refine .bind_ok (.pure _) ?_
      split
      next hole =>
        rw [map_const', length_range]
        exact .bind_ok (.pure _) (later.bind fun _ _ => .pure _)
      rename_i stored
      have bound := Nat.mul_le_mul_right geometry.blockSize
        (Geometry.lt_of_validPhysicalBlock (leads (Bool.eq_false_iff.mpr stored)))
      rw [Nat.succ_mul] at bound
      have bytes : (range count).map (fun i =>
          window geometry volume.image mapping.physical (offset % geometry.blockSize + i)) =
          (range count).map fun i => volume.image
            (mapping.physical * geometry.blockSize + offset % geometry.blockSize + i) := by
        refine map_congr_left fun i mem => ?_
        have small := mem_range.mp mem
        rw [window, if_pos (by omega), Nat.add_assoc]
      rw [bytes]
      exact transfer_answers spans (by omega) later

/-- A read of a file is a read of each of its blocks. -/
theorem read_answers (offset size : Nat) :
    Answers volume (Ext4.read node offset size)
      (separateRead geometry (window geometry volume.image) node volume.mounted offset
        size) := by
  refine .get_bind fun state intact => ?_
  rw [intact.mounted]
  exact .ite (fun _ => .throw _) fun _ => .ite (fun _ => .throw _) fun _ =>
    .ite (fun _ => .throw _) fun _ => .ite (fun _ => .pure _) fun _ =>
      readChunks_answers spans le_rfl

end Read

/-- Whatever a device contains, a read that merges blocks comes to the result and the bytes of
a read of one block after the other, and to all of them. -/
theorem read_eq_separateRead {volume : Volume}
    (sound : volume.geometry.Sound volume.device.size) (file : Node) (offset size : Nat) :
    answer (Ext4.read file offset size volume) =
        separateRead volume.geometry (window volume.geometry volume.device.image) file
          volume.mounted offset size ∧
      ∀ bytes, answer (Ext4.read file offset size volume) = .ok bytes →
        bytes.length = min (file.size - offset) size := by
  have spans : volume.geometry.Spans volume := ⟨sound, rfl⟩
  rw [(read_answers spans offset size).answer_eq (refl_of Intact volume)]
  refine ⟨rfl, fun bytes read => ?_⟩
  rw [separateRead] at read
  split at read
  · cases read
  split at read
  · cases read
  split at read
  · cases read
  split at read
  next nothing =>
    cases read
    rw [length_nil]
    omega
  · exact length_of_readSeparately spans.blockSize_pos read

/-- The end of the file is in the block after its extent. -/
theorem read_eq_separateRead_striped :
    striped.geometry.Sound striped.device.size ∧
      separateRead striped.geometry (window striped.geometry striped.device.image) stripedFile true
        1022 4 = .ok [8, 8, 9, 9] ∧
      answer (Ext4.read stripedFile 1022 4 striped) = .ok [8, 8, 9, 9] ∧
      answer (Ext4.read stripedFile 0 4000 striped) = separateRead striped.geometry
        (window striped.geometry striped.device.image) stripedFile true 0 4000 := by
  have bytes : separateRead striped.geometry (window striped.geometry striped.device.image)
      stripedFile true 1022 4 = .ok [8, 8, 9, 9] := by decide +kernel
  exact ⟨striped_sound, bytes, (read_eq_separateRead striped_sound stripedFile 1022 4).1.trans bytes,
    (read_eq_separateRead striped_sound stripedFile 0 4000).1⟩

end Mikos.Ext4
