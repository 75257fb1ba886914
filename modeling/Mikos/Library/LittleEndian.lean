import Mikos.Library.Regions

/-!
# Little-endian fields of byte buffers

Reading and writing numbers of one, two and four bytes, and how the two interact.
-/

namespace Mikos.Library

/-- The bytes of a buffer or of a device by position. -/
abbrev Bytes := Nat → UInt8

def zeroBytes : Bytes := fun _ => 0

def littleU16 (data : Bytes) (offset : Nat) : Nat :=
  (data offset).toNat + 0x100 * (data (offset + 1)).toNat

def littleU32 (data : Bytes) (offset : Nat) : Nat :=
  (data offset).toNat + 0x100 * (data (offset + 1)).toNat +
    0x10000 * (data (offset + 2)).toNat + 0x1000000 * (data (offset + 3)).toNat

/-- The bytes of a number, the lowest first. -/
def littleBytes (value : Nat) : Bytes := fun position => UInt8.ofNat (value / 0x100 ^ position)

def put8 (data : Bytes) (offset value : Nat) : Bytes := splice data offset 1 (littleBytes value)

def put16 (data : Bytes) (offset value : Nat) : Bytes := splice data offset 2 (littleBytes value)

def put32 (data : Bytes) (offset value : Nat) : Bytes := splice data offset 4 (littleBytes value)

variable {data other : Bytes} {offset place size value : Nat}

theorem littleU16_lt : littleU16 data offset < 0x10000 := by
  have low := (data offset).toNat_lt
  have high := (data (offset + 1)).toNat_lt
  rw [littleU16]
  omega

theorem littleU32_lt : littleU32 data offset < 0x100000000 := by
  have first := (data offset).toNat_lt
  have second := (data (offset + 1)).toNat_lt
  have third := (data (offset + 2)).toNat_lt
  have fourth := (data (offset + 3)).toNat_lt
  rw [littleU32]
  omega

theorem toNat_littleBytes (i : Nat) : (littleBytes value i).toNat = value / 0x100 ^ i % 0x100 := by
  rw [littleBytes, UInt8.toNat_ofNat']

theorem littleU16_congr (same : ∀ i, offset ≤ i → i < offset + 2 → data i = other i) :
    littleU16 data offset = littleU16 other offset := by
  rw [littleU16, littleU16, same offset (by omega) (by omega),
    same (offset + 1) (by omega) (by omega)]

theorem littleU32_congr (same : ∀ i, offset ≤ i → i < offset + 4 → data i = other i) :
    littleU32 data offset = littleU32 other offset := by
  rw [littleU32, littleU32, same offset (by omega) (by omega),
    same (offset + 1) (by omega) (by omega), same (offset + 2) (by omega) (by omega),
    same (offset + 3) (by omega) (by omega)]

theorem littleU16_below (same : ∀ i < limit, data i = other i) (inside : offset + 2 ≤ limit) :
    littleU16 data offset = littleU16 other offset :=
  littleU16_congr fun i _ _ => same i (by omega)

theorem littleU32_below (same : ∀ i < limit, data i = other i) (inside : offset + 4 ≤ limit) :
    littleU32 data offset = littleU32 other offset :=
  littleU32_congr fun i _ _ => same i (by omega)

theorem littleU16_splice_outside (outside : offset + 2 ≤ place ∨ place + size ≤ offset)
    (bytes : Bytes) : littleU16 (splice data place size bytes) offset = littleU16 data offset :=
  littleU16_congr fun _ _ _ => splice_outside (by omega)

theorem littleU32_splice_outside (outside : offset + 4 ≤ place ∨ place + size ≤ offset)
    (bytes : Bytes) : littleU32 (splice data place size bytes) offset = littleU32 data offset :=
  littleU32_congr fun _ _ _ => splice_outside (by omega)

@[simp] theorem littleU16_put16 : littleU16 (put16 data offset value) offset = value % 0x10000 := by
  rw [littleU16, put16, splice_inside (by omega), splice_inside (by omega), toNat_littleBytes,
    toNat_littleBytes, Nat.sub_self, Nat.add_sub_cancel_left]
  omega

@[simp] theorem littleU32_put32 :
    littleU32 (put32 data offset value) offset = value % 0x100000000 := by
  rw [littleU32, put32, splice_inside (by omega), splice_inside (by omega),
    splice_inside (by omega), splice_inside (by omega), toNat_littleBytes, toNat_littleBytes,
    toNat_littleBytes, toNat_littleBytes, Nat.sub_self, Nat.add_sub_cancel_left,
    Nat.add_sub_cancel_left, Nat.add_sub_cancel_left]
  omega

end Mikos.Library
