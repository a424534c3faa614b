import Mathlib.Data.BitVec
import Mathlib.Tactic

/-! # Network byte order

A word of 16 or 32 bits as its bytes, the most significant first, and back. `be16` and `ofBe16` are
inverse to each other in both directions, so are `be32` and `ofBe32`. A little-endian host has its
bytes the other way round in memory (`ofLe16`, `ofLe32`); swapping them there gives the same word. -/

namespace N64NetLib.Lib.BigEndian

/-- Byte `i` of a word, byte `0` being the least significant. -/
def byteOf {w : ℕ} (x : BitVec w) (i : ℕ) : UInt8 := UInt8.ofBitVec (x.extractLsb' (8 * i) 8)

/-- The two bytes of a 16-bit word in network order. -/
def be16 (x : BitVec 16) : List UInt8 := [byteOf x 1, byteOf x 0]

/-- The four bytes of a 32-bit word in network order. -/
def be32 (x : BitVec 32) : List UInt8 := [byteOf x 3, byteOf x 2, byteOf x 1, byteOf x 0]

/-- The 16-bit word of two bytes in network order. -/
def ofBe16 (b0 b1 : UInt8) : BitVec 16 := b0.toBitVec ++ b1.toBitVec

/-- The 32-bit word of four bytes in network order. -/
def ofBe32 (b0 b1 b2 b3 : UInt8) : BitVec 32 :=
  b0.toBitVec ++ b1.toBitVec ++ b2.toBitVec ++ b3.toBitVec

/-- The 16-bit word a little-endian host loads from two bytes. -/
def ofLe16 (b0 b1 : UInt8) : BitVec 16 := b1.toBitVec ++ b0.toBitVec

/-- The 32-bit word a little-endian host loads from four bytes. -/
def ofLe32 (b0 b1 b2 b3 : UInt8) : BitVec 32 :=
  b3.toBitVec ++ b2.toBitVec ++ b1.toBitVec ++ b0.toBitVec

/-- The two bytes a little-endian host stores for a 16-bit word. -/
def le16 (x : BitVec 16) : List UInt8 := [byteOf x 0, byteOf x 1]

/-- The four bytes a little-endian host stores for a 32-bit word. -/
def le32 (x : BitVec 32) : List UInt8 := [byteOf x 0, byteOf x 1, byteOf x 2, byteOf x 3]

@[simp] theorem length_be16 (x : BitVec 16) : (be16 x).length = 2 := rfl
@[simp] theorem length_be32 (x : BitVec 32) : (be32 x).length = 4 := rfl

@[simp] theorem ofBe16_byteOf (x : BitVec 16) : ofBe16 (byteOf x 1) (byteOf x 0) = x := by
  ext i hi
  simp only [ofBe16, byteOf]
  grind

@[simp] theorem byteOf_ofBe16_zero (b0 b1 : UInt8) : byteOf (ofBe16 b0 b1) 0 = b1 := by
  rw [← UInt8.toBitVec_inj]
  ext i hi
  simp only [ofBe16, byteOf]
  grind

@[simp] theorem byteOf_ofBe16_one (b0 b1 : UInt8) : byteOf (ofBe16 b0 b1) 1 = b0 := by
  rw [← UInt8.toBitVec_inj]
  ext i hi
  simp only [ofBe16, byteOf]
  grind

@[simp] theorem ofBe32_byteOf (x : BitVec 32) :
    ofBe32 (byteOf x 3) (byteOf x 2) (byteOf x 1) (byteOf x 0) = x := by
  ext i hi
  simp only [ofBe32, byteOf]
  grind

theorem be32_inj {x y : BitVec 32} (h : be32 x = be32 y) : x = y := by
  simp only [be32, List.cons.injEq, and_true] at h
  obtain ⟨h3, h2, h1, h0⟩ := h
  rw [← ofBe32_byteOf x, ← ofBe32_byteOf y, h3, h2, h1, h0]

theorem byteOf_ofBe32 (b0 b1 b2 b3 : UInt8) :
    byteOf (ofBe32 b0 b1 b2 b3) 0 = b3 ∧ byteOf (ofBe32 b0 b1 b2 b3) 1 = b2 ∧
      byteOf (ofBe32 b0 b1 b2 b3) 2 = b1 ∧ byteOf (ofBe32 b0 b1 b2 b3) 3 = b0 := by
  refine ⟨?_, ?_, ?_, ?_⟩ <;>
  · rw [← UInt8.toBitVec_inj]
    ext i hi
    simp only [ofBe32, byteOf]
    grind

/-! ### The little-endian host -/

/-- Swapping the two bytes of a word. -/
theorem swap_ofLe16 (b0 b1 : UInt8) :
    ofLe16 b0 b1 >>> 8 ||| ofLe16 b0 b1 <<< 8 = ofBe16 b0 b1 := by
  ext i hi
  simp only [ofLe16, ofBe16]
  grind

theorem le16_swap (x : BitVec 16) : le16 (x >>> 8 ||| x <<< 8) = be16 x := by
  have h0 : byteOf (x >>> 8 ||| x <<< 8) 0 = byteOf x 1 := by
    rw [← UInt8.toBitVec_inj]; ext i hi; simp only [byteOf]; grind
  have h1 : byteOf (x >>> 8 ||| x <<< 8) 1 = byteOf x 0 := by
    rw [← UInt8.toBitVec_inj]; ext i hi; simp only [byteOf]; grind
  rw [le16, be16, h0, h1]

theorem getElem_mask_ff0000 (i : ℕ) (hi : i < 32) :
    (0x00FF0000#32)[i] = decide (16 ≤ i ∧ i < 24) := by
  interval_cases i <;> simp

theorem getElem_mask_ff00 (i : ℕ) (hi : i < 32) :
    (0x0000FF00#32)[i] = decide (8 ≤ i ∧ i < 16) := by
  interval_cases i <;> simp

/-- Swapping the four bytes of a word. -/
theorem swap_ofLe32 (b0 b1 b2 b3 : UInt8) :
    ofLe32 b0 b1 b2 b3 <<< 24 ||| (ofLe32 b0 b1 b2 b3 <<< 8 &&& 0x00FF0000#32) |||
      (ofLe32 b0 b1 b2 b3 >>> 8 &&& 0x0000FF00#32) ||| ofLe32 b0 b1 b2 b3 >>> 24 =
        ofBe32 b0 b1 b2 b3 := by
  ext i hi
  simp only [ofLe32, ofBe32, BitVec.getElem_or, BitVec.getElem_and, getElem_mask_ff0000 i hi,
    getElem_mask_ff00 i hi]
  grind

theorem byteOf_swap32 (x : BitVec 32) (i : ℕ) (hi : i < 4) :
    byteOf (x <<< 24 ||| (x <<< 8 &&& 0x00FF0000#32) ||| (x >>> 8 &&& 0x0000FF00#32) |||
      x >>> 24) i = byteOf x (3 - i) := by
  rw [← UInt8.toBitVec_inj]
  ext j hj
  have h : 8 * i + j < 32 := by omega
  simp only [byteOf, BitVec.getElem_extractLsb', BitVec.getLsbD_eq_getElem h, BitVec.getElem_or,
    BitVec.getElem_and, getElem_mask_ff0000 _ h, getElem_mask_ff00 _ h]
  have hi4 : i = 0 ∨ i = 1 ∨ i = 2 ∨ i = 3 := by omega
  rcases hi4 with rfl | rfl | rfl | rfl <;> grind

theorem le32_swap (x : BitVec 32) :
    le32 (x <<< 24 ||| (x <<< 8 &&& 0x00FF0000#32) ||| (x >>> 8 &&& 0x0000FF00#32) |||
      x >>> 24) = be32 x := by
  simp only [le32, be32, byteOf_swap32 x 0 (by omega), byteOf_swap32 x 1 (by omega),
    byteOf_swap32 x 2 (by omega), byteOf_swap32 x 3 (by omega)]

end N64NetLib.Lib.BigEndian
