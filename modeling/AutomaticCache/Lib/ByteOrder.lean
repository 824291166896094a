import Mathlib.Data.BitVec

/-!
# Byte order

The byte swaps of 16- and 32-bit words and the conversion between the host's byte order and the
network's (big-endian) one. A conversion is its own inverse on either host, and a 16-bit word
converted inside the upper half of a 32-bit word is the converted 16-bit word only where the host
swaps (`bswap32_shiftRight`, `bswap32_shiftLeft`). In memory the swapped word of a little-endian
host is the word of a big-endian one (`bytes16_bswap16`, `bytes32_bswap32`).
-/

namespace Endian

/-- The byte order of a machine. -/
inductive ByteOrder
  | little
  | big
  deriving DecidableEq, Repr

/-- The two bytes of `x` exchanged. -/
def bswap16 (x : BitVec 16) : BitVec 16 := x.extractLsb' 0 8 ++ x.extractLsb' 8 8

/-- The four bytes of `x` in the opposite order. -/
def bswap32 (x : BitVec 32) : BitVec 32 :=
  x.extractLsb' 0 8 ++ x.extractLsb' 8 8 ++ x.extractLsb' 16 8 ++ x.extractLsb' 24 8

@[simp] theorem bswap16_bswap16 (x : BitVec 16) : bswap16 (bswap16 x) = x := by
  unfold bswap16
  ext i hi
  simp only [BitVec.getElem_append, BitVec.getElem_extractLsb', BitVec.getLsbD_append,
    BitVec.getLsbD_extractLsb']
  split_ifs <;> grind

@[simp] theorem bswap32_bswap32 (x : BitVec 32) : bswap32 (bswap32 x) = x := by
  unfold bswap32
  ext i hi
  simp only [BitVec.getElem_append, BitVec.getElem_extractLsb', BitVec.getLsbD_append,
    BitVec.getLsbD_extractLsb']
  split_ifs <;> grind

/-- Swapped as the low half of a 32-bit word, a 16-bit word comes out in the upper half. -/
theorem bswap32_shiftRight (x : BitVec 16) :
    (bswap32 (x.setWidth 32) >>> 16).setWidth 16 = bswap16 x := by
  unfold bswap32 bswap16
  ext i hi
  simp only [BitVec.getElem_setWidth, BitVec.getLsbD_ushiftRight, BitVec.getLsbD_append,
    BitVec.getLsbD_extractLsb', BitVec.getLsbD_setWidth]
  split_ifs <;> grind

/-- Swapped as the upper half of a 32-bit word, a 16-bit word comes out in the low half. -/
theorem bswap32_shiftLeft (x : BitVec 16) :
    (bswap32 (x.setWidth 32 <<< 16)).setWidth 16 = bswap16 x := by
  unfold bswap32 bswap16
  ext i hi
  simp only [BitVec.getElem_setWidth, BitVec.getLsbD_shiftLeft, BitVec.getLsbD_append,
    BitVec.getLsbD_extractLsb', BitVec.getLsbD_setWidth]
  split_ifs <;> grind

/-! ## Words in memory -/

/-- The bytes of a word, in the order of their addresses. -/
def bytes16 : ByteOrder → BitVec 16 → BitVec 8 × BitVec 8
  | .little, x => (x.extractLsb' 0 8, x.extractLsb' 8 8)
  | .big, x => (x.extractLsb' 8 8, x.extractLsb' 0 8)

def bytes32 : ByteOrder → BitVec 32 → BitVec 8 × BitVec 8 × BitVec 8 × BitVec 8
  | .little, x => (x.extractLsb' 0 8, x.extractLsb' 8 8, x.extractLsb' 16 8, x.extractLsb' 24 8)
  | .big, x => (x.extractLsb' 24 8, x.extractLsb' 16 8, x.extractLsb' 8 8, x.extractLsb' 0 8)

theorem bytes16_bswap16 (x : BitVec 16) : bytes16 .little (bswap16 x) = bytes16 .big x := by
  unfold bytes16 bswap16
  refine Prod.ext ?_ ?_ <;> ext i hi <;>
    simp only [BitVec.getElem_extractLsb', BitVec.getLsbD_append, BitVec.getLsbD_extractLsb'] <;>
      grind

theorem bytes32_bswap32 (x : BitVec 32) : bytes32 .little (bswap32 x) = bytes32 .big x := by
  unfold bytes32 bswap32
  refine Prod.ext ?_ (Prod.ext ?_ (Prod.ext ?_ ?_)) <;> ext i hi <;>
    simp only [BitVec.getElem_extractLsb', BitVec.getLsbD_append, BitVec.getLsbD_extractLsb'] <;>
      grind

/-- The word whose bytes these are, the most significant one first. -/
def ofBytes16 (b : BitVec 8 × BitVec 8) : BitVec 16 := b.1.setWidth 16 <<< 8 ||| b.2.setWidth 16

def ofBytes32 (b : BitVec 8 × BitVec 8 × BitVec 8 × BitVec 8) : BitVec 32 :=
  b.1 ++ b.2.1 ++ b.2.2.1 ++ b.2.2.2

@[simp] theorem ofBytes16_bytes16 (x : BitVec 16) : ofBytes16 (bytes16 .big x) = x := by
  unfold ofBytes16 bytes16
  ext i hi
  simp only [BitVec.getElem_or, BitVec.getElem_shiftLeft, BitVec.getElem_setWidth,
    BitVec.getLsbD_extractLsb']
  grind

@[simp] theorem ofBytes32_bytes32 (x : BitVec 32) : ofBytes32 (bytes32 .big x) = x := by
  unfold ofBytes32 bytes32
  ext i hi
  simp only [BitVec.getElem_append, BitVec.getElem_extractLsb']
  split_ifs <;> grind

end Endian
