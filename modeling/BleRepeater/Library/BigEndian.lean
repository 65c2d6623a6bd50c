import Mathlib

/-!
# Big-endian words

Splitting a machine word into bytes by shifts and putting it back together by
shifts and disjunctions.  The lemmas compare words bit by bit: one shifted byte
owns the eight bits at its own position and no others, so the disjunction of all
of them restores every bit exactly once.
-/

namespace BleRepeater

/-- A byte string. -/
abbrev Bytes := List UInt8

namespace BigEndian

/-- The byte of `word` at bit `shift`, moved back to its place, holds the eight
bits from `shift` on and nothing else. -/
theorem getLsbD_byte {width : Nat} (word : BitVec width) (shift index : Nat)
    (inWord : index < width) :
    ((((word >>> shift).setWidth 8).setWidth width) <<< shift).getLsbD index =
      (decide (shift ≤ index) && decide (index < shift + 8) &&
        word.getLsbD index) := by
  simp only [BitVec.getLsbD_shiftLeft, BitVec.getLsbD_setWidth,
    BitVec.getLsbD_ushiftRight]
  by_cases above : shift ≤ index
  · have restored : shift + (index - shift) = index := by omega
    have stillInWord : index - shift < width := by omega
    have inByte : index - shift < 8 ↔ index < shift + 8 := by omega
    simp [above, inWord, restored, stillInWord, inByte]
  · simp [above]

/-- `getLsbD_byte` for 64-bit words, with the shift taken as the machine does. -/
theorem byte64 (word shift : UInt64) (index : Nat) (inWord : index < 64)
    (small : shift.toNat < 64) :
    ((word >>> shift).toUInt8.toUInt64 <<< shift).toBitVec.getLsbD index =
      (decide (shift.toNat ≤ index) && decide (index < shift.toNat + 8) &&
        word.toBitVec.getLsbD index) := by
  have reduced : (shift.toBitVec % 64).toNat = shift.toNat := by
    simpa using Nat.mod_eq_of_lt small
  rw [← getLsbD_byte word.toBitVec shift.toNat index inWord]
  simp only [UInt64.toBitVec_shiftLeft, UInt8.toBitVec_toUInt64,
    UInt64.toBitVec_toUInt8, UInt64.toBitVec_shiftRight,
    BitVec.shiftLeft_eq', BitVec.ushiftRight_eq']
  rw [reduced]

/-- Eight bytes, most significant first, restore the 64-bit word. -/
theorem join64 (word : UInt64) :
    (word >>> 56).toUInt8.toUInt64 <<< 56 |||
      (word >>> 48).toUInt8.toUInt64 <<< 48 |||
      (word >>> 40).toUInt8.toUInt64 <<< 40 |||
      (word >>> 32).toUInt8.toUInt64 <<< 32 |||
      (word >>> 24).toUInt8.toUInt64 <<< 24 |||
      (word >>> 16).toUInt8.toUInt64 <<< 16 |||
      (word >>> 8).toUInt8.toUInt64 <<< 8 |||
      word.toUInt8.toUInt64 = word := by
  have lowest : word.toUInt8.toUInt64 =
      (word >>> 0).toUInt8.toUInt64 <<< 0 := by simp
  rw [lowest]
  apply UInt64.toBitVec_inj.1
  apply BitVec.eq_of_getLsbD_eq
  intro index inWord
  simp only [UInt64.toBitVec_or, BitVec.getLsbD_or]
  rw [byte64 word 56 index inWord (by decide),
    byte64 word 48 index inWord (by decide),
    byte64 word 40 index inWord (by decide),
    byte64 word 32 index inWord (by decide),
    byte64 word 24 index inWord (by decide),
    byte64 word 16 index inWord (by decide),
    byte64 word 8 index inWord (by decide),
    byte64 word 0 index inWord (by decide)]
  -- exactly one of the eight windows contains the bit
  cases word.toBitVec.getLsbD index
  · simp
  · simp only [UInt64.reduceToNat, Bool.and_true, Bool.or_eq_true,
      Bool.and_eq_true, decide_eq_true_eq]
    omega

/-- `getLsbD_byte` for 16-bit words. -/
theorem byte16 (word shift : UInt16) (index : Nat) (inWord : index < 16)
    (small : shift.toNat < 16) :
    ((word >>> shift).toUInt8.toUInt16 <<< shift).toBitVec.getLsbD index =
      (decide (shift.toNat ≤ index) && decide (index < shift.toNat + 8) &&
        word.toBitVec.getLsbD index) := by
  have reduced : (shift.toBitVec % 16).toNat = shift.toNat := by
    simpa using Nat.mod_eq_of_lt small
  rw [← getLsbD_byte word.toBitVec shift.toNat index inWord]
  simp only [UInt16.toBitVec_shiftLeft, UInt8.toBitVec_toUInt16,
    UInt16.toBitVec_toUInt8, UInt16.toBitVec_shiftRight,
    BitVec.shiftLeft_eq', BitVec.ushiftRight_eq']
  rw [reduced]

/-- Two bytes, most significant first, restore the 16-bit word. -/
theorem join16 (word : UInt16) :
    (word >>> 8).toUInt8.toUInt16 <<< 8 ||| word.toUInt8.toUInt16 = word := by
  have lowest : word.toUInt8.toUInt16 =
      (word >>> 0).toUInt8.toUInt16 <<< 0 := by simp
  rw [lowest]
  apply UInt16.toBitVec_inj.1
  apply BitVec.eq_of_getLsbD_eq
  intro index inWord
  simp only [UInt16.toBitVec_or, BitVec.getLsbD_or]
  rw [byte16 word 8 index inWord (by decide),
    byte16 word 0 index inWord (by decide)]
  cases word.toBitVec.getLsbD index
  · simp
  · simp only [UInt16.reduceToNat, Bool.and_true, Bool.or_eq_true,
      Bool.and_eq_true, decide_eq_true_eq]
    omega

/-- `getLsbD_byte` for 32-bit words whose bytes are put back into a 64-bit word. -/
theorem byte32 (word shift : UInt32) (wide : UInt64) (index : Nat) (inWord : index < 32)
    (small : shift.toNat < 32) (same : wide.toNat = shift.toNat) :
    ((word >>> shift).toUInt8.toUInt64 <<< wide).toUInt32.toBitVec.getLsbD index =
      (decide (shift.toNat ≤ index) && decide (index < shift.toNat + 8) &&
        word.toBitVec.getLsbD index) := by
  have reduced : (shift.toBitVec % 32).toNat = shift.toNat := by
    simpa using Nat.mod_eq_of_lt small
  have reducedWide : (wide.toBitVec % 64).toNat = shift.toNat := by
    simpa [same] using Nat.mod_eq_of_lt (show shift.toNat < 64 by omega)
  have inWide : index < 64 ∧ index - shift.toNat < 32 ∧ index - shift.toNat < 64 := by omega
  rw [← getLsbD_byte word.toBitVec shift.toNat index inWord]
  simp only [UInt64.toBitVec_toUInt32, UInt64.toBitVec_shiftLeft, UInt8.toBitVec_toUInt64,
    UInt32.toBitVec_toUInt8, UInt32.toBitVec_shiftRight, BitVec.shiftLeft_eq',
    BitVec.ushiftRight_eq', BitVec.getLsbD_setWidth, BitVec.getLsbD_shiftLeft]
  rw [reduced, reducedWide]
  simp [inWord, inWide]

/-- Four bytes, most significant first, restore the 32-bit word. -/
theorem join32 (word : UInt32) :
    ((word >>> 24).toUInt8.toUInt64 <<< 24 |||
      (word >>> 16).toUInt8.toUInt64 <<< 16 |||
      (word >>> 8).toUInt8.toUInt64 <<< 8 |||
      word.toUInt8.toUInt64).toUInt32 = word := by
  have lowest : word.toUInt8.toUInt64 =
      (word >>> 0).toUInt8.toUInt64 <<< 0 := by simp
  rw [lowest]
  apply UInt32.toBitVec_inj.1
  apply BitVec.eq_of_getLsbD_eq
  intro index inWord
  simp only [UInt64.toUInt32_or, UInt32.toBitVec_or, BitVec.getLsbD_or]
  rw [byte32 word 24 24 index inWord (by decide) rfl,
    byte32 word 16 16 index inWord (by decide) rfl,
    byte32 word 8 8 index inWord (by decide) rfl,
    byte32 word 0 0 index inWord (by decide) rfl]
  -- exactly one of the four windows contains the bit
  cases word.toBitVec.getLsbD index
  · simp
  · simp only [UInt32.reduceToNat, Bool.and_true, Bool.or_eq_true,
      Bool.and_eq_true, decide_eq_true_eq]
    omega

/-- Masking a byte with `0xFF` changes nothing. -/
@[simp] theorem mask_byte (byte : UInt8) : byte &&& 0xFF = byte := by
  apply UInt8.toNat_inj.1
  rw [UInt8.toNat_and]
  exact (Nat.and_two_pow_sub_one_eq_mod byte.toNat 8).trans
    (Nat.mod_eq_of_lt byte.toNat_lt)

end BigEndian

end BleRepeater
