import RocketGame.BurstErrors
import RocketGame.RegisterPolynomials

/-!
What CRC32.cpp computes. The table and the byte loop give the reflected CRC-32
taken bit by bit, and the register is the remainder of the message modulo the
CRC-32 polynomial, with 32 ones in front of the message and 32 ones added at the
end. How the message is cut into calls of update does not matter.
-/
namespace RocketGame.CrcCorrectness

open BurstErrors Crc32 RegisterPolynomials ShiftRegister
open Polynomial (X)
open scoped Polynomial

/-- One bit of the message: the polynomial is added when the bit that falls out
differs from it. -/
def crcBit (crc : UInt32) (b : Bool) : UInt32 :=
  if (decide (crc &&& 1 = 1)) ^^ b then (crc >>> 1) ^^^ 0xEDB88320 else crc >>> 1

/-- The reflected CRC-32, bit by bit, low bit of each byte first. -/
def bitwiseCrc32 (data : List UInt8) : UInt32 :=
  (bits data).foldl crcBit 0xFFFFFFFF ^^^ 0xFFFFFFFF

noncomputable def crcPolynomial : (ZMod 2)[X] :=
  X ^ 32 + X ^ 26 + X ^ 23 + X ^ 22 + X ^ 16 + X ^ 12 + X ^ 11 + X ^ 10 + X ^ 8 + X ^ 7 +
    X ^ 5 + X ^ 4 + X ^ 2 + X + 1

/-- The message with the low bit of its first byte at the highest power. -/
noncomputable def message (data : List UInt8) : (ZMod 2)[X] := ofBits (bits data)

noncomputable def ones : (ZMod 2)[X] := ∑ i ∈ Finset.range 32, X ^ i

section Bitwise

theorem toBitVec_crcBit (crc : UInt32) (b : Bool) :
    (crcBit crc b).toBitVec = shift taps (crc.toBitVec ^^^ bit b) := by
  have hlow : decide (crc &&& 1 = 1) = crc.toBitVec.getLsbD 0 := by
    have hand : (crc &&& 1).toBitVec =
        BitVec.setWidth 32 (BitVec.ofBool (crc.toBitVec.getLsbD 0)) :=
      (UInt32.toBitVec_and crc 1).trans BitVec.and_one_eq_setWidth_ofBool_getLsbD
    have hand' : crc &&& 1 = if crc.toBitVec.getLsbD 0 then 1 else 0 := by
      rw [← UInt32.toBitVec_inj, hand]
      cases crc.toBitVec.getLsbD 0 <;> rfl
    rw [hand']
    cases crc.toBitVec.getLsbD 0 <;> decide
  have hout : (crc.toBitVec ^^^ bit b).getLsbD 0 = (crc.toBitVec.getLsbD 0 ^^ b) := by
    rw [BitVec.getLsbD_xor, getLsbD_bit]
    simp
  have hmoved : (crc.toBitVec ^^^ bit b) >>> 1 = crc.toBitVec >>> 1 := by
    apply BitVec.eq_of_getLsbD_eq
    intro i _
    rw [BitVec.getLsbD_ushiftRight, BitVec.getLsbD_ushiftRight, BitVec.getLsbD_xor, getLsbD_bit]
    simp
  rw [crcBit, shift, hlow, hout, hmoved]
  split
  · exact BitVec.xor_comm ..
  · rfl

theorem toBitVec_foldl_crcBit (crc : UInt32) (message : List Bool) :
    (message.foldl crcBit crc).toBitVec = feed taps crc.toBitVec message := by
  induction message generalizing crc with
  | nil => rfl
  | cons b message ih =>
    rw [List.foldl_cons, ih, toBitVec_crcBit]
    rfl

theorem calculate_eq_bitwiseCrc32 (data : List UInt8) : calculate data = bitwiseCrc32 data := by
  have hregister : update reset data = (bits data).foldl crcBit reset := by
    rw [← UInt32.toBitVec_inj, toBitVec_update, toBitVec_foldl_crcBit]
  rw [calculate, hregister]
  rfl

end Bitwise

section Division

theorem generator_taps : generator taps = crcPolynomial := by
  have hbits : registerBits taps =
      [false, false, false, false, false, true, false, false, true, true, false, false, false,
        false, false, true, false, false, false, true, true, true, false, true, true, false, true,
        true, false, true, true, true] := by decide
  rw [generator, ofRegister, hbits, crcPolynomial]
  simp [ofBits, bitCoeff]
  ring

theorem ofRegister_ones : ofRegister (0xFFFFFFFF : UInt32).toBitVec = ones := by
  have hbits : registerBits (0xFFFFFFFF : UInt32).toBitVec = List.replicate 32 true := by decide
  have hones : ∀ n, ofBits (List.replicate n true) = ∑ i ∈ Finset.range n, X ^ i := by
    intro n
    induction n with
    | zero => rfl
    | succ n ih =>
      rw [List.replicate_succ, ofBits, ih, Finset.sum_range_succ, List.length_replicate, add_comm]
      simp [bitCoeff]
  rw [ofRegister, hbits, hones, ones]

theorem ofRegister_calculate (data : List UInt8) :
    ofRegister (calculate data).toBitVec =
      (X ^ (8 * data.length) * ones + X ^ 32 * message data) %ₘ crcPolynomial + ones := by
  have hregister := ofRegister_feed taps (by decide) reset.toBitVec (bits data)
  have hreset : ofRegister reset.toBitVec = ones := ofRegister_ones
  rw [← toBitVec_update, length_bits, generator_taps, hreset] at hregister
  rw [calculate, value, UInt32.toBitVec_xor, ofRegister_xor, hregister, ofRegister_ones, message]

end Division

theorem foldl_update (crc : UInt32) (chunks : List (List UInt8)) :
    chunks.foldl update crc = update crc chunks.flatten := by
  induction chunks generalizing crc with
  | nil => rfl
  | cons chunk chunks ih =>
    rw [List.foldl_cons, ih, List.flatten_cons, update, update, update, List.foldl_append]

/-- The table-driven value is the bitwise one, it is the remainder of the
polynomial division, and it does not depend on the chunks. -/
theorem crc32_correct (data : List UInt8) (chunks : List (List UInt8)) :
    calculate data = bitwiseCrc32 data ∧
    ofRegister (calculate data).toBitVec =
      (X ^ (8 * data.length) * ones + X ^ 32 * message data) %ₘ crcPolynomial + ones ∧
    value (chunks.foldl update reset) = calculate chunks.flatten :=
  ⟨calculate_eq_bitwiseCrc32 data, ofRegister_calculate data,
    congrArg value (foldl_update reset chunks)⟩

end RocketGame.CrcCorrectness
