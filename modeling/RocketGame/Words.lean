import Mathlib.Data.Nat.Bitwise
import Mathlib.Data.UInt

/-!
Bits of 32-bit words, tested and set with one-bit masks, and the sums, differences
and halves of signed 64-bit words as integers.
-/
namespace RocketGame.Words

/-- The mask test: the word and the one-bit mask have the bit in common. -/
def bitSet (w : UInt32) (k : ℕ) : Bool := w &&& (1 <<< UInt32.ofNat k) != 0

theorem toNat_mask {k : ℕ} (hk : k < 32) : ((1 : UInt32) <<< UInt32.ofNat k).toNat = 2 ^ k := by
  have hlt : 2 ^ k < 2 ^ 32 := Nat.pow_lt_pow_right (by omega) hk
  have hk' : k % 2 ^ 32 % 32 = k := by omega
  rw [UInt32.toNat_shiftLeft, UInt32.toNat_ofNat', hk', Nat.shiftLeft_eq, UInt32.toNat_one,
    one_mul, Nat.mod_eq_of_lt hlt]

theorem bitSet_eq_testBit (w : UInt32) {k : ℕ} (hk : k < 32) :
    bitSet w k = w.toNat.testBit k := by
  have hand : (w &&& (1 <<< UInt32.ofNat k)).toNat = (w.toNat.testBit k).toNat * 2 ^ k := by
    rw [UInt32.toNat_and, toNat_mask hk, Nat.and_two_pow]
  have hzero : (w &&& (1 <<< UInt32.ofNat k)) = 0 ↔ w.toNat.testBit k = false := by
    rw [← UInt32.toNat_inj, hand, UInt32.toNat_zero]
    have hpos : 0 < 2 ^ k := Nat.two_pow_pos k
    cases w.toNat.testBit k <;> simp
  cases hbit : w.toNat.testBit k with
  | false => simpa only [bitSet, bne_eq_false_iff_eq] using hzero.mpr hbit
  | true =>
    have hne : (w &&& (1 <<< UInt32.ofNat k)) ≠ 0 := fun h => by simp [hzero.mp h] at hbit
    simpa only [bitSet, bne_iff_ne] using hne

/-- Setting one bit sets that bit and keeps the others. -/
theorem bitSet_or_mask (w : UInt32) {k b : ℕ} (hk : k < 32) (hb : b < 32) :
    bitSet (w ||| (1 <<< UInt32.ofNat b)) k = (bitSet w k || decide (b = k)) := by
  rw [bitSet_eq_testBit _ hk, bitSet_eq_testBit _ hk, UInt32.toNat_or, toNat_mask hb,
    Nat.testBit_or, Nat.testBit_two_pow]

theorem bitSet_zero {k : ℕ} (hk : k < 32) : bitSet 0 k = false := by
  rw [bitSet_eq_testBit _ hk]
  simp

/-- A word is its 32 bits. -/
theorem eq_of_bitSet {w w' : UInt32} (h : ∀ k, k < 32 → bitSet w k = bitSet w' k) : w = w' := by
  rw [← UInt32.toNat_inj]
  apply Nat.eq_of_testBit_eq
  intro k
  by_cases hk : k < 32
  · rw [← bitSet_eq_testBit w hk, ← bitSet_eq_testBit w' hk, h k hk]
  · have hlarge : 2 ^ 32 ≤ 2 ^ k := Nat.pow_le_pow_right (by omega) (by omega)
    rw [Nat.testBit_lt_two_pow (Nat.lt_of_lt_of_le w.toNat_lt hlarge),
      Nat.testBit_lt_two_pow (Nat.lt_of_lt_of_le w'.toNat_lt hlarge)]

section Signed

def Fits64 (x : ℤ) : Prop := -2 ^ 63 ≤ x ∧ x < 2 ^ 63

theorem Fits64.bmod {x : ℤ} (h : Fits64 x) : x.bmod (2 ^ 64) = x := by
  obtain ⟨hlow, hhigh⟩ := h
  apply Int.bmod_eq_of_le
  · omega
  · omega

variable {a b : Int64}

theorem toInt_add_of_fits (h : Fits64 (a.toInt + b.toInt)) :
    (a + b).toInt = a.toInt + b.toInt := by
  rw [Int64.toInt_add, h.bmod]

theorem toInt_sub_of_fits (h : Fits64 (a.toInt - b.toInt)) :
    (a - b).toInt = a.toInt - b.toInt := by
  rw [Int64.toInt_sub, h.bmod]

/-- A difference of words in order can only be wrapped downwards. -/
theorem toInt_sub_le (h : a.toInt ≤ b.toInt) : (b - a).toInt ≤ b.toInt - a.toInt := by
  rw [Int64.toInt_sub, Int.bmod_def]
  split <;> omega

theorem toInt_half (a : Int64) : (a / 2).toInt = a.toInt.tdiv 2 :=
  Int64.toInt_div_of_ne_right a 2 (by decide)

/-- Halving truncates towards zero. -/
theorem tdiv_two (x : ℤ) : x.tdiv 2 = if 0 ≤ x then x / 2 else (x + 1) / 2 := by
  split
  · exact Int.tdiv_eq_ediv_of_nonneg ‹0 ≤ x›
  · have hneg : x.tdiv 2 = -((-x).tdiv 2) := by rw [Int.neg_tdiv, neg_neg]
    rw [hneg, Int.tdiv_eq_ediv_of_nonneg (by omega)]
    omega

end Signed

end RocketGame.Words
