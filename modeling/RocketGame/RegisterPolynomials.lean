import Mathlib
import RocketGame.ShiftRegister

/-!
A feedback register divides polynomials over GF(2). A list of bits is a
polynomial, highest power first, and the low end of the register holds its
highest power. What the register holds after some bits is the remainder of the
message, moved up by the width, modulo the polynomial of the taps.
-/
namespace RocketGame.RegisterPolynomials

open Polynomial ShiftRegister

variable {w : ℕ}

def bitCoeff (b : Bool) : ZMod 2 := if b then 1 else 0

noncomputable def ofBits : List Bool → (ZMod 2)[X]
  | [] => 0
  | b :: bits => C (bitCoeff b) * X ^ bits.length + ofBits bits

def registerBits (c : BitVec w) : List Bool := (List.range w).map c.getLsbD

noncomputable def ofRegister (c : BitVec w) : (ZMod 2)[X] := ofBits (registerBits c)

/-- The taps stand below the highest power, which is not stored. -/
noncomputable def generator (taps : BitVec w) : (ZMod 2)[X] := X ^ w + ofRegister taps

theorem bitCoeff_xor (a b : Bool) : bitCoeff (a ^^ b) = bitCoeff a + bitCoeff b := by
  cases a <;> cases b <;> decide

section Bits

theorem ofBits_append_singleton (bits : List Bool) (b : Bool) :
    ofBits (bits ++ [b]) = X * ofBits bits + C (bitCoeff b) := by
  induction bits with
  | nil => simp [ofBits]
  | cons a bits ih =>
    rw [List.cons_append, ofBits, ih, ofBits, List.length_append, List.length_singleton]
    ring

theorem ofBits_zipWith_xor {a b : List Bool} (hlen : a.length = b.length) :
    ofBits (List.zipWith xor a b) = ofBits a + ofBits b := by
  induction a generalizing b with
  | nil =>
    obtain rfl := List.length_eq_zero_iff.mp hlen.symm
    simp [ofBits]
  | cons x a ih =>
    cases b with
    | nil => cases hlen
    | cons y b =>
      have hrest : a.length = b.length := Nat.succ.inj hlen
      rw [List.zipWith_cons_cons, ofBits, ih hrest, ofBits, ofBits, List.length_zipWith, hrest,
        Nat.min_self, bitCoeff_xor, C_add]
      ring

theorem degree_ofBits_lt (bits : List Bool) : (ofBits bits).degree < bits.length := by
  induction bits with
  | nil => simp [ofBits]
  | cons b bits ih =>
    have hhead : (C (bitCoeff b) * X ^ bits.length : (ZMod 2)[X]).degree ≤ bits.length :=
      degree_C_mul_X_pow_le ..
    have hlt : ((bits.length : ℕ) : WithBot ℕ) < (b :: bits).length := by
      rw [List.length_cons]
      exact_mod_cast Nat.lt_succ_self _
    exact lt_of_le_of_lt (degree_add_le _ _) (max_lt (hhead.trans_lt hlt) (ih.trans hlt))

end Bits

section Register

theorem length_registerBits (c : BitVec w) : (registerBits c).length = w := by
  rw [registerBits, List.length_map, List.length_range]

theorem degree_ofRegister_lt (c : BitVec w) : (ofRegister c).degree < w := by
  have hdegree := degree_ofBits_lt (registerBits c)
  rwa [length_registerBits] at hdegree

theorem ofRegister_xor (a b : BitVec w) :
    ofRegister (a ^^^ b) = ofRegister a + ofRegister b := by
  have hbits : registerBits (a ^^^ b) = List.zipWith xor (registerBits a) (registerBits b) := by
    rw [registerBits, registerBits, registerBits, List.zipWith_map, List.zipWith_self]
    exact List.map_congr_left fun i _ => BitVec.getLsbD_xor
  rw [ofRegister, hbits, ofBits_zipWith_xor]
  · rfl
  · rw [length_registerBits, length_registerBits]

theorem ofRegister_zero : ofRegister (0#w) = 0 := by
  have hself := ofRegister_xor (0#w) (0#w)
  rwa [BitVec.xor_self, CharTwo.add_self_eq_zero] at hself

/-- The bit that falls out is the coefficient at the width. -/
theorem X_mul_ofRegister (c : BitVec w) :
    X * ofRegister c = C (bitCoeff (c.getLsbD 0)) * X ^ w + ofRegister (c >>> 1) := by
  cases w with
  | zero =>
    simp [ofRegister, registerBits, ofBits, bitCoeff]
  | succ w =>
    let high := (List.range w).map fun i => c.getLsbD (i + 1)
    have hbits : registerBits c = c.getLsbD 0 :: high := by
      rw [registerBits, List.range_succ_eq_map, List.map_cons, List.map_map]
      rfl
    have hmoved : registerBits (c >>> 1) = high ++ [false] := by
      rw [registerBits, List.range_succ, List.map_append, List.map_singleton]
      congr 1
      · apply List.map_congr_left
        intro i _
        exact (BitVec.getLsbD_ushiftRight ..).trans (congrArg c.getLsbD (Nat.add_comm 1 i))
      · rw [BitVec.getLsbD_ushiftRight, BitVec.getLsbD_of_ge c _ (by omega)]
    rw [ofRegister, ofRegister, hbits, hmoved, ofBits_append_singleton, ofBits]
    simp only [high, List.length_map, List.length_range, bitCoeff, Bool.false_eq_true, if_false,
      C_0]
    ring

theorem monic_generator (taps : BitVec w) : (generator taps).Monic :=
  monic_X_pow_add (degree_ofRegister_lt taps)

theorem degree_generator (taps : BitVec w) : (generator taps).degree = w := by
  rw [generator, degree_add_eq_left_of_degree_lt, degree_X_pow]
  rw [degree_X_pow]
  exact degree_ofRegister_lt taps

end Register

section Division

variable (taps : BitVec w)

/-- One shift is one step of the division; the bit that falls out is the digit. -/
theorem ofRegister_shift (c : BitVec w) :
    ofRegister (shift taps c) + generator taps * C (bitCoeff (c.getLsbD 0)) =
      X * ofRegister c := by
  rw [X_mul_ofRegister, generator, shift]
  cases c.getLsbD 0 with
  | false => simp [bitCoeff]
  | true =>
    have hcancel : ofRegister taps + ofRegister taps = 0 := CharTwo.add_self_eq_zero _
    rw [if_pos rfl, ofRegister_xor]
    simp only [bitCoeff, if_true, C_1, one_mul, mul_one]
    calc
      _ = X ^ w + ofRegister (c >>> 1) + (ofRegister taps + ofRegister taps) := by ring
      _ = _ := by rw [hcancel, add_zero]

theorem X_mul_ofRegister_bit (hw : 0 < w) (b : Bool) :
    X * ofRegister (bit b : BitVec w) = C (bitCoeff b) * X ^ w := by
  have hlow : (bit b : BitVec w).getLsbD 0 = b := by
    rw [getLsbD_bit]
    simp [hw]
  have hmoved : (bit b : BitVec w) >>> 1 = 0#w := by
    apply BitVec.eq_of_getLsbD_eq
    intro i _
    rw [BitVec.getLsbD_ushiftRight, getLsbD_bit]
    simp
  rw [X_mul_ofRegister, hlow, hmoved, ofRegister_zero, add_zero]

/-- The quotient is not kept; its digits are the bits that fell out. -/
theorem exists_quotient (hw : 0 < w) (c : BitVec w) (bits : List Bool) :
    ∃ q, ofRegister (feed taps c bits) + generator taps * q =
      X ^ bits.length * ofRegister c + X ^ w * ofBits bits := by
  induction bits using List.reverseRecOn with
  | nil => exact ⟨0, by simp [feed, ofBits]⟩
  | append_singleton bits b ih =>
    obtain ⟨q, hq⟩ := ih
    let c' := feed taps c bits ^^^ bit b
    have hfeed : feed taps c (bits ++ [b]) = shift taps c' := by
      rw [feed_append]
      rfl
    have hstep := ofRegister_shift taps c'
    rw [ofRegister_xor, mul_add, X_mul_ofRegister_bit hw] at hstep
    refine ⟨C (bitCoeff (c'.getLsbD 0)) + X * q, ?_⟩
    rw [hfeed, ofBits_append_singleton, List.length_append, List.length_singleton]
    calc
      _ = (ofRegister (shift taps c') + generator taps * C (bitCoeff (c'.getLsbD 0))) +
          X * (generator taps * q) := by ring
      _ = X * (ofRegister (feed taps c bits) + generator taps * q) +
          C (bitCoeff b) * X ^ w := by rw [hstep]; ring
      _ = _ := by rw [hq]; ring

/-- The register after the message holds the remainder of the division. -/
theorem ofRegister_feed (hw : 0 < w) (c : BitVec w) (bits : List Bool) :
    ofRegister (feed taps c bits) =
      (X ^ bits.length * ofRegister c + X ^ w * ofBits bits) %ₘ generator taps := by
  obtain ⟨q, hq⟩ := exists_quotient taps hw c bits
  have hdegree : (ofRegister (feed taps c bits)).degree < (generator taps).degree := by
    rw [degree_generator]
    exact degree_ofRegister_lt _
  exact (div_modByMonic_unique q _ (monic_generator taps) ⟨hq, hdegree⟩).2.symm

end Division

end RocketGame.RegisterPolynomials
