import Mathlib.Algebra.Order.Ring.Nat
import Mathlib.Tactic.NormNum
import Mathlib.Tactic.Ring

/-!
Big-endian bytes of natural numbers. A number becomes exactly w bytes, most
significant first, and digits above the width are dropped; w bytes become a
number below 256 ^ w. The two directions invert each other.
-/
namespace RocketGame.BigEndian

def encode : ℕ → ℕ → List UInt8
  | 0, _ => []
  | w + 1, n => UInt8.ofNat (n / 256 ^ w) :: encode w n

def decode : List UInt8 → ℕ
  | [] => 0
  | b :: bs => b.toNat * 256 ^ bs.length + decode bs

@[simp] theorem length_encode (w n : ℕ) : (encode w n).length = w := by
  induction w with
  | zero => rfl
  | succ w ih => simp only [encode, List.length_cons, ih]

theorem decode_encode (w n : ℕ) : decode (encode w n) = n % 256 ^ w := by
  induction w with
  | zero => simp [encode, decode, Nat.mod_one]
  | succ w ih =>
    have hdigit : (UInt8.ofNat (n / 256 ^ w)).toNat = n / 256 ^ w % 256 := by simp
    simp only [encode, decode, length_encode, ih, hdigit]
    rw [pow_succ, Nat.mod_mul, Nat.mul_comm, Nat.add_comm]

theorem decode_encode_of_lt {w n : ℕ} (h : n < 256 ^ w) : decode (encode w n) = n := by
  rw [decode_encode, Nat.mod_eq_of_lt h]

theorem decode_lt (bs : List UInt8) : decode bs < 256 ^ bs.length := by
  induction bs with
  | nil => simp [decode]
  | cons b bs ih =>
    have hb := b.toNat_lt
    have hdigit : b.toNat * 256 ^ bs.length ≤ 255 * 256 ^ bs.length :=
      Nat.mul_le_mul_right _ (by omega)
    rw [decode, List.length_cons, pow_succ]
    omega

/-- Digits above the width do not show. -/
theorem encode_add_mul (w n k : ℕ) : encode w (n + k * 256 ^ w) = encode w n := by
  induction w generalizing k with
  | zero => rfl
  | succ w ih =>
    have hsplit : n + k * 256 ^ (w + 1) = n + k * 256 * 256 ^ w := by ring
    have hdiv : (n + k * 256 * 256 ^ w) / 256 ^ w = n / 256 ^ w + k * 256 :=
      Nat.add_mul_div_right _ _ (Nat.pow_pos (by decide))
    have hdigit : UInt8.ofNat (n / 256 ^ w + k * 256) = UInt8.ofNat (n / 256 ^ w) := by
      rw [← UInt8.toNat_inj, UInt8.toNat_ofNat', UInt8.toNat_ofNat']
      omega
    rw [encode, encode, hsplit, hdiv, hdigit, ih]

theorem encode_decode (bs : List UInt8) : encode bs.length (decode bs) = bs := by
  induction bs with
  | nil => rfl
  | cons b bs ih =>
    have hdiv : (decode bs + b.toNat * 256 ^ bs.length) / 256 ^ bs.length = b.toNat := by
      rw [Nat.add_mul_div_right _ _ (Nat.pow_pos (by decide)), Nat.div_eq_of_lt (decode_lt bs),
        Nat.zero_add]
    rw [decode, List.length_cons, encode, Nat.add_comm, hdiv, encode_add_mul, ih,
      UInt8.ofNat_toNat]

end RocketGame.BigEndian
