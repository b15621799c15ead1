import Mathlib.Algebra.Order.Ring.Unbundled.Rat
import Mathlib.Algebra.Order.Field.Basic
import Mathlib.Data.Rat.Cast.Order
import Mathlib.Tactic.Linarith
import RocketGame.NearestIndex

/-!
Binary floating point in 32 bits, on the bit patterns: a sign, eight bits of exponent and
23 bits of fraction. Sums, differences, products and quotients are exact and then rounded
to the nearest number, ties to even; what is too large becomes infinite, and what has no
value is not a number. The patterns without a sign number the magnitudes in their order,
infinity included, so that rounding is the rounding to an index.
-/
namespace RocketGame.Binary32

open NearestIndex

/-- The index of infinity: all bits of the exponent and none of the fraction. -/
def infinity : ℕ := 255 * 2 ^ 23

/-- A magnitude in units of the least one. Below the normal numbers the fraction has no
leading bit. -/
def units (n : ℕ) : ℕ :=
  if n < 2 ^ 23 then n else (2 ^ 23 + n % 2 ^ 23) * 2 ^ (n / 2 ^ 23 - 1)

def magnitude (n : ℕ) : ℚ := units n / 2 ^ 149

def index (w : UInt32) : ℕ := w.toNat % 2 ^ 31

def negative (w : UInt32) : Bool := decide (2 ^ 31 ≤ w.toNat)

def isNaN (w : UInt32) : Bool := decide (infinity < index w)

def isFinite (w : UInt32) : Bool := decide (index w < infinity)

def isInfinite (w : UInt32) : Bool := decide (index w = infinity)

/-- The number, or two to the 128 with its sign for what is infinite. -/
def value (w : UInt32) : ℚ := if negative w then -magnitude (index w) else magnitude (index w)

def pack (sign : Bool) (n : ℕ) : UInt32 := UInt32.ofNat (if sign then 2 ^ 31 + n else n)

def notANumber : UInt32 := 0x7fc00000

/-- A zero keeps the sign it is given. -/
def encode (q : ℚ) (sign : Bool) : UInt32 :=
  if q < 0 then pack true (nearest magnitude 31 infinity (-q))
  else if 0 < q then pack false (nearest magnitude 31 infinity q)
  else pack sign 0

def literal (q : ℚ) : UInt32 := encode q false

def neg (x : UInt32) : UInt32 := pack (!negative x) (index x)

def add (x y : UInt32) : UInt32 :=
  if isNaN x || isNaN y then notANumber
  else if isInfinite x then
    if isInfinite y && negative x != negative y then notANumber else x
  else if isInfinite y then y
  else encode (value x + value y) (negative x && negative y)

def sub (x y : UInt32) : UInt32 := add x (neg y)

def mul (x y : UInt32) : UInt32 :=
  if isNaN x || isNaN y then notANumber
  else if isInfinite x || isInfinite y then
    if value x * value y = 0 then notANumber
    else pack (negative x != negative y) infinity
  else encode (value x * value y) (negative x != negative y)

def div (x y : UInt32) : UInt32 :=
  if isNaN x || isNaN y then notANumber
  else if isInfinite x then
    if isInfinite y then notANumber else pack (negative x != negative y) infinity
  else if isInfinite y then pack (negative x != negative y) 0
  else if value y = 0 then
    if value x = 0 then notANumber else pack (negative x != negative y) infinity
  else encode (value x / value y) (negative x != negative y)

/-- The comparisons, false where one side is not a number. -/
def lt (x y : UInt32) : Bool := !isNaN x && !isNaN y && decide (value x < value y)

def le (x y : UInt32) : Bool := !isNaN x && !isNaN y && decide (value x ≤ value y)

section Magnitudes

/-- The distance of neighbours doubles with every exponent. -/
theorem units_succ (n : ℕ) : units (n + 1) = units n + 2 ^ (n / 2 ^ 23 - 1) := by
  unfold units
  by_cases hsmall : n < 2 ^ 23
  · have hgap : n / 2 ^ 23 - 1 = 0 := by rw [Nat.div_eq_of_lt hsmall]
    rw [if_pos hsmall, hgap, pow_zero]
    by_cases hnext : n + 1 < 2 ^ 23
    · rw [if_pos hnext]
    · obtain rfl : n = 2 ^ 23 - 1 := by omega
      rfl
  · rw [if_neg hsmall, if_neg (by omega)]
    obtain ⟨e, he⟩ : ∃ e, n / 2 ^ 23 = e + 1 := ⟨n / 2 ^ 23 - 1, by omega⟩
    by_cases hcarry : n % 2 ^ 23 + 1 = 2 ^ 23
    · have hquotient : (n + 1) / 2 ^ 23 = e + 2 := by omega
      have hrest : (n + 1) % 2 ^ 23 = 0 := by omega
      have hlast : n % 2 ^ 23 = 2 ^ 23 - 1 := by omega
      rw [hquotient, hrest, he, hlast, Nat.add_sub_cancel,
        show e + 2 - 1 = e + 1 from rfl, pow_succ]
      omega
    · have hquotient : (n + 1) / 2 ^ 23 = e + 1 := by omega
      have hrest : (n + 1) % 2 ^ 23 = n % 2 ^ 23 + 1 := by omega
      rw [hquotient, hrest, he, Nat.add_sub_cancel, ← Nat.add_assoc, Nat.add_mul, Nat.one_mul]

theorem magnitude_succ (n : ℕ) :
    magnitude (n + 1) = magnitude n + 2 ^ (n / 2 ^ 23 - 1) / 2 ^ 149 := by
  rw [magnitude, magnitude, units_succ, ← add_div, Nat.cast_add, Nat.cast_pow, Nat.cast_two]

theorem strictMono_magnitude : StrictMono magnitude :=
  strictMono_nat_of_lt_succ fun n => by
    rw [magnitude_succ]
    exact lt_add_of_pos_right _ (div_pos (pow_pos two_pos _) (pow_pos two_pos _))

theorem magnitude_zero : magnitude 0 = 0 := by
  rw [magnitude, units, if_pos (by decide), Nat.cast_zero, zero_div]

theorem magnitude_nonneg (n : ℕ) : 0 ≤ magnitude n :=
  magnitude_zero ▸ strictMono_magnitude.monotone n.zero_le

theorem infinity_lt : infinity < 2 ^ 31 := by decide

def powerIndex (e : ℕ) : ℕ := (e + 127) * 2 ^ 23

theorem powerIndex_div (e : ℕ) : powerIndex e / 2 ^ 23 = e + 127 :=
  Nat.mul_div_cancel _ (by decide)

theorem magnitude_powerIndex (e : ℕ) : magnitude (powerIndex e) = 2 ^ e := by
  have hnormal : ¬powerIndex e < 2 ^ 23 := by
    unfold powerIndex
    omega
  have hunits : units (powerIndex e) = 2 ^ e * 2 ^ 149 := by
    rw [units, if_neg hnormal, powerIndex_div, powerIndex, Nat.mul_mod_left, Nat.add_zero,
      ← pow_add, ← pow_add]
    congr 1
    omega
  rw [magnitude, hunits, Nat.cast_mul, Nat.cast_pow, Nat.cast_pow, Nat.cast_two,
    mul_div_cancel_right₀ _ (pow_ne_zero 149 two_ne_zero)]

theorem magnitude_powerIndex_succ (e : ℕ) :
    magnitude (powerIndex e + 1) = 2 ^ e + 2 ^ e / 2 ^ 23 := by
  have hgap : (2 : ℚ) ^ (e + 126) / 2 ^ 149 = 2 ^ e / 2 ^ 23 := by
    rw [pow_add, div_eq_div_iff (pow_ne_zero _ two_ne_zero) (pow_ne_zero _ two_ne_zero), mul_assoc,
      ← pow_add]
  rw [magnitude_succ, magnitude_powerIndex, powerIndex_div, show e + 127 - 1 = e + 126 from rfl,
    hgap]

end Magnitudes

section Patterns

variable {w x y lo hi : UInt32} {q : ℚ} {sign : Bool} {n : ℕ}

def IsNumber (w : UInt32) : Prop := index w ≤ infinity

instance : DecidablePred IsNumber := fun w => inferInstanceAs (Decidable (index w ≤ infinity))

theorem isNaN_eq_false_iff : isNaN w = false ↔ IsNumber w := by
  rw [isNaN, decide_eq_false_iff_not, not_lt, IsNumber]

theorem isNumber_of_isFinite (h : isFinite w = true) : IsNumber w := (of_decide_eq_true h).le

theorem toNat_pack (h : n ≤ infinity) :
    (pack sign n).toNat = if sign then 2 ^ 31 + n else n := by
  have hsmall : n < 2 ^ 31 := h.trans_lt infinity_lt
  rw [pack, UInt32.toNat_ofNat_of_lt']
  cases sign
  · exact hsmall.trans (by decide)
  · exact Nat.add_lt_add_left hsmall (2 ^ 31)

theorem index_pack (h : n ≤ infinity) : index (pack sign n) = n := by
  have hsmall : n < 2 ^ 31 := h.trans_lt infinity_lt
  rw [index, toNat_pack h]
  cases sign
  · exact Nat.mod_eq_of_lt hsmall
  · exact (Nat.add_mod_left _ _).trans (Nat.mod_eq_of_lt hsmall)

theorem negative_pack (h : n ≤ infinity) : negative (pack sign n) = sign := by
  have hsmall : n < 2 ^ 31 := h.trans_lt infinity_lt
  rw [negative, toNat_pack h]
  cases sign
  · exact decide_eq_false (not_le.mpr hsmall)
  · exact decide_eq_true (Nat.le_add_right _ _)

theorem value_pack (h : n ≤ infinity) :
    value (pack sign n) = if sign then -magnitude n else magnitude n := by
  rw [value, negative_pack h, index_pack h]

theorem abs_value (w : UInt32) : |value w| = magnitude (index w) := by
  unfold value
  split
  · rw [abs_neg, abs_of_nonneg (magnitude_nonneg _)]
  · rw [abs_of_nonneg (magnitude_nonneg _)]

/-- A number between finite ones is finite. -/
theorem isFinite_of_between (hx : IsNumber x) (hlo : isFinite lo = true) (hhi : isFinite hi = true)
    (hlow : value lo ≤ value x) (hhigh : value x ≤ value hi) : isFinite x = true := by
  refine decide_eq_true (hx.lt_of_ne fun hinfinite => ?_)
  have hbound : ∀ {w}, isFinite w = true → |value w| < magnitude (index x) := by
    intro w hw
    rw [abs_value, hinfinite]
    exact strictMono_magnitude (of_decide_eq_true hw)
  have hself : |value x| < magnitude (index x) :=
    abs_lt.mpr ⟨(abs_lt.mp (hbound hlo)).1.trans_le hlow,
      hhigh.trans_lt (abs_lt.mp (hbound hhi)).2⟩
  exact absurd (abs_value x) hself.ne

end Patterns

section Rounding

variable {w x y lo hi : UInt32} {q : ℚ} {sign : Bool} {n : ℕ}

theorem nearest_le_infinity (hq : 0 ≤ q) : nearest magnitude 31 infinity q ≤ infinity :=
  nearest_le_top strictMono_magnitude infinity_lt (magnitude_zero.trans_le hq)

theorem isNumber_encode (q : ℚ) (sign : Bool) : IsNumber (encode q sign) := by
  unfold encode IsNumber
  split
  · next hneg =>
    have hle := nearest_le_infinity (neg_nonneg.mpr hneg.le)
    rw [index_pack hle]
    exact hle
  · split
    · next hpos =>
      have hle := nearest_le_infinity hpos.le
      rw [index_pack hle]
      exact hle
    · rw [index_pack (Nat.zero_le _)]
      exact Nat.zero_le _

theorem value_encode (q : ℚ) (sign : Bool) : value (encode q sign) =
    if q < 0 then -magnitude (nearest magnitude 31 infinity (-q))
    else if 0 < q then magnitude (nearest magnitude 31 infinity q) else 0 := by
  unfold encode
  split
  · next hneg => exact value_pack (nearest_le_infinity (neg_nonneg.mpr hneg.le))
  · split
    · next hpos => exact value_pack (nearest_le_infinity hpos.le)
    · rw [value_pack (Nat.zero_le _), magnitude_zero, neg_zero, ite_self]

theorem index_encode (q : ℚ) (sign : Bool) :
    index (encode q sign) = nearest magnitude 31 infinity |q| := by
  unfold encode
  rcases lt_trichotomy q 0 with hq | rfl | hq
  · rw [if_pos hq, abs_of_neg hq, index_pack (nearest_le_infinity (neg_nonneg.mpr hq.le))]
  · have hzero := nearest_apply strictMono_magnitude infinity_lt (Nat.zero_le infinity)
    rw [magnitude_zero] at hzero
    rw [if_neg (lt_irrefl _), if_neg (lt_irrefl _), abs_zero, hzero, index_pack (Nat.zero_le _)]
  · rw [if_neg (not_lt.mpr hq.le), if_pos hq, abs_of_pos hq, index_pack (nearest_le_infinity hq.le)]

theorem value_encode_neg (q : ℚ) (sign sign' : Bool) :
    value (encode (-q) sign) = -value (encode q sign') := by
  rw [value_encode, value_encode, neg_neg]
  rcases lt_trichotomy q 0 with hq | rfl | hq
  · rw [if_neg (not_lt.mpr (neg_nonneg.mpr hq.le)), if_pos (neg_pos.mpr hq), if_pos hq, neg_neg]
  · rw [neg_zero, if_neg (lt_irrefl _), if_neg (lt_irrefl _), neg_zero]
  · rw [if_pos (neg_lt_zero.mpr hq), if_neg (not_lt.mpr hq.le), if_pos hq]

/-- Rounding does not pass a number that lies below. -/
theorem le_value_encode (hw : IsNumber w) (h : value w ≤ q) : value w ≤ value (encode q sign) := by
  have habs := abs_value w
  rw [value_encode]
  rcases lt_trichotomy q 0 with hq | rfl | hq
  · rw [if_pos hq]
    rw [abs_of_nonpos (h.trans hq.le)] at habs
    have hnearest : nearest magnitude 31 infinity (-q) ≤ index w :=
      nearest_le strictMono_magnitude infinity_lt
        (magnitude_zero.trans_le (neg_nonneg.mpr hq.le)) hw (habs ▸ neg_le_neg h)
    have hmagnitude := strictMono_magnitude.monotone hnearest
    rw [← habs] at hmagnitude
    exact le_neg_of_le_neg hmagnitude
  · rw [if_neg (lt_irrefl _), if_neg (lt_irrefl _)]
    exact h
  · rw [if_neg (not_lt.mpr hq.le), if_pos hq]
    rcases le_total (value w) 0 with hneg | hpos
    · exact hneg.trans (magnitude_nonneg _)
    · rw [abs_of_nonneg hpos] at habs
      rw [habs] at h ⊢
      exact strictMono_magnitude.monotone (le_nearest strictMono_magnitude infinity_lt hw h)

theorem index_neg (hx : IsNumber x) : index (neg x) = index x := index_pack hx

theorem value_neg (hx : IsNumber x) : value (neg x) = -value x := by
  rw [neg, value_pack hx, value]
  cases negative x
  · rfl
  · exact (neg_neg _).symm

/-- Rounding does not pass a number that lies above. -/
theorem value_encode_le (hw : IsNumber w) (h : q ≤ value w) : value (encode q sign) ≤ value w := by
  have hneg : IsNumber (neg w) := (index_neg hw).trans_le hw
  have hle : value (neg w) ≤ value (encode (-q) sign) :=
    le_value_encode hneg ((value_neg hw).trans_le (neg_le_neg h))
  rw [value_neg hw, value_encode_neg q sign sign] at hle
  exact neg_le_neg_iff.mp hle

theorem value_encode_value (hw : IsNumber w) : value (encode (value w) sign) = value w :=
  le_antisymm (value_encode_le hw le_rfl) (le_value_encode hw le_rfl)

structure Between (lo x hi : UInt32) : Prop where
  number : IsNumber x
  low : value lo ≤ value x
  high : value x ≤ value hi

theorem between_encode (hlo : IsNumber lo) (hhi : IsNumber hi) (hlow : value lo ≤ q)
    (hhigh : q ≤ value hi) : Between lo (encode q sign) hi :=
  ⟨isNumber_encode q sign, le_value_encode hlo hlow, value_encode_le hhi hhigh⟩

theorem Between.isFinite (h : Between lo x hi) (hlo : isFinite lo = true)
    (hhi : isFinite hi = true) : isFinite x = true :=
  isFinite_of_between h.number hlo hhi h.low h.high

end Rounding

section Operations

variable {x y : UInt32}

theorem isInfinite_of_isFinite (h : isFinite x = true) : isInfinite x = false :=
  decide_eq_false (of_decide_eq_true h).ne

theorem isNaN_of_isFinite (h : isFinite x = true) : isNaN x = false :=
  isNaN_eq_false_iff.mpr (isNumber_of_isFinite h)

theorem isFinite_neg (h : isFinite x = true) : isFinite (neg x) = true := by
  rw [isFinite, index_neg (isNumber_of_isFinite h)]
  exact h

theorem add_of_isFinite (hx : isFinite x = true) (hy : isFinite y = true) :
    add x y = encode (value x + value y) (negative x && negative y) := by
  simp only [add, isNaN_of_isFinite hx, isNaN_of_isFinite hy, isInfinite_of_isFinite hx,
    isInfinite_of_isFinite hy, Bool.or_self, Bool.false_eq_true, if_false]

theorem sub_of_isFinite (hx : isFinite x = true) (hy : isFinite y = true) :
    sub x y = encode (value x - value y) (negative x && negative (neg y)) := by
  rw [sub, add_of_isFinite hx (isFinite_neg hy), value_neg (isNumber_of_isFinite hy),
    ← sub_eq_add_neg]

theorem mul_of_isFinite (hx : isFinite x = true) (hy : isFinite y = true) :
    mul x y = encode (value x * value y) (negative x != negative y) := by
  simp only [mul, isNaN_of_isFinite hx, isNaN_of_isFinite hy, isInfinite_of_isFinite hx,
    isInfinite_of_isFinite hy, Bool.or_self, Bool.false_eq_true, if_false]

theorem div_of_isFinite (hx : isFinite x = true) (hy : isFinite y = true) (hzero : value y ≠ 0) :
    div x y = encode (value x / value y) (negative x != negative y) := by
  simp only [div, isNaN_of_isFinite hx, isNaN_of_isFinite hy, isInfinite_of_isFinite hx,
    isInfinite_of_isFinite hy, Bool.or_self, Bool.false_eq_true, if_false, hzero]

/-- What is infinite stays so. -/
theorem add_of_isInfinite (hx : isInfinite x = true) (hy : isFinite y = true) : add x y = x := by
  have hnumber : isNaN x = false := isNaN_eq_false_iff.mpr (of_decide_eq_true hx).le
  simp only [add, hnumber, isNaN_of_isFinite hy, hx, isInfinite_of_isFinite hy, Bool.or_self,
    Bool.false_and, Bool.false_eq_true, if_false, if_true]

theorem div_of_isInfinite (hx : isFinite x = true) (hy : isInfinite y = true) :
    div x y = pack (negative x != negative y) 0 := by
  have hnumber : isNaN y = false := isNaN_eq_false_iff.mpr (of_decide_eq_true hy).le
  simp only [div, hnumber, isNaN_of_isFinite hx, hy, isInfinite_of_isFinite hx, Bool.or_self,
    Bool.false_eq_true, if_false, if_true]

theorem isFinite_or_isInfinite (hx : IsNumber x) : isFinite x = true ∨ isInfinite x = true :=
  (lt_or_eq_of_le hx).imp (fun h => decide_eq_true h) fun h => decide_eq_true h

theorem lt_eq_true_iff : lt x y = true ↔ IsNumber x ∧ IsNumber y ∧ value x < value y := by
  simp only [lt, Bool.and_eq_true, Bool.not_eq_true', isNaN_eq_false_iff, decide_eq_true_eq,
    and_assoc]

theorem le_eq_true_iff : le x y = true ↔ IsNumber x ∧ IsNumber y ∧ value x ≤ value y := by
  simp only [le, Bool.and_eq_true, Bool.not_eq_true', isNaN_eq_false_iff, decide_eq_true_eq,
    and_assoc]

end Operations

section Bounds

variable {x y : UInt32} {a b c q : ℚ} {sign : Bool}

/-- A finite number not farther from zero than the bound. -/
structure Within (b : ℚ) (x : UInt32) : Prop where
  finite : isFinite x = true
  bound : |value x| ≤ b

def Representable (b : ℚ) : Prop := ∃ w, isFinite w = true ∧ value w = b

theorem within_pack_zero (hb : 0 ≤ b) : Within b (pack sign 0) where
  finite := by
    rw [isFinite, index_pack (Nat.zero_le _)]
    exact decide_eq_true (by decide)
  bound := by rwa [abs_value, index_pack (Nat.zero_le _), magnitude_zero]

theorem Within.mono (h : Within a x) (hle : a ≤ b) : Within b x := ⟨h.finite, h.bound.trans hle⟩

theorem within_encode (hb : Representable b) (hq : |q| ≤ b) : Within b (encode q sign) := by
  obtain ⟨w, hfinite, rfl⟩ := hb
  have hnumber := isNumber_of_isFinite hfinite
  have hneg := isNumber_of_isFinite (isFinite_neg hfinite)
  obtain ⟨hlow, hhigh⟩ := abs_le.mp hq
  have hbetween : Between (neg w) (encode q sign) w :=
    between_encode hneg hnumber ((value_neg hnumber).trans_le hlow) hhigh
  refine ⟨hbetween.isFinite (isFinite_neg hfinite) hfinite, abs_le.mpr ⟨?_, hbetween.high⟩⟩
  exact (value_neg hnumber).symm.trans_le hbetween.low

theorem le_value_encode_of_representable (ha : Representable a) (h : a ≤ q) :
    a ≤ value (encode q sign) := by
  obtain ⟨w, hfinite, rfl⟩ := ha
  exact le_value_encode (isNumber_of_isFinite hfinite) h

theorem value_encode_le_of_representable (hb : Representable b) (h : q ≤ b) :
    value (encode q sign) ≤ b := by
  obtain ⟨w, hfinite, rfl⟩ := hb
  exact value_encode_le (isNumber_of_isFinite hfinite) h

/-- What can be represented is not rounded. -/
theorem value_encode_of_representable (h : Representable q) : value (encode q sign) = q := by
  obtain ⟨w, hfinite, rfl⟩ := h
  exact value_encode_value (isNumber_of_isFinite hfinite)

theorem isFinite_encode_of_representable (h : Representable q) :
    isFinite (encode q sign) = true := by
  obtain ⟨w, hfinite, rfl⟩ := h
  have hnumber := isNumber_of_isFinite hfinite
  exact (between_encode hnumber hnumber le_rfl le_rfl).isFinite hfinite hfinite

/-- Up to 24 bits before or behind the point. -/
theorem representable_dyadic {k j : ℕ} (hk : k < 2 ^ 24) (hj : j ≤ 126) :
    Representable (k / 2 ^ j) := by
  rcases Nat.eq_zero_or_pos k with rfl | hpos
  · refine ⟨0, by decide, ?_⟩
    rw [Nat.cast_zero, zero_div]
    exact (if_neg (by decide)).trans magnitude_zero
  · obtain ⟨e, hlow, hhigh⟩ : ∃ e, 2 ^ e ≤ k ∧ k < 2 ^ (e + 1) :=
      ⟨Nat.log2 k, Nat.log2_self_le hpos.ne', Nat.lt_log2_self⟩
    have he : e ≤ 23 := by
      by_contra hlarge
      have hle : 2 ^ 24 ≤ 2 ^ e := Nat.pow_le_pow_right two_pos (by omega)
      omega
    -- the leading bit moves to the place above the fraction
    obtain ⟨fraction, hfraction⟩ : ∃ fraction, k * 2 ^ (23 - e) = 2 ^ 23 + fraction := by
      refine Nat.exists_eq_add_of_le ?_
      calc 2 ^ 23 = 2 ^ e * 2 ^ (23 - e) := by rw [← pow_add, Nat.add_sub_cancel' he]
        _ ≤ k * 2 ^ (23 - e) := Nat.mul_le_mul_right _ hlow
    have hsmall : fraction < 2 ^ 23 := by
      have hlt : k * 2 ^ (23 - e) < 2 ^ (e + 1) * 2 ^ (23 - e) :=
        Nat.mul_lt_mul_of_pos_right hhigh (pow_pos two_pos _)
      rw [← pow_add, show e + 1 + (23 - e) = 24 by omega] at hlt
      omega
    have hindex : (e + 127 - j) * 2 ^ 23 + fraction < infinity := by
      unfold infinity
      omega
    have hunits : units ((e + 127 - j) * 2 ^ 23 + fraction) = k * 2 ^ (149 - j) := by
      have hquotient : ((e + 127 - j) * 2 ^ 23 + fraction) / 2 ^ 23 = e + 127 - j := by omega
      have hrest : ((e + 127 - j) * 2 ^ 23 + fraction) % 2 ^ 23 = fraction := by omega
      rw [units, if_neg (by omega), hquotient, hrest, ← hfraction, mul_assoc, ← pow_add]
      congr 2
      omega
    refine ⟨pack false ((e + 127 - j) * 2 ^ 23 + fraction), ?_, ?_⟩
    · rw [isFinite, index_pack hindex.le]
      exact decide_eq_true hindex
    · have hshift : (2 : ℚ) ^ 149 = 2 ^ (149 - j) * 2 ^ j := by
        rw [← pow_add, Nat.sub_add_cancel (by omega)]
      rw [value_pack hindex.le, if_neg Bool.false_ne_true, magnitude, hunits, Nat.cast_mul,
        Nat.cast_pow, Nat.cast_two, hshift, mul_comm (k : ℚ),
        mul_div_mul_left _ _ (pow_ne_zero _ two_ne_zero)]

theorem representable_natCast {k : ℕ} (hk : k < 2 ^ 24) : Representable k := by
  have h := representable_dyadic hk (Nat.zero_le 126)
  rwa [pow_zero, div_one] at h

theorem representable_one : Representable 1 := by
  exact_mod_cast representable_natCast (k := 1) (by decide)

theorem representable_half : Representable (1 / 2) := by
  exact_mod_cast representable_dyadic (k := 1) (j := 1) (by decide) (by decide)

theorem Representable.neg (h : Representable b) : Representable (-b) := by
  obtain ⟨w, hfinite, rfl⟩ := h
  exact ⟨_, isFinite_neg hfinite, value_neg (isNumber_of_isFinite hfinite)⟩

theorem representable_intCast {k : ℤ} (hk : |k| < 2 ^ 24) : Representable k := by
  obtain ⟨n, rfl | rfl⟩ := k.eq_nat_or_neg
  · rw [Int.cast_natCast]
    exact representable_natCast (by simpa using hk)
  · rw [Int.cast_neg, Int.cast_natCast]
    exact (representable_natCast (by simpa using hk)).neg

theorem value_literal (h : Representable q) : value (literal q) = q :=
  value_encode_of_representable h

theorem isFinite_literal (h : Representable q) : isFinite (literal q) = true :=
  isFinite_encode_of_representable h

theorem within_literal (hb : Representable b) (hq : |q| ≤ b) : Within b (literal q) :=
  within_encode hb hq

theorem between_literal (ha : Representable a) (hb : Representable b) (hlow : a ≤ q)
    (hhigh : q ≤ b) : Between (literal a) (literal q) (literal b) :=
  between_encode (isNumber_of_isFinite (isFinite_literal ha))
    (isNumber_of_isFinite (isFinite_literal hb)) ((value_literal ha).trans_le hlow)
    (hhigh.trans (value_literal hb).ge)

theorem Within.add (hx : Within a x) (hy : Within b y) (hc : Representable c)
    (hle : a + b ≤ c) : Within c (add x y) := by
  rw [add_of_isFinite hx.finite hy.finite]
  exact within_encode hc ((abs_add_le _ _).trans ((add_le_add hx.bound hy.bound).trans hle))

theorem Within.sub (hx : Within a x) (hy : Within b y) (hc : Representable c)
    (hle : a + b ≤ c) : Within c (sub x y) := by
  rw [sub_of_isFinite hx.finite hy.finite]
  exact within_encode hc ((abs_sub _ _).trans ((add_le_add hx.bound hy.bound).trans hle))

theorem Within.mul (hx : Within a x) (hy : Within b y) (hc : Representable c)
    (hle : a * b ≤ c) : Within c (mul x y) := by
  rw [mul_of_isFinite hx.finite hy.finite]
  refine within_encode hc ?_
  rw [abs_mul]
  exact (mul_le_mul hx.bound hy.bound (abs_nonneg _) ((abs_nonneg _).trans hx.bound)).trans hle

theorem Within.neg (hx : Within a x) : Within a (neg x) := by
  refine ⟨isFinite_neg hx.finite, ?_⟩
  rw [value_neg (isNumber_of_isFinite hx.finite), abs_neg]
  exact hx.bound

/-- Less than half the way to the neighbour does not lead beyond a power of two. -/
theorem Within.add_slight {e : ℕ} (he : e < 128) (hx : Within (2 ^ e) x) (hy : Within c y)
    (hc : c < 2 ^ e / 2 ^ 24) : Within (2 ^ e) (Binary32.add x y) := by
  have hsum : |value x + value y| ≤ 2 ^ e + c :=
    (abs_add_le _ _).trans (add_le_add hx.bound hy.bound)
  have hinfinity : powerIndex e < infinity := Nat.mul_lt_mul_of_pos_right (by omega) (by decide)
  have hgap : (2 : ℚ) ^ e / 2 ^ 23 = 2 ^ e / 2 ^ 24 + 2 ^ e / 2 ^ 24 := by
    rw [pow_succ (2 : ℚ) 23, ← div_div, add_halves]
  have hindex : nearest magnitude 31 infinity |value x + value y| ≤ powerIndex e := by
    refine nearest_le_of_nearer strictMono_magnitude infinity_lt
      (magnitude_zero.trans_le (abs_nonneg _)) hinfinity ?_
    rw [magnitude_powerIndex_succ, magnitude_powerIndex, hgap]
    linarith
  rw [add_of_isFinite hx.finite hy.finite]
  constructor
  · rw [isFinite, index_encode]
    exact decide_eq_true (hindex.trans_lt hinfinity)
  · rw [abs_value, index_encode, ← magnitude_powerIndex]
    exact strictMono_magnitude.monotone hindex

end Bounds

end RocketGame.Binary32
