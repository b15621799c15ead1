import Mathlib.Data.List.Basic
import Mathlib.Logic.Function.Iterate

/-!
Linear feedback shift registers of any width, fed with one bit at a time, low bits
first. Shifting is linear in exclusive or, which gives the table form of a cyclic
redundancy check. With the top tap set it is also injective, so two messages that
differ within one window no wider than the register leave different remainders.
-/
namespace RocketGame.ShiftRegister

variable {w : ℕ}

/-- The register moves down by one place; a bit that falls out feeds the taps back. -/
def shift (taps c : BitVec w) : BitVec w :=
  if c.getLsbD 0 then taps ^^^ (c >>> 1) else c >>> 1

def bit (b : Bool) : BitVec w := if b then 1#w else 0#w

def feed (taps c : BitVec w) (bits : List Bool) : BitVec w :=
  bits.foldl (fun c b => shift taps (c ^^^ bit b)) c

def word (bits : List Bool) : BitVec w := (BitVec.ofBoolListLE bits).setWidth w

theorem getLsbD_bit (b : Bool) (i : ℕ) :
    (bit b : BitVec w).getLsbD i = (decide (i < w) && (decide (i = 0) && b)) := by
  cases b with
  | false => simp [bit]
  | true =>
    by_cases hi : i = 0
    · simp [bit, hi]
    · simp [bit, hi]

theorem getLsbD_word (bits : List Bool) (i : ℕ) :
    (word bits : BitVec w).getLsbD i = (decide (i < w) && bits[i]?.getD false) := by
  rw [word, BitVec.getLsbD_setWidth, BitVec.getLsbD_ofBoolListLE, List.getD_eq_getElem?_getD]

section Linear

variable (taps : BitVec w)

theorem shift_xor (a b : BitVec w) : shift taps (a ^^^ b) = shift taps a ^^^ shift taps b := by
  have hcancel : (taps ^^^ a >>> 1) ^^^ (taps ^^^ b >>> 1) = a >>> 1 ^^^ b >>> 1 := by
    rw [BitVec.xor_comm taps, BitVec.xor_assoc, ← BitVec.xor_assoc taps, BitVec.xor_self,
      BitVec.zero_xor]
  unfold shift
  rw [BitVec.getLsbD_xor, BitVec.ushiftRight_xor_distrib]
  cases a.getLsbD 0 <;> cases b.getLsbD 0
  · rfl
  · simp only [Bool.false_xor, if_true, Bool.false_eq_true, if_false]
    rw [← BitVec.xor_assoc, ← BitVec.xor_assoc, BitVec.xor_comm taps]
  · simp only [Bool.xor_false, if_true, Bool.false_eq_true, if_false, BitVec.xor_assoc]
  · simp only [Bool.xor_self, if_true, Bool.false_eq_true, if_false, hcancel]

theorem iterate_shift_xor (n : ℕ) (a b : BitVec w) :
    (shift taps)^[n] (a ^^^ b) = (shift taps)^[n] a ^^^ (shift taps)^[n] b := by
  induction n generalizing a b with
  | zero => rfl
  | succ n ih => rw [Function.iterate_succ_apply, shift_xor, ih]; rfl

/-- While only zeros fall out, shifting is moving down. -/
theorem iterate_shift_of_low_zero (n : ℕ) {c : BitVec w} (h : ∀ i < n, c.getLsbD i = false) :
    (shift taps)^[n] c = c >>> n := by
  induction n generalizing c with
  | zero => simp
  | succ n ih =>
    have hzero : shift taps c = c >>> 1 := by
      rw [shift, h 0 (Nat.succ_pos n), if_neg Bool.false_ne_true]
    rw [Function.iterate_succ_apply, hzero, ih fun i hi => ?_, Nat.add_comm, BitVec.shiftRight_add]
    rw [BitVec.getLsbD_ushiftRight]
    exact h (1 + i) (by omega)

/-- The table form: n shifts depend on the low n bits and move the rest down. -/
theorem iterate_shift_eq_low_xor (n : ℕ) (c low : BitVec w)
    (hlow : ∀ i, low.getLsbD i = (decide (i < n) && c.getLsbD i)) :
    (shift taps)^[n] c = (shift taps)^[n] low ^^^ (c >>> n) := by
  have hsplit : c = low ^^^ (low ^^^ c) := by
    rw [← BitVec.xor_assoc, BitVec.xor_self, BitVec.zero_xor]
  have hhigh : ∀ i < n, (low ^^^ c).getLsbD i = false := by
    intro i hi
    rw [BitVec.getLsbD_xor, hlow, decide_eq_true hi, Bool.true_and, Bool.xor_self]
  have hmove : (low ^^^ c) >>> n = c >>> n := by
    apply BitVec.eq_of_getLsbD_eq
    intro i _
    have hi : ¬ n + i < n := by omega
    rw [BitVec.getLsbD_ushiftRight, BitVec.getLsbD_ushiftRight, BitVec.getLsbD_xor, hlow,
      decide_eq_false hi, Bool.false_and, Bool.false_xor]
  rw [← hmove, ← iterate_shift_of_low_zero taps n hhigh, ← iterate_shift_xor, ← hsplit]

/-- A word shifted up by one place and fed back is the word. -/
theorem shift_word_shiftLeft {bits : List Bool} (h : bits.length < w) :
    shift taps ((word bits : BitVec w) <<< 1) = word bits := by
  have hlow : ((word bits : BitVec w) <<< 1).getLsbD 0 = false := by simp
  rw [shift, hlow, if_neg Bool.false_ne_true]
  apply BitVec.eq_of_getLsbD_eq
  intro i hi
  rw [BitVec.getLsbD_ushiftRight, BitVec.getLsbD_shiftLeft]
  by_cases htop : 1 + i < w
  · simp [htop, hi]
  · have hout : bits[i]? = none := List.getElem?_eq_none (by omega)
    simp only [getLsbD_word, decide_eq_false htop, Bool.false_and, hout, Option.getD_none,
      Bool.and_false]

theorem word_cons (b : Bool) (bits : List Bool) :
    (word (b :: bits) : BitVec w) = bit b ^^^ (word bits <<< 1) := by
  apply BitVec.eq_of_getLsbD_eq
  intro i hi
  rw [BitVec.getLsbD_xor, getLsbD_bit, getLsbD_word, BitVec.getLsbD_shiftLeft, getLsbD_word]
  cases i with
  | zero => simp
  | succ i =>
    have hi' : i < w := by omega
    simp [hi, hi']

/-- Feeding no more bits than the register holds is shifting them in at once. -/
theorem feed_eq_iterate (c : BitVec w) {bits : List Bool} (h : bits.length ≤ w) :
    feed taps c bits = (shift taps)^[bits.length] (c ^^^ word bits) := by
  induction bits generalizing c with
  | nil =>
    have hzero : (word [] : BitVec w) = 0#w := by
      apply BitVec.eq_of_getLsbD_eq
      intro i _
      simp [getLsbD_word]
    simp only [feed, List.foldl_nil, List.length_nil, Function.iterate_zero, id, hzero,
      BitVec.xor_zero]
  | cons b bits ih =>
    rw [List.length_cons] at h
    have hrest : feed taps c (b :: bits) = feed taps (shift taps (c ^^^ bit b)) bits := rfl
    rw [hrest, ih _ (by omega), List.length_cons, Function.iterate_succ_apply, word_cons,
      ← BitVec.xor_assoc, shift_xor taps _ (word bits <<< 1), shift_word_shiftLeft taps (by omega)]

theorem feed_append (c : BitVec w) (left right : List Bool) :
    feed taps c (left ++ right) = feed taps (feed taps c left) right := List.foldl_append

end Linear

section Injective

variable {taps : BitVec w}

/-- The top bit of the result tells which bit fell out. -/
theorem shift_injective (htop : taps.msb = true) : Function.Injective (shift taps) := by
  intro a b h
  have hmove : ∀ c : BitVec w, (c >>> 1).msb = false := fun c => by simp [BitVec.msb_ushiftRight]
  have hbit : ∀ c : BitVec w, (shift taps c).msb = c.getLsbD 0 := by
    intro c
    unfold shift
    split
    · rename_i hc
      rw [BitVec.msb_xor, htop, hmove, hc, Bool.xor_false]
    · rename_i hc
      rw [hmove, Bool.eq_false_iff.mpr hc]
  have hlow : a.getLsbD 0 = b.getLsbD 0 := by rw [← hbit, ← hbit, h]
  have hrest : a >>> 1 = b >>> 1 := by
    unfold shift at h
    rw [hlow] at h
    split at h
    · exact (BitVec.xor_right_inj _).mp h
    · exact h
  apply BitVec.eq_of_getLsbD_eq
  intro i _
  cases i with
  | zero => exact hlow
  | succ i =>
    have hi := congrArg (fun c => BitVec.getLsbD c i) hrest
    simpa only [BitVec.getLsbD_ushiftRight, Nat.add_comm] using hi

theorem feed_injective (htop : taps.msb = true) (bits : List Bool) :
    Function.Injective fun c => feed taps c bits := by
  induction bits with
  | nil => exact fun _ _ h => h
  | cons b bits ih =>
    intro a c h
    have hshift : shift taps (a ^^^ bit b) = shift taps (c ^^^ bit b) := ih h
    exact (BitVec.xor_left_inj _).mp (shift_injective htop hshift)

/-- Lists of one length that fit the register are told apart by their words. -/
theorem word_injective {u v : List Bool} (hlen : u.length = v.length) (hw : u.length ≤ w)
    (h : (word u : BitVec w) = word v) : u = v := by
  apply List.ext_getElem hlen
  intro i hi hi'
  have hbit := congrArg (fun c => BitVec.getLsbD c i) h
  simp only [getLsbD_word, decide_eq_true (Nat.lt_of_lt_of_le hi hw), Bool.true_and] at hbit
  rwa [List.getElem?_eq_getElem hi, List.getElem?_eq_getElem hi', Option.getD_some,
    Option.getD_some] at hbit

/-- Two messages that differ in one stretch no longer than the register leave
different remainders. -/
theorem feed_ne_of_stretch (htop : taps.msb = true) (c : BitVec w) {u v : List Bool}
    (pre post : List Bool) (hlen : u.length = v.length) (hw : u.length ≤ w) (hne : u ≠ v) :
    feed taps c (pre ++ (u ++ post)) ≠ feed taps c (pre ++ (v ++ post)) := by
  intro h
  rw [feed_append, feed_append, feed_append, feed_append] at h
  have hstretch := feed_injective htop post h
  have hw' : v.length ≤ w := by rwa [← hlen]
  rw [feed_eq_iterate taps (feed taps c pre) hw, feed_eq_iterate taps (feed taps c pre) hw',
    ← hlen] at hstretch
  have hword := (shift_injective htop).iterate u.length hstretch
  exact hne (word_injective hlen hw ((BitVec.xor_right_inj _).mp hword))

/-- Two messages that agree outside a window no wider than the register leave
different remainders, unless they are equal. -/
theorem feed_ne_of_window (htop : taps.msb = true) (c : BitVec w) {x y : List Bool} {start n : ℕ}
    (hlen : x.length = y.length) (hw : n ≤ w) (hne : x ≠ y)
    (hout : ∀ k, k < start ∨ start + n ≤ k → x[k]? = y[k]?) : feed taps c x ≠ feed taps c y := by
  have hsplit : ∀ l : List Bool,
      l = l.take start ++ ((l.drop start).take n ++ l.drop (start + n)) := by
    intro l
    rw [← List.drop_drop, List.take_append_drop, List.take_append_drop]
  have hpre : x.take start = y.take start := by
    apply List.ext_getElem?
    intro k
    rw [List.getElem?_take, List.getElem?_take]
    split
    · rename_i hk
      exact hout k (Or.inl hk)
    · rfl
  have hpost : x.drop (start + n) = y.drop (start + n) := by
    apply List.ext_getElem?
    intro k
    rw [List.getElem?_drop, List.getElem?_drop]
    exact hout _ (Or.inr (Nat.le_add_right _ _))
  have hstretch : (x.drop start).take n ≠ (y.drop start).take n := by
    intro h
    apply hne
    rw [hsplit x, hsplit y, hpre, h, hpost]
  have hfeed := feed_ne_of_stretch htop c (x.take start) (x.drop (start + n))
    (by rw [List.length_take, List.length_take, List.length_drop, List.length_drop, hlen])
    (Nat.le_trans (List.length_take_le _ _) hw) hstretch
  rwa [← hsplit x, hpre, hpost, ← hsplit y] at hfeed

end Injective

end RocketGame.ShiftRegister
