import Mathlib.Tactic.Linarith
import RocketGame.PhysicsSimulation

/-!
When the physics engine returns. The two loops that bring the rotation into one turn add
or subtract the turn, and far from zero the result is rounded back to where it was. Up to
two to the 27 every round comes nearer to zero; beyond it no round moves, and the call
never returns.
-/
namespace RocketGame.HeadingLoops

open Binary32 NearestIndex PhysicsSimulation PlayerStates WhileLoops

/-- The index of two to the 27, the last number that a turn still moves. -/
def limit : ℕ := 154 * 2 ^ 23

theorem limit_le_infinity : limit ≤ infinity := by decide

theorem magnitude_limit : magnitude limit = 2 ^ 27 := magnitude_powerIndex 27

/-- The whole numbers that the bounds are made of. -/
theorem representable_ofNat (k : ℕ) [k.AtLeastTwo] (hk : k < 2 ^ 24) :
    Representable (OfNat.ofNat k) := by
  rw [← Nat.cast_ofNat]
  exact representable_natCast hk

theorem representable_zero : Representable 0 := by
  exact_mod_cast representable_natCast (k := 0) (by decide)

theorem value_zero : value (literal 0) = 0 := value_literal representable_zero

theorem isFinite_zero : isFinite (literal 0) = true := isFinite_literal representable_zero

theorem isNumber_zero : IsNumber (literal 0) := isNumber_of_isFinite isFinite_zero

/-- Nearly two pi. -/
theorem fullTurn_between : Between (literal 6) fullTurn (literal 7) := by
  have h2 := representable_ofNat 2 (by decide)
  have h3 := representable_ofNat 3 (by decide)
  have h4 := representable_ofNat 4 (by decide)
  have h6 := representable_ofNat 6 (by decide)
  have h7 := representable_ofNat 7 (by decide)
  have hhalf : Representable (7 / 2) := by
    exact_mod_cast representable_dyadic (k := 7) (j := 1) (by decide) (by decide)
  have hpi := between_literal (q := 3.14159) h3 hhalf (by norm_num) (by norm_num)
  have hlow := hpi.low
  have hhigh := hpi.high
  rw [value_literal h3] at hlow
  rw [value_literal hhalf] at hhigh
  have hfinite := hpi.isFinite (isFinite_literal h3) (isFinite_literal hhalf)
  rw [fullTurn, mul_of_isFinite (isFinite_literal h2) hfinite, value_literal h2]
  refine between_encode (isNumber_of_isFinite (isFinite_literal h6))
    (isNumber_of_isFinite (isFinite_literal h7)) ?_ ?_
  · rw [value_literal h6]
    linarith
  · rw [value_literal h7]
    linarith

theorem isFinite_fullTurn : isFinite fullTurn = true :=
  fullTurn_between.isFinite (isFinite_literal (representable_ofNat 6 (by decide)))
    (isFinite_literal (representable_ofNat 7 (by decide)))

theorem six_le_fullTurn : 6 ≤ value fullTurn :=
  (value_literal (representable_ofNat 6 (by decide))).symm.trans_le fullTurn_between.low

theorem fullTurn_le_seven : value fullTurn ≤ 7 :=
  fullTurn_between.high.trans (value_literal (representable_ofNat 7 (by decide))).le

section Steps

variable {k : ℕ} {r : UInt32}

theorem gap_eq (k : ℕ) :
    magnitude (k + 1) - magnitude k = 2 ^ (k / 2 ^ 23 - 1) / 2 ^ 149 := by
  rw [magnitude_succ, add_sub_cancel_left]

/-- Up to the limit neighbours are at most eight apart. -/
theorem gap_le (hk : k < limit) : magnitude (k + 1) - magnitude k ≤ 8 := by
  have hexponent : k / 2 ^ 23 - 1 ≤ 152 := by
    unfold limit at hk
    omega
  rw [gap_eq, div_le_iff₀ (pow_pos two_pos _)]
  calc (2 : ℚ) ^ (k / 2 ^ 23 - 1) ≤ 2 ^ 152 := pow_le_pow_right₀ one_le_two hexponent
    _ = 8 * 2 ^ 149 := by norm_num

/-- Beyond the limit they are at least sixteen apart. -/
theorem le_gap (hk : limit ≤ k) : 16 ≤ magnitude (k + 1) - magnitude k := by
  have hexponent : 153 ≤ k / 2 ^ 23 - 1 := by
    unfold limit at hk
    omega
  rw [gap_eq, le_div_iff₀ (pow_pos two_pos _)]
  calc (16 : ℚ) * 2 ^ 149 = 2 ^ 153 := by norm_num
    _ ≤ 2 ^ (k / 2 ^ 23 - 1) := pow_le_pow_right₀ one_le_two hexponent

/-- A turn less is rounded to a lower magnitude. -/
theorem nearest_lt (hk : k < limit) (hturn : value fullTurn ≤ magnitude (k + 1)) :
    nearest magnitude 31 infinity (magnitude (k + 1) - value fullTurn) ≤ k := by
  have hgap := gap_le hk
  have hvalue := six_le_fullTurn
  refine nearest_le_of_nearer strictMono_magnitude infinity_lt ?_ (hk.trans_le limit_le_infinity) ?_
  · rw [magnitude_zero]
    exact sub_nonneg.mpr hturn
  · linarith

/-- A turn less is rounded to the same magnitude. -/
theorem le_nearest (hk : limit ≤ k) (hlt : k < infinity) :
    k + 1 ≤ nearest magnitude 31 infinity (magnitude (k + 1) - value fullTurn) := by
  have hgap := le_gap hk
  have hvalue := fullTurn_le_seven
  refine lt_nearest_of_nearer strictMono_magnitude infinity_lt hlt ?_
  linarith

/-- The two bounds on a magnitude with its index. -/
theorem index_le_limit_iff : index r ≤ limit ↔ |value r| ≤ 2 ^ 27 := by
  rw [abs_value, ← magnitude_limit, strictMono_magnitude.le_iff_le]

theorem isFinite_of_abs_le (h : |value r| ≤ 2 ^ 27) : isFinite r = true :=
  decide_eq_true ((index_le_limit_iff.mpr h).trans_lt (by decide))

theorem exists_index (h : value r ≠ 0) : ∃ k, index r = k + 1 := by
  refine Nat.exists_eq_succ_of_ne_zero fun hzero => h ?_
  rw [← abs_eq_zero, abs_value, hzero, magnitude_zero]

/-- Within the limit a round that takes a turn off comes nearer to zero. -/
theorem index_encode_lt {q : ℚ} {sign : Bool} (hr : |value r| ≤ 2 ^ 27) (hpos : value r ≠ 0)
    (hq : |q| = |value r| - value fullTurn) : index (encode q sign) < index r := by
  obtain ⟨k, hk⟩ := exists_index hpos
  have hlimit := index_le_limit_iff.mpr hr
  have hturn : value fullTurn ≤ |value r| := sub_nonneg.mp (hq ▸ abs_nonneg q)
  rw [abs_value, hk] at hq hturn
  rw [hk] at hlimit ⊢
  rw [index_encode, hq]
  exact Nat.lt_succ_of_le (nearest_lt hlimit hturn)

/-- Beyond the limit it is rounded back. -/
theorem abs_le_abs_encode {q : ℚ} {sign : Bool} (hr : isFinite r = true)
    (hlarge : 2 ^ 27 < |value r|) (hq : |q| = |value r| - value fullTurn) :
    |value r| ≤ |value (encode q sign)| := by
  obtain ⟨k, hk⟩ := exists_index (r := r) fun hzero => by
    rw [hzero, abs_zero] at hlarge
    linarith
  have hlimit : limit < k + 1 := by
    rw [← hk]
    exact not_le.mp fun hle => absurd (index_le_limit_iff.mp hle) (not_le.mpr hlarge)
  have hfinite : k + 1 < infinity := hk ▸ of_decide_eq_true hr
  rw [abs_value, hk] at hq
  rw [abs_value, abs_value, hk, index_encode, hq]
  exact strictMono_magnitude.monotone
    (le_nearest (Nat.lt_succ_iff.mp hlimit) (Nat.lt_of_succ_lt hfinite))

end Steps

section Rounds

variable {r : UInt32}

theorem value_fullTurn_pos : 0 < value fullTurn := by linarith [six_le_fullTurn]

theorem isNumber_fullTurn : IsNumber fullTurn := isNumber_of_isFinite isFinite_fullTurn

theorem add_fullTurn (hr : isFinite r = true) :
    ∃ sign, add r fullTurn = encode (value r + value fullTurn) sign :=
  ⟨_, add_of_isFinite hr isFinite_fullTurn⟩

theorem sub_fullTurn (hr : isFinite r = true) :
    ∃ sign, sub r fullTurn = encode (value r - value fullTurn) sign :=
  ⟨_, sub_of_isFinite hr isFinite_fullTurn⟩

/-- One round of the second loop. -/
theorem sub_of_le (hle : |value r| ≤ 2 ^ 27) (hturn : value fullTurn ≤ value r) :
    index (sub r fullTurn) < index r ∧ Between (literal 0) (sub r fullTurn) r := by
  have hpos := value_fullTurn_pos.trans_le hturn
  have hfinite := isFinite_of_abs_le hle
  obtain ⟨sign, hsub⟩ := sub_fullTurn hfinite
  rw [hsub]
  constructor
  · refine index_encode_lt hle hpos.ne' ?_
    rw [abs_of_nonneg (sub_nonneg.mpr hturn), abs_of_pos hpos]
  · refine between_encode isNumber_zero (isNumber_of_isFinite hfinite) ?_ ?_
    · rw [value_zero]
      exact sub_nonneg.mpr hturn
    · exact sub_le_self _ value_fullTurn_pos.le

theorem sub_of_lt (hnumber : IsNumber r) (hlarge : 2 ^ 27 < value r) :
    IsNumber (sub r fullTurn) ∧ 2 ^ 27 < value (sub r fullTurn) := by
  rcases isFinite_or_isInfinite hnumber with hfinite | hinfinite
  · have hvalue := fullTurn_le_seven
    have hpos : 0 < value r - value fullTurn := by linarith
    obtain ⟨sign, hsub⟩ := sub_fullTurn hfinite
    rw [hsub]
    refine ⟨isNumber_encode _ _, hlarge.trans_le ?_⟩
    have hback : |value r| ≤ |value (encode (value r - value fullTurn) sign)| := by
      refine abs_le_abs_encode hfinite (hlarge.trans_le (le_abs_self _)) ?_
      rw [abs_of_pos hpos, abs_of_pos (by linarith)]
    have hnonneg : 0 ≤ value (encode (value r - value fullTurn) sign) :=
      value_zero.symm.trans_le (le_value_encode isNumber_zero (value_zero.trans_le hpos.le))
    rw [abs_of_nonneg hnonneg] at hback
    exact (le_abs_self _).trans hback
  · rw [sub, add_of_isInfinite hinfinite (isFinite_neg isFinite_fullTurn)]
    exact ⟨hnumber, hlarge⟩

/-- One round of the first loop. -/
theorem add_of_neg (hle : |value r| ≤ 2 ^ 27) (hneg : value r < 0) :
    (value (add r fullTurn) < 0 → index (add r fullTurn) < index r) ∧
      Between r (add r fullTurn) fullTurn := by
  have hfinite := isFinite_of_abs_le hle
  obtain ⟨sign, hadd⟩ := add_fullTurn hfinite
  rw [hadd]
  constructor
  · intro hstill
    have hbelow : value r + value fullTurn < 0 := by
      by_contra hnot
      have hnonneg : value (literal 0) ≤ value (encode (value r + value fullTurn) sign) :=
        le_value_encode isNumber_zero (value_zero.trans_le (not_lt.mp hnot))
      exact absurd (value_zero.symm.trans_le hnonneg) (not_le.mpr hstill)
    refine index_encode_lt hle hneg.ne ?_
    rw [abs_of_neg hbelow, abs_of_neg hneg]
    ring
  · refine between_encode (isNumber_of_isFinite hfinite) isNumber_fullTurn ?_ ?_
    · exact le_add_of_nonneg_right value_fullTurn_pos.le
    · exact add_le_of_nonpos_left hneg.le

theorem add_of_lt (hnumber : IsNumber r) (hlarge : value r < -2 ^ 27) :
    IsNumber (add r fullTurn) ∧ value (add r fullTurn) < -2 ^ 27 := by
  rcases isFinite_or_isInfinite hnumber with hfinite | hinfinite
  · have hvalue := fullTurn_le_seven
    have hneg : value r + value fullTurn < 0 := by linarith
    obtain ⟨sign, hadd⟩ := add_fullTurn hfinite
    rw [hadd]
    refine ⟨isNumber_encode _ _, lt_of_le_of_lt ?_ hlarge⟩
    have hback : |value r| ≤ |value (encode (value r + value fullTurn) sign)| := by
      refine abs_le_abs_encode hfinite (lt_abs.mpr (Or.inr (by linarith))) ?_
      rw [abs_of_neg hneg, abs_of_neg (by linarith)]
      ring
    have hnonpos : value (encode (value r + value fullTurn) sign) ≤ 0 :=
      (value_encode_le isNumber_zero (hneg.le.trans value_zero.ge)).trans value_zero.le
    rw [abs_of_nonpos hnonpos] at hback
    linarith [neg_abs_le (value r)]
  · rw [add_of_isInfinite hinfinite isFinite_fullTurn]
    exact ⟨hnumber, hlarge⟩

end Rounds

/-- A rotation that the loops bring into one turn: no number at all, or not too far. -/
def Turnable (r : UInt32) : Prop := isNaN r = true ∨ |value r| ≤ 2 ^ 27

instance : DecidablePred Turnable := fun _ => inferInstanceAs (Decidable (_ ∨ _))

structure InTurn (r : UInt32) : Prop where
  number : IsNumber r
  low : 0 ≤ value r
  high : value r < value fullTurn

theorem InTurn.within {r : UInt32} (h : InTurn r) : Within 8 r := by
  have hvalue := fullTurn_le_seven
  have hhigh := h.high
  refine ⟨isFinite_of_abs_le (abs_le.mpr ⟨?_, ?_⟩), abs_le.mpr ⟨?_, ?_⟩⟩ <;> linarith [h.low]

section Loops

variable {n m : ℕ} {r y : UInt32}

theorem lt_zero_iff (hr : IsNumber r) : lt r (literal 0) = true ↔ value r < 0 := by
  rw [lt_eq_true_iff, value_zero]
  exact ⟨fun h => h.2.2, fun h => ⟨hr, isNumber_zero, h⟩⟩

theorem fullTurn_le_iff (hr : IsNumber r) :
    le fullTurn r = true ↔ value fullTurn ≤ value r := by
  rw [le_eq_true_iff]
  exact ⟨fun h => h.2.2, fun h => ⟨isNumber_fullTurn, hr, h⟩⟩

/-- The first loop goes up to zero, and not beyond one turn from below it. -/
theorem exists_raise (hr : IsNumber r) (hle : |value r| ≤ 2 ^ 27) :
    ∃ y, raise limit r = some y ∧ IsNumber y ∧ 0 ≤ value y ∧ value y ≤ 2 ^ 27 := by
  let I : ℕ → UInt32 → Prop := fun n r =>
    IsNumber r ∧ |value r| ≤ 2 ^ 27 ∧ (value r < 0 → index r ≤ n)
  have hround : ∀ r, IsNumber r → |value r| ≤ 2 ^ 27 → lt r (literal 0) = true →
      IsNumber (add r fullTurn) ∧ |value (add r fullTurn)| ≤ 2 ^ 27 := by
    intro r hr hle hcond
    obtain ⟨-, hbetween⟩ := add_of_neg hle ((lt_zero_iff hr).mp hcond)
    have hvalue := fullTurn_le_seven
    refine ⟨hbetween.number, abs_le.mpr ⟨(abs_le.mp hle).1.trans hbetween.low, ?_⟩⟩
    linarith [hbetween.high]
  obtain ⟨y, hy⟩ : ∃ y, raise limit r = some y :=
    exists_runWhile (I := I) ⟨hr, hle, fun _ => index_le_limit_iff.mpr hle⟩ (by
      rintro n x ⟨hx, hxle, hindex⟩ hcond
      have hneg := (lt_zero_iff hx).mp hcond
      obtain ⟨hlower, -⟩ := add_of_neg hxle hneg
      obtain ⟨k, hk⟩ := exists_index hneg.ne
      have hkn := hindex hneg
      obtain ⟨hnumber, hbound⟩ := hround x hx hxle hcond
      exact ⟨k, by omega, hnumber, hbound, fun hstill => by
        have hlt := hlower hstill
        omega⟩)
  obtain ⟨⟨hnumber, hbound⟩, hdone⟩ := runWhile_invariant
    (I := fun r => IsNumber r ∧ |value r| ≤ 2 ^ 27) ⟨hr, hle⟩
    (fun x hx hcond => hround x hx.1 hx.2 hcond) hy
  refine ⟨y, hy, hnumber, not_lt.mp fun hneg => ?_, (abs_le.mp hbound).2⟩
  exact absurd ((lt_zero_iff hnumber).mpr hneg) (by rw [hdone]; exact Bool.false_ne_true)

/-- The second loop goes down into one turn. -/
theorem exists_lower (hr : IsNumber r) (hpos : 0 ≤ value r) (hle : value r ≤ 2 ^ 27) :
    ∃ y, lower limit r = some y ∧ InTurn y := by
  let I : UInt32 → Prop := fun r => IsNumber r ∧ 0 ≤ value r ∧ value r ≤ 2 ^ 27
  have hround : ∀ r, I r → le fullTurn r = true →
      index (sub r fullTurn) < index r ∧ I (sub r fullTurn) := by
    rintro r ⟨hr, hpos, hle⟩ hcond
    obtain ⟨hindex, hbetween⟩ := sub_of_le (abs_le.mpr ⟨by linarith, hle⟩)
      ((fullTurn_le_iff hr).mp hcond)
    exact ⟨hindex, hbetween.number, value_zero.symm.trans_le hbetween.low,
      hbetween.high.trans hle⟩
  have hlimit : index r ≤ limit := index_le_limit_iff.mpr (abs_le.mpr ⟨by linarith, hle⟩)
  obtain ⟨y, hy⟩ : ∃ y, lower limit r = some y :=
    exists_runWhile (I := fun n r => I r ∧ index r ≤ n) ⟨⟨hr, hpos, hle⟩, hlimit⟩ (by
      rintro n x ⟨hx, hindex⟩ hcond
      obtain ⟨hlower, hnext⟩ := hround x hx hcond
      exact ⟨_, hlower.trans_le hindex, hnext, le_rfl⟩)
  obtain ⟨⟨hnumber, hlow, -⟩, hdone⟩ := runWhile_invariant (I := I) ⟨hr, hpos, hle⟩
    (fun x hx hcond => (hround x hx hcond).2) hy
  refine ⟨y, hy, hnumber, hlow, not_le.mp fun hhigh => ?_⟩
  exact absurd ((fullTurn_le_iff hnumber).mpr hhigh) (by rw [hdone]; exact Bool.false_ne_true)

theorem raise_of_not (h : lt r (literal 0) = false) (n : ℕ) : raise n r = some r := by
  unfold raise
  exact runWhile_of_not (by exact h) n

theorem lower_of_not (h : le fullTurn r = false) (n : ℕ) : lower n r = some r :=
  runWhile_of_not h n

theorem normalizeRotation_mono (h : normalizeRotation n r = some y) (hle : n ≤ m) :
    normalizeRotation m r = some y := by
  obtain ⟨x, hx, hy⟩ := Option.bind_eq_some_iff.mp h
  exact Option.bind_eq_some_iff.mpr ⟨x, runWhile_mono hx hle, runWhile_mono hy hle⟩

theorem isSome_normalizeRotation_mono (h : (normalizeRotation n r).isSome = true) (hle : n ≤ m) :
    (normalizeRotation m r).isSome = true := by
  obtain ⟨y, hy⟩ := Option.isSome_iff_exists.mp h
  exact Option.isSome_iff_exists.mpr ⟨y, normalizeRotation_mono hy hle⟩

/-- As many rounds as there are numbers up to the limit are enough. -/
theorem exists_normalizeRotation (hr : IsNumber r) (hle : |value r| ≤ 2 ^ 27) :
    ∃ y, normalizeRotation limit r = some y ∧ InTurn y := by
  obtain ⟨x, hx, hnumber, hpos, hbound⟩ := exists_raise hr hle
  obtain ⟨y, hy, hturn⟩ := exists_lower hnumber hpos hbound
  exact ⟨y, Option.bind_eq_some_iff.mpr ⟨x, hx, hy⟩, hturn⟩

theorem normalizeRotation_of_isNaN (h : isNaN r = true) (n : ℕ) :
    normalizeRotation n r = some r := by
  have hlt : lt r (literal 0) = false := by
    rw [lt, h, Bool.not_true, Bool.false_and, Bool.false_and]
  have hle : le fullTurn r = false := by
    rw [le, h, Bool.not_true, Bool.and_false, Bool.false_and]
  exact Option.bind_eq_some_iff.mpr ⟨r, raise_of_not hlt n, lower_of_not hle n⟩

/-- Too far from zero the loop on that side never ends. -/
theorem normalizeRotation_eq_none (hr : IsNumber r) (hlarge : 2 ^ 27 < |value r|) (n : ℕ) :
    normalizeRotation n r = none := by
  rcases lt_abs.mp hlarge with hpos | hneg
  · have hcond : lt r (literal 0) = false := by
      rw [← Bool.not_eq_true, lt_zero_iff hr]
      linarith
    rw [normalizeRotation, raise_of_not hcond, Option.bind_some]
    refine runWhile_eq_none (I := fun r => IsNumber r ∧ 2 ^ 27 < value r) ⟨hr, hpos⟩ ?_ n
    rintro x ⟨hx, hxlarge⟩
    have hvalue := fullTurn_le_seven
    exact ⟨(fullTurn_le_iff hx).mpr (by linarith), sub_of_lt hx hxlarge⟩
  · have hnone : raise n r = none := by
      refine runWhile_eq_none (I := fun r => IsNumber r ∧ value r < -2 ^ 27)
        ⟨hr, by linarith⟩ ?_ n
      rintro x ⟨hx, hxlarge⟩
      exact ⟨(lt_zero_iff hx).mpr (by linarith), add_of_lt hx hxlarge⟩
    rw [normalizeRotation, hnone, Option.bind_none]

theorem normalizeRotation_returns_iff :
    (∃ n, (normalizeRotation n r).isSome = true) ↔ Turnable r := by
  by_cases hr : IsNumber r
  · constructor
    · rintro ⟨n, hn⟩
      refine Or.inr (not_lt.mp fun hlarge => ?_)
      rw [normalizeRotation_eq_none hr hlarge n] at hn
      cases hn
    · rintro (hnan | hle)
      · exact ⟨0, by rw [normalizeRotation_of_isNaN hnan]; rfl⟩
      · obtain ⟨y, hy, -⟩ := exists_normalizeRotation hr hle
        exact ⟨limit, by rw [hy]; rfl⟩
  · have hnan : isNaN r = true := by
      rw [← Bool.not_eq_false, isNaN_eq_false_iff]
      exact hr
    exact iff_of_true ⟨0, by rw [normalizeRotation_of_isNaN hnan]; rfl⟩ (Or.inl hnan)

end Loops

section Frames

variable {f : Functions} {n m : ℕ} {dt : UInt32}

theorem simulatePlayer_isSome (f : Functions) (n : ℕ) (dt : UInt32) (state : PlayerState)
    (input : Keyboard) :
    (simulatePlayer f n state input dt).isSome =
      (normalizeRotation n (turn input dt state.rotation.intValue)).isSome := by
  rw [simulatePlayer, applyInput, Option.isSome_map, Option.isSome_map]

theorem simulateFrame_cons (f : Functions) (n : ℕ) (dt : UInt32) (player : PlayerState)
    (players : List PlayerState) : simulateFrame f n (player :: players) dt =
      (simulatePlayer f n player player.keyboard dt).bind fun newState =>
        (simulateFrame f n players dt).map (newState :: ·) := by
  rw [simulateFrame, List.mapM_cons, ← simulateFrame]
  cases simulatePlayer f n player player.keyboard dt with
  | none => rfl
  | some newState => cases simulateFrame f n players dt <;> rfl

/-- A frame needs all its players. -/
theorem simulateFrame_isSome_iff (players : List PlayerState) :
    (simulateFrame f n players dt).isSome = true ↔ ∀ player ∈ players,
      (normalizeRotation n (turn player.keyboard dt player.rotation.intValue)).isSome = true := by
  induction players with
  | nil => exact iff_of_true rfl fun _ h => absurd h List.not_mem_nil
  | cons player players ih =>
    have hplayer := simulatePlayer_isSome f n dt player player.keyboard
    rw [List.forall_mem_cons, ← ih, ← hplayer, simulateFrame_cons]
    cases simulatePlayer f n player player.keyboard dt with
    | none => exact iff_of_false Bool.false_ne_true fun h => Bool.false_ne_true h.1
    | some newState =>
      cases simulateFrame f n players dt with
      | none => exact iff_of_false Bool.false_ne_true fun h => Bool.false_ne_true h.2
      | some newStates => exact iff_of_true rfl ⟨rfl, rfl⟩

/-- A frame is simulated, given enough rounds, exactly when the turn leaves every player
with a rotation that is not too far from zero; otherwise the call never returns. -/
theorem simulateFrame_returns_iff (f : Functions) (players : List PlayerState) (dt : UInt32) :
    (∃ n, (simulateFrame f n players dt).isSome = true) ↔
      ∀ player ∈ players, Turnable (turn player.keyboard dt player.rotation.intValue) := by
  constructor
  · rintro ⟨n, hn⟩ player hplayer
    have hsome := (simulateFrame_isSome_iff players).mp hn player hplayer
    exact normalizeRotation_returns_iff.mp ⟨n, hsome⟩
  · intro h
    -- the player that needs the most rounds decides
    have hrounds : ∃ n, ∀ player ∈ players,
        (normalizeRotation n (turn player.keyboard dt player.rotation.intValue)).isSome = true := by
      induction players with
      | nil => exact ⟨0, fun _ hmem => absurd hmem List.not_mem_nil⟩
      | cons player players ih =>
        obtain ⟨hfirst, hrest⟩ := List.forall_mem_cons.mp h
        obtain ⟨n, hn⟩ := normalizeRotation_returns_iff.mpr hfirst
        obtain ⟨m, hm⟩ := ih hrest
        refine ⟨max n m, List.forall_mem_cons.mpr ⟨?_, fun other hother => ?_⟩⟩
        · exact isSome_normalizeRotation_mono hn (Nat.le_max_left n m)
        · exact isSome_normalizeRotation_mono (hm other hother) (Nat.le_max_right n m)
    obtain ⟨n, hn⟩ := hrounds
    exact ⟨n, (simulateFrame_isSome_iff players).mpr hn⟩

/-- The number after two to the 27 less a turn. -/
example : sub 0x4d000001 fullTurn = 0x4d000001 := by decide +kernel

end Frames

end RocketGame.HeadingLoops
