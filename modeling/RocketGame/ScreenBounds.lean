import RocketGame.RocketMotion
import RocketGame.WorldBounds

/-!
The rocket of the .NET client in single precision. In frames of at most half a second the
drag takes more from a large velocity than the thrust and the fall can add, and in frames
too short for that the additions are rounded away. So no float of the motion becomes
infinite or stops being a number, and the edges hold the rocket and its packets on the
screen.
-/
namespace RocketGame.ScreenBounds

open Binary32 HeadingLoops PacketRoundTrip PhysicsSimulation RocketMotion RocketShared Runs
  ShotReceiving
open WorldBounds (BoundedFunctions within_ofNat)

def truncate (q : ℚ) : ℤ := q.num.tdiv q.den

/-- (int)(value * 1_000). -/
def toThousandths (x : UInt32) : Thousandths :=
  Int32.ofInt (truncate (value (mul x (literal 1000))))

/-- Single precision, with the functions of Math. -/
def single (f : Functions) : Arithmetic UInt32 where
  ofThousandths t := div (literal t.toInt) (literal 1000)
  isFar u v :=
    let x := sub u.x v.x
    let y := sub u.y v.y
    lt (literal 50) (f.sqrt (add (mul x x) (mul y y)))
  literal := literal
  toThousandths := toThousandths
  add := add
  sub := sub
  mul := mul
  div := div
  lt := lt
  le := le
  cos := f.cos
  sin := f.sin
  lerp x y t := add x (mul (sub y x) t)

/-- -MathHelper.PiOver2. -/
def negPiOver2 : UInt32 := 0xbfc90fdb

/-- Neither texture is larger than the screen. -/
structure Fitting (texture : Texture2D) : Prop where
  width : 0 ≤ texture.width ∧ texture.width ≤ 1024
  height : 0 ≤ texture.height ∧ texture.height ≤ 768

/-- A frame takes from zero to half a second. -/
structure Brief (dt : UInt32) : Prop where
  finite : isFinite dt = true
  low : 0 ≤ value dt
  high : value dt ≤ 1 / 2

def Short : Event UInt32 → Prop
  | .update _ deltaTime => Brief deltaTime
  | _ => True

structure Inside (low high : ℤ) (pos : UInt32) : Prop where
  finite : isFinite pos = true
  low : low ≤ value pos
  high : value pos ≤ high

/-- The bound on the velocity along each axis; in thousandths it still is an int. -/
def maxVelocity : ℚ := 2 ^ 21

structure Moving (velocity : Vector2 UInt32) : Prop where
  x : Within maxVelocity velocity.x
  y : Within maxVelocity velocity.y

/-- The centre of the rocket is on the screen, with room for its texture. -/
structure OnScreen (texture : Texture2D) (position : Vector2 UInt32) : Prop where
  x : Inside (texture.width.tdiv 2) (1024 - texture.width.tdiv 2) position.x
  y : Inside (texture.height.tdiv 2) (768 - texture.height.tdiv 2) position.y

/-- A shot not farther from the screen than its texture is large. -/
structure Flying (texture : Texture2D) (shot : Shot UInt32) : Prop where
  active : shot.isActive = true
  x : Inside (-texture.width) (1024 + texture.width) shot.position.x
  y : Inside (-texture.height) (768 + texture.height) shot.position.y
  rotation : isFinite shot.rotation = true
  speed : shot.speed = literal 1200

/-- The int stands for the float; the cast has not overflowed. -/
def Told (x : UInt32) (thousandths : Thousandths) : Prop :=
  thousandths.toInt = truncate (value (mul x (literal 1000)))

structure Telling (texture : Texture2D) (packet : NetworkPacket) : Prop where
  lowX : 1000 * texture.width.tdiv 2 ≤ packet.positionX.toInt
  highX : packet.positionX.toInt ≤ 1000 * (1024 - texture.width.tdiv 2)
  lowY : 1000 * texture.height.tdiv 2 ≤ packet.positionY.toInt
  highY : packet.positionY.toInt ≤ 1000 * (768 - texture.height.tdiv 2)
  velocity : ∃ velocity, Moving velocity ∧ Told velocity.x packet.velocityX ∧
    Told velocity.y packet.velocityY
  flags : FlagsAreBits packet

structure Kept (content : Content) (rocket : Rocket UInt32) : Prop where
  position : OnScreen content.rocketTexture rocket.position
  velocity : Moving rocket.velocity
  rotation : Within (2 ^ 25) rocket.rotation
  speed : rocket.speed = literal 400
  shots : ∀ shot ∈ rocket.shots, Flying content.shotTexture shot

/-- With the packets that can still be or have been sent. -/
structure InSight (content : Content) (s : GameThread UInt32) : Prop where
  rocket : Kept content s.rocket
  packets : ∀ packet ∈ packets s.handOver, Telling content.rocketTexture packet

section Thousandths

variable {q : ℚ} {k : ℤ}

theorem truncate_of_nonneg (h : 0 ≤ q) : truncate q = q.floor := by
  rw [truncate, Rat.floor_def, Int.tdiv_eq_ediv_of_nonneg (Rat.num_nonneg.mpr h)]

theorem truncate_neg (q : ℚ) : truncate (-q) = -truncate q := by
  rw [truncate, truncate, Rat.num_neg_eq_neg_num, Rat.den_neg_eq_den, Int.neg_tdiv]

theorem le_truncate (hk : 0 ≤ k) (h : k ≤ q) : k ≤ truncate q := by
  rw [truncate_of_nonneg ((Int.cast_nonneg hk).trans h)]
  exact Rat.le_floor_iff.mpr h

theorem truncate_le (hq : 0 ≤ q) (h : q ≤ k) : truncate q ≤ k := by
  rw [truncate_of_nonneg hq]
  exact Int.cast_le.mp ((Rat.floor_le q).trans h)

theorem abs_truncate_le (h : |q| ≤ k) : |truncate q| ≤ k := by
  have hnonneg : ∀ {p : ℚ}, 0 ≤ p → 0 ≤ truncate p := fun hp => le_truncate le_rfl (by simpa using hp)
  rcases le_total 0 q with hq | hq
  · rw [abs_of_nonneg (hnonneg hq)]
    exact truncate_le hq (abs_of_nonneg hq ▸ h)
  · have hneg := neg_nonneg.mpr hq
    rw [← abs_neg, ← truncate_neg, abs_of_nonneg (hnonneg hneg)]
    exact truncate_le hneg (abs_of_nonpos hq ▸ h)

end Thousandths

section Numbers

variable {x : UInt32} {low high : ℤ}

theorem representable_maxVelocity : Representable maxVelocity := by
  have h := representable_natCast (k := 2 ^ 21) (by decide)
  rwa [Nat.cast_pow, Nat.cast_two] at h

/-- The bound in thousandths, the largest number below two to the 31 that is needed. -/
theorem representable_thousandths : Representable 2097152000 := by
  refine ⟨pack false (157 * 2 ^ 23 + 7995392), by decide, ?_⟩
  have hunits : units (157 * 2 ^ 23 + 7995392) = 2097152000 * 2 ^ 149 := by decide
  rw [value_pack (by decide), if_neg Bool.false_ne_true, magnitude, hunits, Nat.cast_mul,
    Nat.cast_pow, Nat.cast_two, mul_div_cancel_right₀ _ (pow_ne_zero 149 two_ne_zero),
    Nat.cast_ofNat]

theorem value_thousand : value (literal 1000) = 1000 :=
  value_literal (representable_ofNat 1000 (by decide))

theorem told_toThousandths (h : Within maxVelocity x) : Told x (toThousandths x) := by
  have hthousand : Within 1000 (literal 1000) := within_ofNat 1000 (by decide) (by norm_num)
  have hproduct : Within 2097152000 (mul x (literal 1000)) :=
    h.mul hthousand representable_thousandths (by norm_num [maxVelocity])
  have hbound : |truncate (value (mul x (literal 1000)))| ≤ 2097152000 :=
    abs_truncate_le (by exact_mod_cast hproduct.bound)
  obtain ⟨hlow, hhigh⟩ := abs_le.mp hbound
  exact Int32.toInt_ofInt_of_le (by omega) (by omega)

/-- A place on the screen is told between the thousandths of its edges. -/
theorem Inside.toInt_toThousandths (h : Inside low high x) (hlow : 0 ≤ low) (hhigh : high ≤ 1024) :
    1000 * low ≤ (toThousandths x).toInt ∧ (toThousandths x).toInt ≤ 1000 * high := by
  have hvalue : (0 : ℚ) ≤ value x := (Int.cast_nonneg hlow).trans h.low
  have hsize : value x ≤ 1024 := h.high.trans (by exact_mod_cast hhigh)
  have hedge : ∀ {k : ℤ}, 0 ≤ k → k ≤ 1024 → Representable ((1000 * k : ℤ) : ℚ) := fun hk hk' =>
    representable_intCast (by rw [abs_of_nonneg (by omega)]; omega)
  have hle : low ≤ high := Int.cast_le.mp (h.low.trans h.high)
  have htold : (toThousandths x).toInt = truncate (value (mul x (literal 1000))) := by
    refine told_toThousandths ⟨h.finite, ?_⟩
    rw [abs_of_nonneg hvalue]
    exact hsize.trans (by norm_num [maxVelocity])
  rw [htold, mul_of_isFinite h.finite (isFinite_literal (representable_ofNat 1000 (by decide))),
    value_thousand]
  have hhigh' := h.high
  have hlow' := h.low
  have hcast : ∀ k : ℤ, ((1000 * k : ℤ) : ℚ) = k * 1000 := fun k => by push_cast; ring
  have hproduct : (0 : ℚ) ≤ value (encode (value x * 1000) (negative x != negative (literal 1000))) :=
    le_value_encode_of_representable representable_zero (by linarith)
  constructor
  · refine le_truncate (by omega) (le_value_encode_of_representable (hedge hlow (by omega)) ?_)
    rw [hcast]
    linarith
  · refine truncate_le hproduct (value_encode_le_of_representable (hedge (by omega) hhigh) ?_)
    rw [hcast]
    linarith

end Numbers

section Velocity

variable {dt : UInt32}

theorem Brief.within (h : Brief dt) : Within (1 / 2) dt :=
  ⟨h.finite, abs_le.mpr ⟨by linarith [h.low], h.high⟩⟩

/-- What the drag leaves of the velocity in a frame that takes at least c. -/
theorem within_resistance {c : ℚ} (hdt : Brief dt) (hlow : c ≤ value dt)
    (hc : Representable (c / 2)) (hrest : Representable (1 - c / 2)) :
    Within (1 - c / 2) (sub (literal 1) (mul (literal 0.5) dt)) := by
  have hhalf : value (literal 0.5) = 1 / 2 := by
    rw [show (0.5 : ℚ) = 1 / 2 by norm_num, value_literal representable_half]
  have hfactor : Within (1 / 2) (literal 0.5) :=
    within_literal representable_half (by norm_num [abs_of_pos])
  have hless : Within (1 / 2) (mul (literal 0.5) dt) :=
    hfactor.mul hdt.within representable_half (by norm_num)
  have hmore : c / 2 ≤ value (mul (literal 0.5) dt) := by
    rw [mul_of_isFinite hfactor.finite hdt.finite, hhalf]
    exact le_value_encode_of_representable hc (by linarith)
  have hhigh := (abs_le.mp hless.bound).2
  rw [sub_of_isFinite (isFinite_literal representable_one) hless.finite,
    value_literal representable_one]
  refine within_encode hrest ?_
  rw [abs_of_nonneg (by linarith)]
  linarith

theorem within_thrust {b c : ℚ} {heading : UInt32} (hheading : Within 1 heading)
    (hdt : Within b dt) (hc : Representable c) (hle : 400 * b ≤ c) :
    Within c (mul (mul heading (literal 400)) dt) := by
  have hpower : Within 400 (literal 400) := within_ofNat 400 (by decide) (by norm_num)
  have hforce := hheading.mul hpower (representable_ofNat 400 (by decide)) (by norm_num)
  exact hforce.mul hdt hc hle

theorem within_fall {b c : ℚ} (hdt : Within b dt) (hc : Representable c) (hle : 50 * b ≤ c) :
    Within c (mul (literal 50) dt) := by
  have hgravity : Within 50 (literal 50) := within_ofNat 50 (by decide) (by norm_num)
  exact hgravity.mul hdt hc hle

/-- One axis of the velocity in a frame: its bound after the thrust and after the drag. -/
structure Held (dt : UInt32) (thrusted dragged : ℚ) : Prop where
  start : maxVelocity ≤ thrusted
  thrust : ∀ {velocity heading}, Within maxVelocity velocity → Within 1 heading →
    Within thrusted (add velocity (mul (mul heading (literal 400)) dt))
  drag : ∀ {velocity}, Within thrusted velocity →
    Within dragged (mul velocity (sub (literal 1) (mul (literal 0.5) dt)))
  fall : ∀ {velocity}, Within dragged velocity →
    Within maxVelocity (add velocity (mul (literal 50) dt))
  finish : dragged ≤ maxVelocity

/-- In a long frame the drag takes what the thrust and the fall add. -/
theorem held_of_long (hdt : Brief dt) (hlong : 1 / 4096 ≤ value dt) :
    Held dt 2097352 2097096 := by
  have hthrusted := representable_ofNat 2097352 (by decide)
  have hdragged := representable_ofNat 2097096 (by decide)
  have hloss : Representable (1 / 4096 / 2) := by
    have h := representable_dyadic (k := 1) (j := 13) (by decide) (by decide)
    norm_num at h ⊢
    exact h
  have hrest : Representable (1 - 1 / 4096 / 2) := by
    have h := representable_dyadic (k := 8191) (j := 13) (by decide) (by decide)
    norm_num at h ⊢
    exact h
  have hresistance := within_resistance hdt hlong hloss hrest
  constructor
  · norm_num [maxVelocity]
  · intro velocity heading hvelocity hheading
    have hthrust := within_thrust hheading hdt.within (representable_ofNat 200 (by decide))
      (by norm_num)
    exact hvelocity.add hthrust hthrusted (by norm_num [maxVelocity])
  · exact fun hvelocity => hvelocity.mul hresistance hdragged (by norm_num)
  · intro velocity hvelocity
    have hfall := within_fall hdt.within (representable_ofNat 25 (by decide)) (by norm_num)
    exact hvelocity.add hfall representable_maxVelocity (by norm_num [maxVelocity])
  · norm_num [maxVelocity]

/-- In a short one both are rounded away from the bound. -/
theorem held_of_short (hdt : Brief dt) (hshort : value dt ≤ 1 / 4096) :
    Held dt maxVelocity maxVelocity := by
  have hbrief : Within (1 / 4096) dt :=
    ⟨hdt.finite, abs_le.mpr ⟨by linarith [hdt.low], hshort⟩⟩
  have hslight : Representable (25 / 256) := by
    exact_mod_cast representable_dyadic (k := 25) (j := 8) (by decide) (by decide)
  have hresistance : Within 1 (sub (literal 1) (mul (literal 0.5) dt)) := by
    have h := within_resistance hdt hdt.low (by rw [zero_div]; exact representable_zero)
      (by rw [zero_div, sub_zero]; exact representable_one)
    rwa [zero_div, sub_zero] at h
  constructor
  · exact le_rfl
  · intro velocity heading hvelocity hheading
    have hthrust := within_thrust hheading hbrief hslight (by norm_num)
    exact hvelocity.add_slight (by decide) hthrust (by norm_num)
  · exact fun hvelocity => hvelocity.mul hresistance representable_maxVelocity (mul_one _).le
  · intro velocity hvelocity
    have hfall := within_fall hbrief hslight (by norm_num)
    exact hvelocity.add_slight (by decide) hfall (by norm_num)
  · exact le_rfl

theorem exists_held (hdt : Brief dt) : ∃ thrusted dragged, Held dt thrusted dragged := by
  rcases le_total (value dt) (1 / 4096) with hshort | hlong
  · exact ⟨_, _, held_of_short hdt hshort⟩
  · exact ⟨_, _, held_of_long hdt hlong⟩

end Velocity

section Frame

theorem tdiv_two_bounds {n k : ℤ} (h : 0 ≤ n) (h' : n ≤ 2 * k) :
    0 ≤ n.tdiv 2 ∧ n.tdiv 2 ≤ k := by
  rw [Int.tdiv_eq_ediv_of_nonneg h]
  omega

theorem Fitting.halfWidth {texture : Texture2D} (h : Fitting texture) :
    0 ≤ texture.width.tdiv 2 ∧ texture.width.tdiv 2 ≤ 512 :=
  tdiv_two_bounds h.width.1 h.width.2

theorem Fitting.halfHeight {texture : Texture2D} (h : Fitting texture) :
    0 ≤ texture.height.tdiv 2 ∧ texture.height.tdiv 2 ≤ 384 :=
  tdiv_two_bounds h.height.1 h.height.2

variable {f : Functions} {content : Content} {dt : UInt32} {position velocity : Vector2 UInt32}

theorem Inside.within {low high k : ℤ} {x : UInt32} (h : Inside low high x) (hlow : -k ≤ low)
    (hhigh : high ≤ k) : Within k x := by
  refine ⟨h.finite, abs_le.mpr ⟨le_trans ?_ h.low, h.high.trans (Int.cast_le.mpr hhigh)⟩⟩
  rw [← Int.cast_neg]
  exact Int.cast_le.mpr hlow

theorem inside_literal {low high k : ℤ} (hk : |k| < 2 ^ 24) (hlow : low ≤ k) (hhigh : k ≤ high) :
    Inside low high (literal k) := by
  have hvalue := value_literal (representable_intCast hk)
  refine ⟨isFinite_literal (representable_intCast hk), ?_, ?_⟩
  · exact (Int.cast_le.mpr hlow).trans hvalue.ge
  · exact hvalue.trans_le (Int.cast_le.mpr hhigh)

theorem inside_of_not_lt {low high : ℤ} {pos : UInt32} (hlow : |low| < 2 ^ 24)
    (hhigh : |high| < 2 ^ 24) (hpos : isFinite pos = true) (hleft : ¬lt pos (literal low) = true)
    (hright : ¬lt (literal high) pos = true) : Inside low high pos := by
  have hlowest := representable_intCast hlow
  have hhighest := representable_intCast hhigh
  have hnumber := isNumber_of_isFinite hpos
  refine ⟨hpos, not_lt.mp fun h => hleft ?_, not_lt.mp fun h => hright ?_⟩
  · rw [lt_eq_true_iff, value_literal hlowest]
    exact ⟨hnumber, isNumber_of_isFinite (isFinite_literal hlowest), h⟩
  · rw [lt_eq_true_iff, value_literal hhighest]
    exact ⟨isNumber_of_isFinite (isFinite_literal hhighest), hnumber, h⟩

/-- A finite number is held between the edges, with the velocity along it or none. -/
theorem inside_keepBetween (f : Functions) {low high : ℤ} {pos velocity : UInt32} (hlow : |low| < 2 ^ 24)
    (hhigh : |high| < 2 ^ 24) (hle : low ≤ high) (hpos : isFinite pos = true)
    (hvelocity : Within maxVelocity velocity) :
    Inside low high
        (keepBetween (single f) (literal low) (literal high) (pos, velocity)).1 ∧
      Within maxVelocity
        (keepBetween (single f) (literal low) (literal high) (pos, velocity)).2 := by
  have hrest : Within maxVelocity (literal 0) :=
    within_literal representable_maxVelocity (by norm_num [maxVelocity])
  have hatLow : Inside low high (literal low) := inside_literal hlow le_rfl hle
  have hatHigh : Inside low high (literal high) := inside_literal hhigh hle le_rfl
  unfold keepBetween single
  dsimp only
  by_cases hleft : lt pos (literal low) = true
  · rw [if_pos hleft]
    dsimp only
    split
    · exact ⟨hatHigh, hrest⟩
    · exact ⟨hatLow, hrest⟩
  · rw [if_neg hleft]
    by_cases hright : lt (literal high) pos = true
    · rw [if_pos hright]
      exact ⟨hatHigh, hrest⟩
    · rw [if_neg hright]
      exact ⟨inside_of_not_lt hlow hhigh hpos hleft hright, hvelocity⟩

theorem OnScreen.within {texture : Texture2D} (hfit : Fitting texture)
    (h : OnScreen texture position) : Within 1024 position.x ∧ Within 1024 position.y := by
  obtain ⟨hwidth, hwidth'⟩ := hfit.halfWidth
  obtain ⟨hheight, hheight'⟩ := hfit.halfHeight
  constructor
  · exact_mod_cast h.x.within (k := 1024) (by omega) (by omega)
  · exact_mod_cast h.y.within (k := 1024) (by omega) (by omega)

/-- The way of a frame ends at a finite number. -/
theorem isFinite_add_mul {pos velocity : UInt32} (hpos : Within 1024 pos)
    (hvelocity : Within maxVelocity velocity) (hdt : Brief dt) :
    isFinite (add pos (mul velocity dt)) = true := by
  have hway : Within maxVelocity (mul velocity dt) :=
    hvelocity.mul hdt.within representable_maxVelocity (by norm_num [maxVelocity])
  exact (hpos.add hway (representable_ofNat 2098176 (by decide))
    (by norm_num [maxVelocity])).finite

/-- Drag, fall, way and edges, after the thrust. -/
theorem onScreen_move {thrusted dragged : ℚ} (hfit : Fitting content.rocketTexture)
    (hdt : Brief dt) (hheld : Held dt thrusted dragged)
    (hposition : OnScreen content.rocketTexture position) (hx : Within thrusted velocity.x)
    (hy : Within thrusted velocity.y) :
    OnScreen content.rocketTexture
        (RocketMotion.move (single f) content {} dt position velocity).1 ∧
      Moving (RocketMotion.move (single f) content {} dt position velocity).2 := by
  obtain ⟨hwidth, hwidth'⟩ := hfit.halfWidth
  obtain ⟨hheight, hheight'⟩ := hfit.halfHeight
  obtain ⟨hposX, hposY⟩ := hposition.within hfit
  have hdragX := (hheld.drag hx).mono hheld.finish
  have hfallY := hheld.fall (hheld.drag hy)
  have hlowX : |content.rocketTexture.width.tdiv 2| < 2 ^ 24 := by rw [abs_lt]; omega
  have hhighX : |1024 - content.rocketTexture.width.tdiv 2| < 2 ^ 24 := by rw [abs_lt]; omega
  have hlowY : |content.rocketTexture.height.tdiv 2| < 2 ^ 24 := by rw [abs_lt]; omega
  have hhighY : |768 - content.rocketTexture.height.tdiv 2| < 2 ^ 24 := by rw [abs_lt]; omega
  have hkeptX := inside_keepBetween f hlowX hhighX (by omega)
    (isFinite_add_mul hposX hdragX hdt) hdragX
  have hkeptY := inside_keepBetween f hlowY hhighY (by omega)
    (isFinite_add_mul hposY hfallY hdt) hfallY
  exact ⟨⟨hkeptX.1, hkeptY.1⟩, ⟨hkeptX.2, hkeptY.2⟩⟩

theorem within_turn {r : UInt32} (hdt : Brief dt) (hr : Within (2 ^ 25) r) :
    Within (2 ^ 25) (turnLeft (single f) dt r) ∧ Within (2 ^ 25) (turnRight (single f) dt r) := by
  have hspeed : Within 2 (literal 2) := within_ofNat 2 (by decide) (by norm_num)
  have hangle : Within 1 (mul (literal 2) dt) :=
    hspeed.mul hdt.within representable_one (by norm_num)
  exact ⟨hr.add_slight (by decide) hangle.neg (by norm_num),
    hr.add_slight (by decide) hangle (by norm_num)⟩

structure Near (shot : Shot UInt32) : Prop where
  x : Within 2048 shot.position.x
  y : Within 2048 shot.position.y
  rotation : isFinite shot.rotation = true
  speed : shot.speed = literal 1200

theorem Flying.near {shot : Shot UInt32} (hfit : Fitting content.shotTexture)
    (h : Flying content.shotTexture shot) : Near shot := by
  obtain ⟨hwidth, hwidth'⟩ := hfit.width
  obtain ⟨hheight, hheight'⟩ := hfit.height
  refine ⟨?_, ?_, h.rotation, h.speed⟩
  · exact_mod_cast h.x.within (k := 2048) (by omega) (by omega)
  · exact_mod_cast h.y.within (k := 2048) (by omega) (by omega)

/-- A new shot starts at the tip of the rocket. -/
theorem near_new {rotation : UInt32} (hf : BoundedFunctions f)
    (hfit : Fitting content.rocketTexture) (hposition : OnScreen content.rocketTexture position)
    (hrotation : isFinite rotation = true) :
    Near (Shot.new (single f) (shotPosition (single f) content position rotation) rotation) := by
  have hlength : Within 1024 (literal content.rocketTexture.width) := by
    refine within_literal (representable_ofNat 1024 (by decide)) ?_
    rw [abs_of_nonneg (Int.cast_nonneg hfit.width.1)]
    exact_mod_cast hfit.width.2
  have htwo := representable_ofNat 2 (by decide)
  have hhalf : Within 1 (div (literal 1) (literal 2)) := by
    rw [div_of_isFinite (isFinite_literal representable_one) (isFinite_literal htwo)
      (by rw [value_literal htwo]; norm_num), value_literal representable_one, value_literal htwo]
    exact within_encode representable_one (by norm_num [abs_of_pos])
  have htip : ∀ {pos heading}, Within 1024 pos → Within 1 heading → Within 2048
      (add pos (mul (mul heading (literal content.rocketTexture.width))
        (div (literal 1) (literal 2)))) := by
    intro pos heading hpos hheading
    have hthousand := representable_ofNat 1024 (by decide)
    have hway := (hheading.mul hlength hthousand (by norm_num)).mul hhalf hthousand (by norm_num)
    exact hpos.add hway (representable_ofNat 2048 (by decide)) (by norm_num)
  obtain ⟨hposX, hposY⟩ := hposition.within hfit
  exact ⟨htip hposX (hf.cos _ hrotation), htip hposY (hf.sin _ hrotation), hrotation, rfl⟩

/-- What is still active after its update has not left the screen. -/
theorem Near.flying_update {shot : Shot UInt32} (hf : BoundedFunctions f) (hdt : Brief dt)
    (hfit : Fitting content.shotTexture) (h : Near shot)
    (hactive : (Shot.update (single f) content dt shot).isActive = true) :
    Flying content.shotTexture (Shot.update (single f) content dt shot) := by
  obtain ⟨hwidth, hwidth'⟩ := hfit.width
  obtain ⟨hheight, hheight'⟩ := hfit.height
  have hspeed : Within 1200 shot.speed := by
    rw [h.speed]
    exact within_ofNat 1200 (by decide) (by norm_num)
  have hway : ∀ {pos heading}, Within 2048 pos → Within 1 heading →
      isFinite (add pos (mul (mul heading shot.speed) dt)) = true := by
    intro pos heading hpos hheading
    have hforce := hheading.mul hspeed (representable_ofNat 1200 (by decide)) (by norm_num)
    have hstep := hforce.mul hdt.within (representable_ofNat 600 (by decide)) (by norm_num)
    exact (hpos.add hstep (representable_ofNat 4096 (by decide)) (by norm_num)).finite
  have hedges := hactive
  simp only [Shot.update, zero_sub, Bool.and_eq_true, Bool.not_eq_true',
    Bool.or_eq_false_iff] at hedges
  obtain ⟨-, ⟨⟨hleft, hright⟩, htop⟩, hbottom⟩ := hedges
  refine ⟨hactive, ?_, ?_, h.rotation, h.speed⟩
  · exact inside_of_not_lt (by rw [abs_lt]; omega) (by rw [abs_lt]; omega)
      (hway h.x (hf.cos _ h.rotation)) (Bool.eq_false_iff.mp hleft) (Bool.eq_false_iff.mp hright)
  · exact inside_of_not_lt (by rw [abs_lt]; omega) (by rw [abs_lt]; omega)
      (hway h.y (hf.sin _ h.rotation)) (Bool.eq_false_iff.mp htop) (Bool.eq_false_iff.mp hbottom)

end Frame

section Thread

variable {f : Functions} {content : Content} {dt : UInt32} {rocket : Rocket UInt32}

theorem Kept.rotation_update (h : Kept content rocket) (hdt : Brief dt) (f : Functions)
    (keyboardState : KeyboardState) :
    Within (2 ^ 25) (rocket.update (single f) content {} dt keyboardState).1.rotation := by
  have hleft : Within (2 ^ 25) (if keyboardState .a || keyboardState .left then
      turnLeft (single f) dt rocket.rotation else rocket.rotation) := by
    split
    · exact (within_turn hdt h.rotation).1
    · exact h.rotation
  unfold Rocket.update
  dsimp only
  split
  · exact (within_turn hdt hleft).2
  · exact hleft

theorem Kept.move_update (h : Kept content rocket) (hf : BoundedFunctions f)
    (hfit : Fitting content.rocketTexture) (hdt : Brief dt) (keyboardState : KeyboardState) :
    OnScreen content.rocketTexture
        (rocket.update (single f) content {} dt keyboardState).1.position ∧
      Moving (rocket.update (single f) content {} dt keyboardState).1.velocity := by
  obtain ⟨thrusted, dragged, hheld⟩ := exists_held hdt
  have hrotation := (h.rotation_update hdt f keyboardState).finite
  have hvelocity : ∀ r, isFinite r = true →
      let velocity := if keyboardState .w || keyboardState .up then
        thrust (single f) dt rocket.velocity r rocket.speed else rocket.velocity
      Within thrusted velocity.x ∧ Within thrusted velocity.y := by
    intro r hr
    dsimp only
    split
    · rw [h.speed]
      exact ⟨hheld.thrust h.velocity.x (hf.cos r hr), hheld.thrust h.velocity.y (hf.sin r hr)⟩
    · exact ⟨h.velocity.x.mono hheld.start, h.velocity.y.mono hheld.start⟩
  obtain ⟨hx, hy⟩ := hvelocity _ hrotation
  exact onScreen_move hfit hdt hheld h.position hx hy

theorem Kept.update (h : Kept content rocket) (hf : BoundedFunctions f)
    (hfit : Fitting content.rocketTexture) (hshot : Fitting content.shotTexture)
    (hdt : Brief dt) (keyboardState : KeyboardState) :
    Kept content (rocket.update (single f) content {} dt keyboardState).1 := by
  obtain ⟨hposition, hvelocity⟩ := h.move_update hf hfit hdt keyboardState
  have hrotation := h.rotation_update hdt f keyboardState
  refine ⟨hposition, hvelocity, hrotation, h.speed, fun shot hmem => ?_⟩
  obtain ⟨hmoved, hactive⟩ := List.mem_filter.mp hmem
  obtain ⟨shot, hshots, rfl⟩ := List.mem_map.mp hmoved
  have hnear : ∀ (isFiring : Bool) {new : Shot UInt32}, Near new →
      shot ∈ (if isFiring then rocket.shots ++ [new] else rocket.shots) → Near shot := by
    intro isFiring new hnew hmem
    cases isFiring with
    | true =>
      rcases List.mem_append.mp hmem with hold | hlast
      · exact (h.shots shot hold).near hshot
      · rwa [List.mem_singleton.mp hlast]
    | false => exact (h.shots shot hmem).near hshot
  have hnew := near_new hf hfit h.position hrotation.finite
  exact (hnear _ hnew hshots).flying_update hf hdt hshot hactive

theorem Kept.telling_update (h : Kept content rocket) (hf : BoundedFunctions f)
    (hfit : Fitting content.rocketTexture) (hdt : Brief dt) (keyboardState : KeyboardState)
    (b : Bool) : Telling content.rocketTexture
      { (rocket.update (single f) content {} dt keyboardState).2.packet with
        isFiring := if b then 1 else 0 } := by
  obtain ⟨hposition, hvelocity⟩ := h.move_update hf hfit hdt keyboardState
  obtain ⟨hwidth, hwidth'⟩ := hfit.halfWidth
  obtain ⟨hheight, hheight'⟩ := hfit.halfHeight
  obtain ⟨hlowX, hhighX⟩ := hposition.x.toInt_toThousandths (by omega) (by omega)
  obtain ⟨hlowY, hhighY⟩ := hposition.y.toInt_toThousandths (by omega) (by omega)
  exact ⟨hlowX, hhighX, hlowY, hhighY,
    ⟨_, hvelocity, told_toThousandths hvelocity.x, told_toThousandths hvelocity.y⟩,
    flagsAreBits_update b⟩

theorem inSight_step (hf : BoundedFunctions f) (hfit : Fitting content.rocketTexture)
    (hshot : Fitting content.shotTexture) {s s' : GameThread UInt32} {e : RocketMotion.Event UInt32}
    (hs : InSight content s) (he : Short e)
    (hstep : RocketMotion.step (single f) content {} s e = some s') : InSight content s' := by
  obtain ⟨keyboardState, deltaTime, rfl, hrocket, hpackets⟩ | ⟨hrocket, hpackets⟩ :=
    RocketMotion.step_cases hstep
  · refine ⟨hrocket ▸ hs.rocket.update hf hfit hshot he keyboardState, fun packet hpacket => ?_⟩
    rcases hpackets packet hpacket with hold | ⟨b, rfl⟩
    · exact hs.packets packet hold
    · exact hs.rocket.telling_update hf hfit he keyboardState b
  · exact ⟨hrocket ▸ hs.rocket, fun packet hpacket => hs.packets packet (hpackets packet hpacket)⟩

theorem inSight_start (hfit : Fitting content.rocketTexture) :
    InSight content { rocket := initializeRocket (single f) {} negPiOver2 } := by
  obtain ⟨hwidth, hwidth'⟩ := hfit.halfWidth
  obtain ⟨hheight, hheight'⟩ := hfit.halfHeight
  have hrest : Within maxVelocity (literal 0) :=
    within_literal representable_maxVelocity (by norm_num [maxVelocity])
  have hheading : Within (2 ^ 25) negPiOver2 := by
    refine ⟨by decide, ?_⟩
    rw [abs_value, ← magnitude_powerIndex]
    exact strictMono_magnitude.monotone (by decide)
  refine ⟨⟨⟨?_, ?_⟩, ⟨hrest, hrest⟩, hheading, rfl, ?_⟩, ?_⟩
  · exact inside_literal (k := 512) (by decide) (by omega) (by omega)
  · exact inside_literal (k := 384) (by decide) (by omega) (by omega)
  · exact fun _ hmem => absurd hmem List.not_mem_nil
  · exact fun _ hmem => absurd hmem List.not_mem_nil

/-- In every interleaving of the two threads, with any keys and frames of at most half a
second, the rocket is at a number on the screen, and so are its shots and its packets. -/
theorem always_inSight (hf : BoundedFunctions f) (hfit : Fitting content.rocketTexture)
    (hshot : Fitting content.shotTexture) {events : List (RocketMotion.Event UInt32)}
    (hshort : ∀ e ∈ events, Short e) :
    Always (RocketMotion.step (single f) content {}) (InSight content)
      { rocket := initializeRocket (single f) {} negPiOver2 } events :=
  always_of_step (inSight_start hfit)
    (fun _ _ _ hs he hstep => inSight_step hf hfit hshot hs he hstep)
    (throughout_of_forall_mem hshort)

end Thread

def upward : Functions where
  cos _ := literal 0
  sin _ := literal (-1)
  sqrt := WorldBounds.functionsAtZero.sqrt

theorem boundedFunctions_upward : BoundedFunctions upward := by
  have hcos : Within 1 (literal 0) := within_literal representable_one (by norm_num)
  have hsin : Within 1 (literal (-1)) := within_literal representable_one (by norm_num)
  exact ⟨fun _ _ => hcos, fun _ _ => hsin⟩

theorem brief_sixtieth : Brief (literal (1 / 60)) := by
  have h : Within (1 / 2) (literal (1 / 60)) :=
    within_literal representable_half (by norm_num [abs_of_pos])
  refine ⟨h.finite, ?_, (abs_le.mp h.bound).2⟩
  exact le_value_encode_of_representable representable_zero (by norm_num)

/-- Two frames with thrust; the second one fires and its packet is enqueued. -/
theorem always_inSight_firing :
    let events : List (RocketMotion.Event UInt32) :=
      [.update (fun key => key = .w) (literal (1 / 60)),
        .update (fun key => key = .w || key = .space) (literal (1 / 60)), .game]
    ∃ s, run (RocketMotion.step (single upward) content {})
        { rocket := initializeRocket (single upward) {} negPiOver2 } events = some s ∧
      InSight content s ∧ s.rocket.shots.length = 1 ∧
      (packets s.handOver).map NetworkPacket.positionY = [383711] := by
  intro events
  have hvalues : (run (RocketMotion.step (single upward) content {})
      { rocket := initializeRocket (single upward) {} negPiOver2 } events).map
        (fun s => (s.rocket.shots.length, (packets s.handOver).map NetworkPacket.positionY)) =
      some (1, [383711]) := by
    decide +kernel
  obtain ⟨s, hrun, hs⟩ := Option.map_eq_some_iff.mp hvalues
  obtain ⟨hlength, hplaces⟩ := Prod.mk.inj hs
  have hshort : ∀ e ∈ events, Short e :=
    List.forall_mem_cons.mpr ⟨brief_sixtieth, List.forall_mem_cons.mpr ⟨brief_sixtieth,
      List.forall_mem_singleton.mpr True.intro⟩⟩
  have hfit : Fitting content.rocketTexture := ⟨by decide, by decide⟩
  have hshot : Fitting content.shotTexture := ⟨by decide, by decide⟩
  have halways := always_inSight boundedFunctions_upward hfit hshot hshort
  exact ⟨s, hrun, halways.last hrun, hlength, hplaces⟩

end RocketGame.ScreenBounds
