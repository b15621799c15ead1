import RocketGame.HeadingLoops
import RocketGame.Runs

/-!
The world that the physics engine keeps. Frames of at most two seconds, with any keys in
between: every frame returns, every player stays in the world with a heading in one turn,
and no float of the motion becomes infinite or stops being a number. The friction bounds
the velocity, the clamp the speed that is shown.
-/
namespace RocketGame.WorldBounds

open Binary32 HeadingLoops PhysicsSimulation PlayerStates Runs

/-- The cosine and the sine of a finite number are finite and not beyond one. -/
structure BoundedFunctions (f : Functions) : Prop where
  cos : ∀ r, isFinite r = true → Within 1 (f.cos r)
  sin : ∀ r, isFinite r = true → Within 1 (f.sin r)

structure Inside (size pos : UInt32) : Prop where
  finite : isFinite pos = true
  low : 0 ≤ value pos
  high : value pos ≤ value size

structure Moving (bound : ℚ) (player : PlayerState) : Prop where
  x : Inside worldWidth player.pos.x.intValue
  y : Inside worldHeight player.pos.y.intValue
  velX : Within bound player.vel.x.intValue
  velY : Within bound player.vel.y.intValue
  rotation : InTurn player.rotation.intValue

structure InWorld (player : PlayerState) : Prop extends Moving 6000 player where
  speed : lt maxSpeed player.speed.intValue = false

inductive Event
  | frame (deltaTime : UInt32)
  | input (playerID : UInt8) (keyboard : Keyboard)

/-- Every loop may take as many rounds as it can need. -/
def step (f : Functions) (players : List PlayerState) : Event → Option (List PlayerState)
  | .frame deltaTime => simulateFrame f limit players deltaTime
  | .input playerID keyboard =>
      some (players.map fun player =>
        if player.playerID = playerID then { player with keyboard } else player)

/-- A frame takes from zero to two seconds. -/
structure Brief (dt : UInt32) : Prop where
  finite : isFinite dt = true
  low : 0 ≤ value dt
  high : value dt ≤ 2

def Short : Event → Prop
  | .frame deltaTime => Brief deltaTime
  | .input _ _ => True

section Numbers

theorem value_worldWidth : value worldWidth = 1920 :=
  value_literal (representable_ofNat 1920 (by decide))

theorem value_worldHeight : value worldHeight = 1080 :=
  value_literal (representable_ofNat 1080 (by decide))

theorem value_maxSpeed : value maxSpeed = 500 :=
  value_literal (representable_ofNat 500 (by decide))

theorem isFinite_maxSpeed : isFinite maxSpeed = true :=
  isFinite_literal (representable_ofNat 500 (by decide))

theorem not_maxSpeed_lt : lt maxSpeed maxSpeed = false := by
  rw [← Bool.not_eq_true, lt_eq_true_iff]
  exact fun h => lt_irrefl _ h.2.2

/-- The bounds of the motion are whole numbers that are not rounded. -/
theorem within_ofNat {q : ℚ} (k : ℕ) [k.AtLeastTwo] (hk : k < 2 ^ 24)
    (hq : |q| ≤ OfNat.ofNat k) : Within (OfNat.ofNat k) (literal q) :=
  within_literal (representable_ofNat k hk) hq

end Numbers

section Player

variable {f : Functions} {dt : UInt32} {player : PlayerState}

theorem Brief.within (h : Brief dt) : Within 2 dt :=
  ⟨h.finite, abs_le.mpr ⟨by linarith [h.low], h.high⟩⟩

/-- A brief turn goes at most a few turns away. -/
theorem within_turn {r : UInt32} (hr : InTurn r) (hdt : Brief dt) (input : Keyboard) :
    Within 100 (turn input dt r) := by
  have hspeed : Within 4 rotationSpeed := within_ofNat 4 (by decide) (by norm_num [abs_of_pos])
  have hangle : Within 8 (mul rotationSpeed dt) :=
    hspeed.mul hdt.within (representable_ofNat 8 (by decide)) (by norm_num)
  have hleft : Within 16 (if input.left ≠ 0 then sub r (mul rotationSpeed dt) else r) := by
    split
    · exact hr.within.sub hangle (representable_ofNat 16 (by decide)) (by norm_num)
    · exact hr.within.mono (by norm_num)
  unfold turn
  dsimp only
  split
  · exact hleft.add hangle (representable_ofNat 100 (by decide)) (by norm_num)
  · exact hleft.mono (by norm_num)

theorem within_thrust {heading : UInt32} (hheading : Within 1 heading) (hdt : Brief dt) :
    Within 200 (thrust heading dt) := by
  have hacceleration : Within 100 acceleration :=
    within_ofNat 100 (by decide) (by norm_num [abs_of_pos])
  have hforce := hheading.mul hacceleration (representable_ofNat 100 (by decide)) (by norm_num)
  exact hforce.mul hdt.within (representable_ofNat 200 (by decide)) (by norm_num)

/-- The thrust forwards, and backwards with half of it. -/
theorem within_accelerate (hf : BoundedFunctions f) (input : Keyboard) {r : UInt32} (hr : InTurn r)
    (hdt : Brief dt) {vel : Vector} (hx : Within 6000 vel.x.intValue)
    (hy : Within 6000 vel.y.intValue) :
    Within 6300 (accelerate f input dt r vel).x.intValue ∧
      Within 6300 (accelerate f input dt r vel).y.intValue := by
  have hcos := within_thrust (hf.cos r hr.within.finite) hdt
  have hsin := within_thrust (hf.sin r hr.within.finite) hdt
  have hforth : ∀ {v t}, Within 6000 v → Within 200 t → Within 6200 (add v t) :=
    fun hv ht => hv.add ht (representable_ofNat 6200 (by decide)) (by norm_num)
  have hback : ∀ {v t}, Within 6200 v → Within 200 t →
      Within 6300 (add v (mul t (literal (-0.5)))) := by
    intro v t hv ht
    have hhalf : Within (1 / 2) (literal (-0.5)) :=
      within_literal representable_half (by norm_num [abs_of_pos])
    have hreverse := ht.mul hhalf (representable_ofNat 100 (by decide)) (by norm_num)
    exact hv.add hreverse (representable_ofNat 6300 (by decide)) (by norm_num)
  unfold accelerate
  generalize hvel : (if input.up ≠ 0 then _ else vel) = vel₁
  have hup : Within 6200 vel₁.x.intValue ∧ Within 6200 vel₁.y.intValue := by
    rw [← hvel]
    split
    · exact ⟨hforth hx hcos, hforth hy hsin⟩
    · exact ⟨hx.mono (by norm_num), hy.mono (by norm_num)⟩
  dsimp only
  split
  · exact ⟨hback hup.1 hcos, hback hup.2 hsin⟩
  · exact ⟨hup.1.mono (by norm_num), hup.2.mono (by norm_num)⟩

theorem inside_wrap {size pos : UInt32} (hsize : isFinite size = true) (hle : 0 ≤ value size)
    (hpos : isFinite pos = true) : Inside size (wrap size pos) := by
  have hzero := isNumber_zero
  have hnumber := isNumber_of_isFinite hpos
  unfold wrap
  split
  · exact ⟨hsize, hle, le_rfl⟩
  · next hlow =>
    have hlow' : 0 ≤ value pos := by
      by_contra hneg
      exact hlow ((lt_zero_iff hnumber).mpr (not_le.mp hneg))
    split
    · exact ⟨isFinite_zero, value_zero.ge, value_zero.trans_le hle⟩
    · next hhigh =>
      refine ⟨hpos, hlow', not_lt.mp fun hlt => hhigh ?_⟩
      exact lt_eq_true_iff.mpr ⟨isNumber_of_isFinite hsize, hnumber, hlt⟩

/-- Motion, friction and the edges. -/
theorem inside_move {size pos vel : UInt32} (hsize : Within 1920 size) (hle : 0 ≤ value size)
    (hpos : Inside size pos) (hvel : Within 6300 vel) (hdt : Brief dt) :
    Inside size (wrap size (add pos (mul vel dt))) := by
  have hplace : Within 1920 pos :=
    ⟨hpos.finite, abs_le.mpr ⟨by linarith [hpos.low],
      hpos.high.trans ((le_abs_self _).trans hsize.bound)⟩⟩
  have hway : Within 12600 (mul vel dt) :=
    hvel.mul hdt.within (representable_ofNat 12600 (by decide)) (by norm_num)
  exact inside_wrap hsize.finite hle
    (hplace.add hway (representable_ofNat 16384 (by decide)) (by norm_num)).finite

theorem within_friction {vel : UInt32} (hvel : Within 6300 vel) :
    Within 6000 (mul vel friction) := by
  have hrepresentable : Representable (487 / 512) := by
    exact_mod_cast representable_dyadic (k := 487) (j := 9) (by decide) (by decide)
  have hfriction : Within (487 / 512) friction :=
    within_literal hrepresentable (by norm_num [abs_of_pos])
  exact hvel.mul hfriction (representable_ofNat 6000 (by decide)) (by norm_num)

/-- The clamp only makes the velocity less. -/
theorem within_scale {speed : UInt32} (h : lt maxSpeed speed = true) :
    Within 1 (div maxSpeed speed) := by
  obtain ⟨-, hnumber, hlt⟩ := lt_eq_true_iff.mp h
  rw [value_maxSpeed] at hlt
  rcases isFinite_or_isInfinite hnumber with hfinite | hinfinite
  · have hpos : 0 < value speed := by linarith
    rw [div_of_isFinite isFinite_maxSpeed hfinite hpos.ne', value_maxSpeed]
    refine within_encode representable_one ?_
    rw [abs_of_pos (div_pos (by norm_num) hpos)]
    exact (div_le_one hpos).mpr hlt.le
  · rw [div_of_isInfinite isFinite_maxSpeed hinfinite]
    exact within_pack_zero zero_le_one

theorem Moving.applyInput (hf : BoundedFunctions f) (h : Moving 6000 player) (hdt : Brief dt)
    (input : Keyboard) : ∃ newState, PhysicsSimulation.applyInput f limit player input dt =
      some newState ∧ Moving 6300 newState ∧ newState.playerID = player.playerID := by
  have hturn := within_turn h.rotation hdt input
  obtain ⟨r, hr, hheading⟩ := exists_normalizeRotation (isNumber_of_isFinite hturn.finite)
    (hturn.bound.trans (by norm_num))
  obtain ⟨hx, hy⟩ := within_accelerate hf input hheading hdt h.velX h.velY
  have hinput : PhysicsSimulation.applyInput f limit player input dt = some
      { player with rotation := ⟨r⟩, vel := accelerate f input dt r player.vel } := by
    rw [PhysicsSimulation.applyInput, hr, Option.map_some]
  exact ⟨_, hinput, ⟨h.x, h.y, hx, hy, hheading⟩, rfl⟩

theorem Moving.applyPhysics (h : Moving 6300 player) (hdt : Brief dt) (f : Functions) :
    Moving 6000 (PhysicsSimulation.applyPhysics f player dt) where
  x := inside_move (within_ofNat 1920 (by decide) (by norm_num))
    (by rw [value_worldWidth]; norm_num) h.x h.velX hdt
  y := inside_move ((within_ofNat 1080 (by decide) (by norm_num)).mono (by norm_num))
    (by rw [value_worldHeight]; norm_num) h.y h.velY hdt
  velX := within_friction h.velX
  velY := within_friction h.velY
  rotation := h.rotation

theorem Moving.clampValues (h : Moving 6000 player) :
    InWorld (PhysicsSimulation.clampValues player) := by
  unfold PhysicsSimulation.clampValues
  dsimp only
  split
  · next hfast =>
    have hscaled : ∀ {v}, Within 6000 v →
        Within 6000 (mul v (div maxSpeed player.speed.intValue)) :=
      fun hv => hv.mul (within_scale hfast) (representable_ofNat 6000 (by decide)) (by norm_num)
    exact ⟨⟨h.x, h.y, hscaled h.velX, hscaled h.velY, h.rotation⟩, not_maxSpeed_lt⟩
  · next hslow => exact ⟨h, Bool.eq_false_iff.mpr hslow⟩

theorem playerID_clampValues (player : PlayerState) :
    (clampValues player).playerID = player.playerID := by
  unfold clampValues
  dsimp only
  split <;> rfl

theorem inWorld_simulatePlayer (hf : BoundedFunctions f) (h : InWorld player) (hdt : Brief dt)
    (input : Keyboard) : ∃ newState, simulatePlayer f limit player input dt = some newState ∧
      InWorld newState ∧ newState.playerID = player.playerID := by
  obtain ⟨newState, hinput, hmoving, hid⟩ := h.toMoving.applyInput hf hdt input
  have hclamped := (hmoving.applyPhysics hdt f).clampValues
  refine ⟨_, by rw [simulatePlayer, hinput, Option.map_some], ?_, ?_⟩
  · exact ⟨⟨hclamped.x, hclamped.y, hclamped.velX, hclamped.velY, hclamped.rotation⟩,
      hclamped.speed⟩
  · exact (playerID_clampValues _).trans hid

end Player

section World

variable {f : Functions} {players : List PlayerState}

theorem inWorld_simulateFrame (hf : BoundedFunctions f) (h : ∀ player ∈ players, InWorld player)
    {dt : UInt32} (hdt : Brief dt) : ∃ newState, simulateFrame f limit players dt = some newState ∧
      (∀ player ∈ newState, InWorld player) ∧
        newState.map PlayerState.playerID = players.map PlayerState.playerID := by
  induction players with
  | nil => exact ⟨[], rfl, fun _ hmem => absurd hmem List.not_mem_nil, rfl⟩
  | cons player players ih =>
    obtain ⟨hplayer, hplayers⟩ := List.forall_mem_cons.mp h
    obtain ⟨first, hfirst, hin, hid⟩ := inWorld_simulatePlayer hf hplayer hdt player.keyboard
    obtain ⟨rest, hrest, hins, hids⟩ := ih hplayers
    refine ⟨first :: rest, ?_, List.forall_mem_cons.mpr ⟨hin, hins⟩, ?_⟩
    · rw [simulateFrame_cons, hfirst, Option.bind_some, hrest, Option.map_some]
    · rw [List.map_cons, List.map_cons, hid, hids]

theorem inWorld_step (hf : BoundedFunctions f) (h : ∀ player ∈ players, InWorld player)
    {e : Event} (he : Short e) : ∃ players', step f players e = some players' ∧
      (∀ player ∈ players', InWorld player) ∧
        players'.map PlayerState.playerID = players.map PlayerState.playerID := by
  cases e with
  | frame deltaTime => exact inWorld_simulateFrame hf h he
  | input playerID keyboard =>
    refine ⟨_, rfl, fun player hplayer => ?_, ?_⟩
    · obtain ⟨old, hold, rfl⟩ := List.mem_map.mp hplayer
      have hin := h old hold
      split
      · exact ⟨⟨hin.x, hin.y, hin.velX, hin.velY, hin.rotation⟩, hin.speed⟩
      · exact hin
    · rw [List.map_map]
      refine List.map_congr_left fun player _ => ?_
      dsimp only [Function.comp]
      split <;> rfl

/-- In every run of frames of at most two seconds and of new keys every frame returns, and
the players stay who they are and where the world is. -/
theorem exists_world {events : List Event} (hf : BoundedFunctions f)
    (h : ∀ player ∈ players, InWorld player) (hshort : ∀ e ∈ events, Short e) :
    ∃ players', run (step f) players events = some players' ∧
      (∀ player ∈ players', InWorld player) ∧
        players'.map PlayerState.playerID = players.map PlayerState.playerID := by
  refine exists_run (I := fun s => (∀ player ∈ s, InWorld player) ∧
    s.map PlayerState.playerID = players.map PlayerState.playerID) ⟨h, rfl⟩ ?_ hshort
  rintro s e ⟨hin, hids⟩ he
  obtain ⟨s', hs', hin', hids'⟩ := inWorld_step hf hin he
  exact ⟨s', hs', hin', hids'.trans hids⟩

def functionsAtZero : Functions where
  cos r := if value r = 0 then literal 1 else literal 0
  sin _ := literal 0
  sqrt x := literal
    (Nat.sqrt ((value x).num.toNat * (value x).den * 4 ^ 60) / ((value x).den * 2 ^ 60))

def centre : PlayerState where
  playerID := 7
  pos := ⟨⟨literal 960⟩, ⟨literal 540⟩⟩

theorem inWorld_centre : InWorld centre := by
  have hx := representable_ofNat 960 (by decide)
  have hy := representable_ofNat 540 (by decide)
  have hzero : value (pack false 0) = 0 := (value_pack (Nat.zero_le _)).trans magnitude_zero
  have hrest : Within 6000 (pack false 0) := within_pack_zero (by norm_num)
  refine ⟨⟨⟨isFinite_literal hx, ?_, ?_⟩, ⟨isFinite_literal hy, ?_, ?_⟩, hrest, hrest,
    ⟨isNumber_of_isFinite hrest.finite, hzero.ge, hzero.trans_lt value_fullTurn_pos⟩⟩, ?_⟩
  · exact (by norm_num : (0 : ℚ) ≤ 960).trans (value_literal hx).ge
  · exact (value_literal hx).trans_le ((by norm_num : (960 : ℚ) ≤ 1920).trans value_worldWidth.ge)
  · exact (by norm_num : (0 : ℚ) ≤ 540).trans (value_literal hy).ge
  · exact (value_literal hy).trans_le ((by norm_num : (540 : ℚ) ≤ 1080).trans value_worldHeight.ge)
  · rw [← Bool.not_eq_true, lt_eq_true_iff, value_maxSpeed]
    rintro ⟨-, -, hfast⟩
    exact absurd (hfast.trans_le hzero.le) (by norm_num)

/-- A player in the middle of the world who thrusts for a sixtieth of a second. -/
theorem exists_world_thrust :
    let events : List Event := [.input 7 { up := 1 }, .frame (literal (1 / 60))]
    ∃ players', run (step functionsAtZero) [centre] events = some players' ∧
      (∀ player ∈ players', InWorld player) ∧
        players'.map PlayerState.playerID = [centre].map PlayerState.playerID := by
  intro events
  have htwo := representable_ofNat 2 (by decide)
  have hf : BoundedFunctions functionsAtZero := by
    have hzero : Within 1 (literal 0) := within_literal representable_one (by norm_num)
    refine ⟨fun r _ => ?_, fun r _ => hzero⟩
    unfold functionsAtZero
    dsimp only
    split
    · exact within_literal representable_one (by norm_num)
    · exact hzero
  have hbrief : Brief (literal (1 / 60)) := by
    have hbetween := between_literal (q := 1 / 60) representable_zero htwo (by norm_num)
      (by norm_num)
    exact ⟨hbetween.isFinite isFinite_zero (isFinite_literal htwo),
      value_zero.symm.trans_le hbetween.low, hbetween.high.trans (value_literal htwo).le⟩
  refine exists_world hf (List.forall_mem_singleton.mpr inWorld_centre) ?_
  simp only [events, List.forall_mem_cons, Short, true_and]
  exact ⟨hbrief, fun _ hmem => absurd hmem List.not_mem_nil⟩

end World

end RocketGame.WorldBounds
