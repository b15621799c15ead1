import Mathlib.Data.Rat.Defs
import RocketGame.PacketRoundTrip
import RocketGame.RocketUpdate
import RocketGame.ShotReceiving

/-!
What Rocket.Update computes before it hands its packet to the network thread: the
turn and the thrust, the shots, the fall and the edges of the screen. The floats and
their operations are a parameter; the comparisons are the ones of the source, false
where a float is not a number.
-/
namespace RocketGame.RocketMotion

open PacketRoundTrip RocketShared ShotReceiving

structure Arithmetic (F : Type) extends Floats F where
  /-- A literal, or an integer converted to a float. -/
  literal : ℚ → F
  toThousandths : F → Thousandths
  add : F → F → F
  sub : F → F → F
  mul : F → F → F
  div : F → F → F
  lt : F → F → Bool
  le : F → F → Bool
  cos : F → F
  sin : F → F
  lerp : F → F → F → F

structure Texture2D where
  width : ℤ
  height : ℤ
  deriving DecidableEq, Repr

structure Content where
  rocketTexture : Texture2D
  shotTexture : Texture2D

structure GameSettings where
  screenWidth : ℤ := 1024
  screenHeight : ℤ := 768

inductive Keys
  | a | left | d | right | w | up | s | down | space
  deriving DecidableEq, Repr

abbrev KeyboardState := Keys → Bool

structure Shot (F : Type) where
  position : Vector2 F
  rotation : F
  speed : F
  isActive : Bool := true

/-- The fields of Rocket that Update reads or writes, but for _isFiringNotSent. -/
structure Rocket (F : Type) where
  position : Vector2 F
  rotation : F
  velocity : Vector2 F
  speed : F
  shots : List (Shot F) := []
  shotCooldown : F
  networkUpdateTime : F

variable {F : Type}

namespace Arithmetic

variable (a : Arithmetic F)

def ofInt (n : ℤ) : F := a.literal n

def plus (u v : Vector2 F) : Vector2 F := ⟨a.add u.x v.x, a.add u.y v.y⟩

def times (v : Vector2 F) (f : F) : Vector2 F := ⟨a.mul v.x f, a.mul v.y f⟩

def dividedBy (v : Vector2 F) (f : F) : Vector2 F := a.times v (a.div (a.literal 1) f)

def heading (rotation : F) : Vector2 F := ⟨a.cos rotation, a.sin rotation⟩

end Arithmetic

section Update

variable (a : Arithmetic F) (content : Content) (settings : GameSettings) (deltaTime : F)

def initializeRocket (negPiOver2 : F) : Rocket F where
  position := ⟨a.ofInt (settings.screenWidth / 2), a.ofInt (settings.screenHeight / 2)⟩
  rotation := negPiOver2
  velocity := ⟨a.literal 0, a.literal 0⟩
  speed := a.literal 400
  shotCooldown := a.literal 0
  networkUpdateTime := a.literal 0

def Shot.new (position : Vector2 F) (rotation : F) : Shot F :=
  { position, rotation, speed := a.literal 1200 }

def Shot.update (shot : Shot F) : Shot F :=
  let position := a.plus shot.position
    (a.times (a.times (a.heading shot.rotation) shot.speed) deltaTime)
  { shot with
    position
    isActive := shot.isActive &&
      !(a.lt position.x (a.ofInt (0 - content.shotTexture.width)) ||
        a.lt (a.ofInt (1024 + content.shotTexture.width)) position.x ||
        a.lt position.y (a.ofInt (0 - content.shotTexture.height)) ||
        a.lt (a.ofInt (768 + content.shotTexture.height)) position.y) }

/-- The two loops over the shots. The shots are objects: Remove takes the very one. -/
def updateShots (shots : List (Shot F)) : List (Shot F) :=
  (shots.map (Shot.update a content deltaTime)).filter (·.isActive)

def shotPosition (position : Vector2 F) (rotation : F) : Vector2 F :=
  a.plus position (a.dividedBy (a.times (a.heading rotation)
    (a.ofInt content.rocketTexture.width)) (a.literal 2))

def keepBetween (low high : F) (p : F × F) : F × F :=
  let p := if a.lt p.1 low then (low, a.literal 0) else p
  if a.lt high p.1 then (high, a.literal 0) else p

def lowX : F := a.ofInt (content.rocketTexture.width.tdiv 2)
def highX : F := a.ofInt (settings.screenWidth - content.rocketTexture.width.tdiv 2)
def lowY : F := a.ofInt (content.rocketTexture.height.tdiv 2)
def highY : F := a.ofInt (settings.screenHeight - content.rocketTexture.height.tdiv 2)

/-- Air resistance, gravity, the move and the edges of the screen; both clients end in it. -/
def move (position velocity : Vector2 F) : Vector2 F × Vector2 F :=
  let velocity := a.times velocity (a.sub (a.literal 1) (a.mul (a.literal 0.5) deltaTime))
  let velocity := { velocity with y := a.add velocity.y (a.mul (a.literal 50) deltaTime) }
  let position := a.plus position (a.times velocity deltaTime)
  let (x, vx) := keepBetween a (lowX a content) (highX a content settings)
    (position.x, velocity.x)
  let (y, vy) := keepBetween a (lowY a content) (highY a content settings)
    (position.y, velocity.y)
  (⟨x, y⟩, ⟨vx, vy⟩)

def turnLeft (rotation : F) : F := a.sub rotation (a.mul (a.literal 2) deltaTime)

def turnRight (rotation : F) : F := a.add rotation (a.mul (a.literal 2) deltaTime)

def thrust (velocity : Vector2 F) (rotation speed : F) : Vector2 F :=
  a.plus velocity (a.times (a.times (a.heading rotation) speed) deltaTime)

def flag (b : Bool) : UInt8 := if b then 1 else 0

structure HandOver where
  isFiring : Bool
  timerDue : Bool
  packet : NetworkPacket

/-- Rocket.Update; the fire flag of the packet is set with _isFiringNotSent. -/
def Rocket.update (keyboardState : KeyboardState) (rocket : Rocket F) : Rocket F × HandOver :=
  let isLeft := keyboardState .a || keyboardState .left
  let rotation := if isLeft then turnLeft a deltaTime rocket.rotation else rocket.rotation
  let isRight := keyboardState .d || keyboardState .right
  let rotation := if isRight then turnRight a deltaTime rotation else rotation
  let isUp := keyboardState .w || keyboardState .up
  let velocity := if isUp then thrust a deltaTime rocket.velocity rotation rocket.speed
    else rocket.velocity
  let isDown := keyboardState .s || keyboardState .down
  let shotCooldown := if a.lt (a.literal 0) rocket.shotCooldown then
      a.sub rocket.shotCooldown (a.mul (a.literal 50) deltaTime) else rocket.shotCooldown
  let isFiring := keyboardState .space && a.le shotCooldown (a.literal 0)
  let shots := if isFiring then
      rocket.shots ++ [Shot.new a (shotPosition a content rocket.position rotation) rotation]
    else rocket.shots
  let shotCooldown := if isFiring then a.add shotCooldown (a.literal 10) else shotCooldown
  let (position, velocity) := move a content settings deltaTime rocket.position velocity
  let networkUpdateTime := a.div (a.literal 1) (a.literal 60)
  let timerDue := a.le networkUpdateTime rocket.networkUpdateTime
  ({ position
     rotation
     velocity
     speed := rocket.speed
     shots := updateShots a content deltaTime shots
     shotCooldown
     networkUpdateTime := a.add (if timerDue then
         a.sub rocket.networkUpdateTime networkUpdateTime
       else rocket.networkUpdateTime) deltaTime },
   { isFiring
     timerDue
     packet :=
       { positionX := a.toThousandths position.x
         positionY := a.toThousandths position.y
         velocityX := a.toThousandths velocity.x
         velocityY := a.toThousandths velocity.y
         rotation := a.toThousandths rotation
         speed := a.toThousandths rocket.speed
         delta := a.toThousandths deltaTime
         isUp := flag isUp
         isDown := flag isDown
         isLeft := flag isLeft
         isRight := flag isRight } })

/-- No edge of the screen is passed, by the comparisons of the source: what is not a number
passes none. -/
structure OnScreen (position : Vector2 F) : Prop where
  left : a.lt position.x (lowX a content) = false
  right : a.lt (highX a content settings) position.x = false
  top : a.lt position.y (lowY a content) = false
  bottom : a.lt (highY a content settings) position.y = false

/-- The comparisons that the edges need: a float is not less than itself, and the
texture fits on the screen, with its centre in the centre. -/
structure Fits : Prop where
  irrefl : ∀ x, a.lt x x = false
  fitsX : a.lt (highX a content settings) (lowX a content) = false
  fitsY : a.lt (highY a content settings) (lowY a content) = false
  centre : OnScreen a content settings
    ⟨a.ofInt (settings.screenWidth / 2), a.ofInt (settings.screenHeight / 2)⟩

structure TellsOfScreen (packet : NetworkPacket) : Prop where
  place : ∃ position, OnScreen a content settings position ∧
    packet.positionX = a.toThousandths position.x ∧ packet.positionY = a.toThousandths position.y
  flags : FlagsAreBits packet

variable {a content settings deltaTime}

theorem keepBetween_fst {low high : F} (p : F × F) (hirrefl : ∀ x, a.lt x x = false)
    (hfits : a.lt high low = false) :
    a.lt (keepBetween a low high p).1 low = false ∧
      a.lt high (keepBetween a low high p).1 = false := by
  unfold keepBetween
  dsimp only
  cases hlow : a.lt p.1 low with
  | true =>
    rw [if_pos rfl, if_neg (by rw [hfits]; exact Bool.false_ne_true)]
    exact ⟨hirrefl low, hfits⟩
  | false =>
    rw [if_neg Bool.false_ne_true]
    cases hhigh : a.lt high p.1 with
    | true =>
      rw [if_pos rfl]
      exact ⟨hfits, hirrefl high⟩
    | false =>
      rw [if_neg Bool.false_ne_true]
      exact ⟨hlow, hhigh⟩

theorem Fits.onScreen_move (h : Fits a content settings) (position velocity : Vector2 F) :
    OnScreen a content settings (move a content settings deltaTime position velocity).1 := by
  have hx := fun p => keepBetween_fst p h.irrefl h.fitsX
  have hy := fun p => keepBetween_fst p h.irrefl h.fitsY
  exact ⟨(hx _).1, (hx _).2, (hy _).1, (hy _).2⟩

theorem isActive_of_mem_updateShots {shots : List (Shot F)} {shot : Shot F}
    (h : shot ∈ updateShots a content deltaTime shots) : shot.isActive = true :=
  (List.mem_filter.mp h).2

variable {rocket : Rocket F} {keyboardState : KeyboardState}

theorem Fits.onScreen_update (h : Fits a content settings) : OnScreen a content settings
    (rocket.update a content settings deltaTime keyboardState).1.position :=
  h.onScreen_move _ _

theorem flag_eq (b : Bool) : flag b = 0 ∨ flag b = 1 := by
  cases b
  · exact Or.inl rfl
  · exact Or.inr rfl

/-- The keys in the packet of an update are bits, whatever its fire flag becomes. -/
theorem flagsAreBits_update (b : Bool) : FlagsAreBits
    { (rocket.update a content settings deltaTime keyboardState).2.packet with
      isFiring := if b then 1 else 0 } := by
  intro f hf
  simp only [List.mem_cons, List.not_mem_nil, or_false] at hf
  rcases hf with rfl | rfl | rfl | rfl | rfl <;> exact flag_eq _

/-- The packet of an update tells of the place the rocket has moved to. -/
theorem Fits.tellsOfScreen_update (h : Fits a content settings) (b : Bool) :
    TellsOfScreen a content settings
      { (rocket.update a content settings deltaTime keyboardState).2.packet with
        isFiring := if b then 1 else 0 } where
  place := ⟨_, h.onScreen_update, rfl, rfl⟩
  flags := flagsAreBits_update b

end Update

structure GameThread (F : Type) where
  rocket : Rocket F
  handOver : RocketUpdate.State := {}

inductive Event (F : Type)
  /-- Rocket.Update up to the hand-over of its packet. -/
  | update (keyboardState : KeyboardState) (deltaTime : F)
  | game
  | network

section Thread

variable (a : Arithmetic F) (content : Content) (settings : GameSettings)

def step (s : GameThread F) : Event F → Option (GameThread F)
  | .update keyboardState deltaTime =>
    let (rocket, h) := s.rocket.update a content settings deltaTime keyboardState
    (RocketUpdate.step s.handOver (.update h.isFiring h.timerDue h.packet)).map
      fun handOver => { rocket, handOver }
  | .game => (RocketUpdate.step s.handOver .game).map fun handOver => { s with handOver }
  | .network => (RocketUpdate.step s.handOver .network).map fun handOver => { s with handOver }

def held : RocketUpdate.Control → List NetworkPacket
  | .enqueue packet => [packet]
  | .readPrevious (some previous) => [previous.packet]
  | _ => []

/-- The packets that can still be or have been sent. -/
def packets (h : RocketUpdate.State) : List NetworkPacket :=
  held h.control ++ (h.outgoing ++ h.dequeued).map RocketUpdate.Queued.packet

structure InSight (s : GameThread F) : Prop where
  position : OnScreen a content settings s.rocket.position
  shots : ∀ shot ∈ s.rocket.shots, shot.isActive = true
  packets : ∀ packet ∈ packets s.handOver, TellsOfScreen a content settings packet

variable {a content settings} {s s' : GameThread F}

/-- Between two updates an update adds at most its own packet. -/
theorem packets_beginUpdate {h : RocketUpdate.State} (hbetween : h.control = .between)
    (isFiring timerDue : Bool) (packet : NetworkPacket) :
    ∀ p ∈ packets (RocketUpdate.beginUpdate h isFiring timerDue packet),
      p ∈ packets h ∨ ∃ b : Bool, p = { packet with isFiring := if b then 1 else 0 } := by
  have hnone : packets h = (h.outgoing ++ h.dequeued).map RocketUpdate.Queued.packet := by
    rw [packets, hbetween]
    rfl
  intro p hp
  rw [packets, List.mem_append] at hp
  rcases hp with hp | hp
  · cases timerDue with
    | false => exact absurd hp List.not_mem_nil
    | true =>
      simp only [RocketUpdate.beginUpdate, if_true, held, List.mem_singleton] at hp
      exact Or.inr ⟨_, hp⟩
  · rw [hnone]
    exact Or.inl hp

/-- The other steps of the game thread only move packets. -/
theorem packets_continueUpdate {h h' : RocketUpdate.State}
    (hs : RocketUpdate.continueUpdate h = some h') : ∀ p ∈ packets h', p ∈ packets h := by
  unfold RocketUpdate.continueUpdate at hs
  intro p hp
  cases hc : h.control with
  | between => simp only [hc, reduceCtorEq] at hs
  | nullReference => simp only [hc, reduceCtorEq] at hs
  | enqueue packet =>
    simp only [hc, Option.some.injEq] at hs
    subst hs
    simp only [packets, held, hc, List.map_append, List.map_cons, List.map_nil, List.nil_append,
      List.mem_append, List.mem_cons, List.not_mem_nil, or_false] at hp ⊢
    tauto
  | clearFlag =>
    simp only [hc, Option.some.injEq] at hs
    subst hs
    simpa only [packets, held, hc] using hp
  | readCount =>
    simp only [hc, Option.some.injEq] at hs
    subst hs
    have hnone : held (if h.outgoing.length > 1 then .tryDequeue else .between) = [] := by
      split <;> rfl
    rw [packets, hnone] at hp
    simpa only [packets, held, hc] using hp
  | tryDequeue =>
    simp only [hc, Option.some.injEq] at hs
    subst hs
    unfold RocketUpdate.takePrevious at hp
    cases hq : h.outgoing with
    | nil =>
      simp only [hq] at hp
      simpa only [packets, held, hc, hq] using hp
    | cons q rest =>
      simp only [hq] at hp
      simpa only [packets, held, hc, hq, List.cons_append, List.map_cons, List.nil_append] using hp
  | readPrevious previous =>
    cases previous with
    | none =>
      simp only [hc, Option.some.injEq] at hs
      subst hs
      simpa only [packets, held, hc] using hp
    | some previous =>
      simp only [hc, Option.some.injEq] at hs
      subst hs
      simp only [packets, held, hc] at hp ⊢
      exact List.mem_append_right _ hp

theorem packets_dequeueToSend {h : RocketUpdate.State} :
    ∀ p ∈ packets (RocketUpdate.dequeueToSend h), p ∈ packets h := by
  intro p hp
  unfold RocketUpdate.dequeueToSend at hp
  cases hq : h.outgoing with
  | nil => simpa only [hq] using hp
  | cons q rest =>
    simp only [hq, packets, List.map_append, List.map_cons, List.map_nil, List.mem_append,
      List.mem_cons, List.not_mem_nil, or_false] at hp ⊢
    tauto

/-- An update moves the rocket and makes at most its own packet; nothing else does either. -/
theorem step_cases {e : Event F} (hstep : step a content settings s e = some s') :
    (∃ keyboardState deltaTime, e = .update keyboardState deltaTime ∧
      s'.rocket = (s.rocket.update a content settings deltaTime keyboardState).1 ∧
      ∀ p ∈ packets s'.handOver, p ∈ packets s.handOver ∨ ∃ b : Bool,
        p = { (s.rocket.update a content settings deltaTime keyboardState).2.packet with
          isFiring := if b then 1 else 0 }) ∨
    (s'.rocket = s.rocket ∧ ∀ p ∈ packets s'.handOver, p ∈ packets s.handOver) := by
  cases e with
  | update keyboardState deltaTime =>
    obtain ⟨handOver, hhand, rfl⟩ := Option.map_eq_some_iff.mp hstep
    simp only [RocketUpdate.step, Option.ite_none_right_eq_some, Option.some.injEq] at hhand
    obtain ⟨hbetween, rfl⟩ := hhand
    exact Or.inl ⟨_, _, rfl, rfl, packets_beginUpdate hbetween _ _ _⟩
  | game =>
    obtain ⟨handOver, hhand, rfl⟩ := Option.map_eq_some_iff.mp hstep
    exact Or.inr ⟨rfl, packets_continueUpdate hhand⟩
  | network =>
    obtain rfl := Option.some.inj hstep
    exact Or.inr ⟨rfl, packets_dequeueToSend⟩

theorem Fits.inSight_step (h : Fits a content settings) {e : Event F}
    (hs : InSight a content settings s) (hstep : step a content settings s e = some s') :
    InSight a content settings s' := by
  obtain ⟨keyboardState, deltaTime, -, hrocket, hpackets⟩ | ⟨hrocket, hpackets⟩ :=
    step_cases hstep
  · refine ⟨?_, ?_, fun p hp => ?_⟩
    · rw [hrocket]
      exact h.onScreen_update
    · rw [hrocket]
      exact fun shot => isActive_of_mem_updateShots
    · rcases hpackets p hp with hp | ⟨b, rfl⟩
      · exact hs.packets p hp
      · exact h.tellsOfScreen_update b
  · exact ⟨hrocket ▸ hs.position, hrocket ▸ hs.shots, fun p hp => hs.packets p (hpackets p hp)⟩

theorem flagsAreBits_step {e : Event F} (h : ∀ p ∈ packets s.handOver, FlagsAreBits p)
    (hstep : step a content settings s e = some s') :
    ∀ p ∈ packets s'.handOver, FlagsAreBits p := by
  intro p hp
  obtain ⟨keyboardState, deltaTime, -, -, hpackets⟩ | ⟨-, hpackets⟩ := step_cases hstep
  · rcases hpackets p hp with hp | ⟨b, rfl⟩
    · exact h p hp
    · exact flagsAreBits_update b
  · exact h p (hpackets p hp)

end Thread

def headingUp : Arithmetic ℚ where
  ofThousandths t := t.toInt / 1000
  isFar u v := decide (2500 < (u.x - v.x) ^ 2 + (u.y - v.y) ^ 2)
  literal := id
  toThousandths x := Int32.ofInt ((x * 1000).num.tdiv (x * 1000).den)
  add := (· + ·)
  sub := (· - ·)
  mul := (· * ·)
  div := (· / ·)
  lt x y := decide (x < y)
  le x y := decide (x ≤ y)
  cos _ := 0
  sin _ := -1
  lerp x y t := x + (y - x) * t

def content : Content := ⟨⟨98, 75⟩, ⟨13, 37⟩⟩

theorem fits_headingUp : Fits headingUp content {} where
  irrefl x := decide_eq_false (lt_irrefl x)
  fitsX := by decide +kernel
  fitsY := by decide +kernel
  centre := ⟨by decide +kernel, by decide +kernel, by decide +kernel, by decide +kernel⟩

end RocketGame.RocketMotion
