import RocketGame.Countdown
import RocketGame.RocketMotion
import RocketGame.RunningMaxima

/-!
OtherRocket.Update as a whole, over any number of frames. What it accepts does not depend
on how the packets fall into frames: it is the running maxima of their stamps. The
rocket is drawn as long as its countdown runs, that is for 49 frames after a frame that
brought something newer.
-/
namespace RocketGame.OtherRocketUpdate

open Countdown RocketMotion RocketShared RunningMaxima ShotReceiving

structure Other (F : Type) extends OtherRocket F where
  shots : List (Shot F) := []
  shotCooldown : Int32 := 0

/-- What a frame brings: the time since the last one, what TryDequeue hands out, and the
clock reading for each of these packets. -/
structure Frame (F : Type) where
  deltaTime : F
  incoming : List NetworkPacket
  utcNow : ℕ → Int64

variable {F : Type}

section Update

variable (a : Arithmetic F) (content : Content) (settings : GameSettings)

def Other.approach (o : Other F) : Other F :=
  let half := a.literal 0.5
  let position : Vector2 F :=
    ⟨a.lerp o.positionPrevious.x (a.ofThousandths o.next.positionX) half,
      a.lerp o.positionPrevious.y (a.ofThousandths o.next.positionY) half⟩
  let velocity : Vector2 F :=
    ⟨a.lerp o.velocityPrevious.x (a.ofThousandths o.next.velocityX) half,
      a.lerp o.velocityPrevious.y (a.ofThousandths o.next.velocityY) half⟩
  let rotation := a.lerp o.rotationPrevious (a.ofThousandths o.next.rotation) half
  { o with
    position
    velocity
    rotation
    speed := a.lerp o.speedPrevious (a.ofThousandths o.next.speed) half
    shots := if o.isFiring then
        o.shots ++ [Shot.new a (shotPosition a content position rotation) rotation]
      else o.shots }

def Other.play (deltaTime : F) (o : Other F) : Other F :=
  let rotation := if o.isLeft then turnLeft a deltaTime o.rotation else o.rotation
  let rotation := if o.isRight then turnRight a deltaTime rotation else rotation
  let velocity := if o.isUp then thrust a deltaTime o.velocity rotation o.speed else o.velocity
  let shotCooldown := if o.shotCooldown > 0 then o.shotCooldown - 1 else o.shotCooldown
  let fires := o.isFiring && shotCooldown == 0
  let (newPosition, newVelocity) := move a content settings deltaTime o.position velocity
  { o with
    position := newPosition
    velocity := newVelocity
    rotation
    shots := if fires then
        o.shots ++ [Shot.new a (shotPosition a content o.position rotation) rotation]
      else o.shots
    shotCooldown := if fires then 10 else shotCooldown }

def Other.update (f : Frame F) (o : Other F) : Other F :=
  let received := receiveIncoming a.toFloats f.deltaTime f.utcNow f.incoming o.toOtherRocket
  let o := { o with toOtherRocket := received }
  let o := if o.mustLerp then o.approach a content else o.play a content settings f.deltaTime
  let isActive := o.isActive - 1
  { o with
    shots := updateShots a content f.deltaTime o.shots
    isActive := if isActive < 0 then 0 else isActive
    nextLerp := a.add o.nextLerp f.deltaTime }

def Other.updates (frames : List (Frame F)) (o : Other F) : Other F :=
  frames.foldl (fun o f => o.update a content settings f) o

def initializeOther (negPiOver2 : F) : Other F where
  position := ⟨a.ofInt (settings.screenWidth / 2), a.ofInt (settings.screenHeight / 2)⟩
  rotation := negPiOver2
  velocity := ⟨a.literal 0, a.literal 0⟩
  speed := a.literal 400
  positionPrevious := ⟨a.literal 0, a.literal 0⟩
  rotationPrevious := a.literal 0
  velocityPrevious := ⟨a.literal 0, a.literal 0⟩
  speedPrevious := a.literal 400
  nextLerp := a.literal 0.5

def Other.drawn (o : Other F) : Prop := o.isActive ≠ 0

end Update

def stamp (packet : NetworkPacket) : ℤ := packet.ticks.toInt

theorem accepted_eq_maxima (ticks : Int64) (incoming : List NetworkPacket) :
    accepted ticks incoming = maxima stamp ticks.toInt incoming := by
  induction incoming generalizing ticks with
  | nil => rfl
  | cons packet incoming ih =>
    rw [accepted, maxima, ih, ih]
    exact if_congr Int64.le_iff_toInt_le rfl rfl

section Receiving

variable (floats : Floats F) (deltaTime : F) (utcNow : ℕ → Int64) (incoming : List NetworkPacket)

/-- The loop leaves the newest stamp, and starts the countdown if it accepted anything. -/
theorem receiveLoop_rocket (turn : ℕ) (l : Loop F) :
    let rocket := (receiveLoop floats deltaTime utcNow turn incoming l).rocket
    stamp rocket.next = top stamp (stamp l.rocket.next) incoming ∧
      rocket.isActive =
        if (maxima stamp (stamp l.rocket.next) incoming).isEmpty then l.rocket.isActive
        else 50 := by
  induction incoming generalizing turn l with
  | nil => exact ⟨rfl, rfl⟩
  | cons packet incoming ih =>
    obtain ⟨hnext, hactive⟩ := ih (turn + 1) (l.receive floats deltaTime (utcNow turn) packet)
    rw [receiveLoop]
    dsimp only at hnext hactive ⊢
    rw [hnext, hactive, top_cons, maxima, Loop.receive]
    by_cases hstale : packet.ticks ≤ l.rocket.next.ticks
    · have hle : stamp packet ≤ stamp l.rocket.next := Int64.le_iff_toInt_le.mp hstale
      rw [if_pos hstale, if_pos hle, max_eq_left hle]
      exact ⟨rfl, rfl⟩
    · have hlt : ¬ stamp packet ≤ stamp l.rocket.next := mt Int64.le_iff_toInt_le.mpr hstale
      rw [if_neg hstale, if_neg hlt, max_eq_right (not_le.mp hlt).le]
      refine ⟨rfl, ?_⟩
      rw [List.isEmpty_cons, if_neg Bool.false_ne_true]
      exact ite_self 50

theorem receiveIncoming_rocket (rocket : OtherRocket F) :
    let rocket' := receiveIncoming floats deltaTime utcNow incoming rocket
    stamp rocket'.next = top stamp (stamp rocket.next) incoming ∧
      rocket'.isActive =
        if (maxima stamp (stamp rocket.next) incoming).isEmpty then rocket.isActive else 50 :=
  receiveLoop_rocket floats deltaTime utcNow incoming 0 { rocket := rocket }

end Receiving

section Frames

variable {a : Arithmetic F} {content : Content} {settings : GameSettings}

/-- Neither branch touches the last packet or the countdown. -/
theorem update_next (f : Frame F) (o : Other F) : (o.update a content settings f).next =
    (receiveIncoming a.toFloats f.deltaTime f.utcNow f.incoming o.toOtherRocket).next := by
  unfold Other.update
  dsimp only
  split <;> rfl

theorem update_isActive (f : Frame F) (o : Other F) : (o.update a content settings f).isActive =
    let isActive := (receiveIncoming a.toFloats f.deltaTime f.utcNow f.incoming
      o.toOtherRocket).isActive - 1
    if isActive < 0 then 0 else isActive := by
  unfold Other.update
  dsimp only
  split <;> rfl

theorem stamp_update (f : Frame F) (o : Other F) :
    stamp (o.update a content settings f).next = top stamp (stamp o.next) f.incoming := by
  rw [update_next]
  exact (receiveIncoming_rocket a.toFloats f.deltaTime f.utcNow f.incoming o.toOtherRocket).1

/-- One frame is one tick of the countdown. -/
theorem isActive_update {n : ℕ} (hn : n ≤ 50) (f : Frame F) {o : Other F}
    (h : o.isActive = Int32.ofNat n) : (o.update a content settings f).isActive =
      Int32.ofNat (tick 50 n (!(maxima stamp (stamp o.next) f.incoming).isEmpty)) := by
  have hcount : ∀ m ≤ 50, (if Int32.ofNat m - 1 < 0 then 0 else Int32.ofNat m - 1) =
      Int32.ofNat (m - 1) := by decide
  have hreceived :=
    (receiveIncoming_rocket a.toFloats f.deltaTime f.utcNow f.incoming o.toOtherRocket).2
  rw [update_isActive, hreceived, h, tick]
  cases (maxima stamp (stamp o.next) f.incoming).isEmpty with
  | true => exact hcount n hn
  | false => exact hcount 50 le_rfl

theorem isActive_updates {n : ℕ} (hn : n ≤ 50) (frames : List (Frame F)) {o : Other F}
    (h : o.isActive = Int32.ofNat n) : (o.updates a content settings frames).isActive =
      Int32.ofNat ((fresh stamp (stamp o.next) (frames.map Frame.incoming)).foldl (tick 50) n) := by
  induction frames generalizing n o with
  | nil => exact h
  | cons f frames ih =>
    have hcons : o.updates a content settings (f :: frames) =
      (o.update a content settings f).updates a content settings frames := rfl
    have hnext : (o.update a content settings f).isActive = _ := isActive_update hn f h
    rw [hcons, ih (tick_le hn) hnext, stamp_update, List.map_cons, fresh, List.foldl_cons]

end Frames

/-- Among the last 49 frames there was one with a packet newer than all of the frames before
them, and than the packet the rocket had at first. -/
def RecentlyRenewed (o : Other F) (frames : List (Frame F)) : Prop :=
  ∃ packet ∈ (latest 49 frames).flatMap Frame.incoming, o.next.ticks < packet.ticks ∧
    ∀ p ∈ (frames.take (frames.length - 49)).flatMap Frame.incoming, p.ticks < packet.ticks

/-- After any frames, the other rocket is drawn exactly when one of the last 49 has brought
something newer than all before. -/
theorem drawn_iff (a : Arithmetic F) (content : Content) (settings : GameSettings) (o : Other F)
    (h : ¬ o.drawn) (frames : List (Frame F)) :
    (o.updates a content settings frames).drawn ↔ RecentlyRenewed o frames := by
  have hzero : o.isActive = Int32.ofNat 0 := not_not.mp h
  let batches := frames.map Frame.incoming
  let count := ticks 50 (fresh stamp (stamp o.next) batches)
  have hcount : (o.updates a content settings frames).isActive = Int32.ofNat count :=
    isActive_updates (Nat.zero_le 50) frames hzero
  have hdrawn : (o.updates a content settings frames).drawn ↔ count ≠ 0 := by
    have hsmall : ∀ m ≤ 50, Int32.ofNat m ≠ 0 ↔ m ≠ 0 := by decide
    rw [Other.drawn, hcount]
    exact hsmall count ticks_le
  have hlatest : latest 49 (fresh stamp (stamp o.next) batches) =
      fresh stamp (top stamp (stamp o.next) (batches.take (frames.length - 49)).flatten)
        (batches.drop (frames.length - 49)) := by
    rw [latest, length_fresh, List.length_map, drop_fresh]
  rw [hdrawn, ticks_ne_zero_iff, hlatest, true_mem_fresh_iff]
  simp only [top_lt_iff, RecentlyRenewed, List.flatMap, latest, batches, List.map_drop,
    List.map_take, stamp, Int64.lt_iff_toInt_lt]

def arrival : Frame ℚ := ⟨1 / 60, [{ ticks := 1 }], fun _ => 2⟩

def silence : Frame ℚ := ⟨1 / 60, [], fun _ => 2⟩

theorem drawn_iff_silence : ((initializeOther headingUp {} (-157 / 100)).updates headingUp
    content {} (arrival :: List.replicate 48 silence)).drawn :=
  (drawn_iff headingUp content {} (initializeOther headingUp {} (-157 / 100)) (fun h => h rfl)
    (arrival :: List.replicate 48 silence)).mpr ⟨{ ticks := 1 }, by decide, by decide, by decide⟩

end RocketGame.OtherRocketUpdate
