import Mathlib.Data.List.DropRight
import RocketGame.RocketShared

/-!
How OtherRocket.Update takes its packets: the loop over GameNetwork.Incoming, with a
filter for stale packets in it, and the flags read off afterwards. The fire flag is
carried from packet to packet and toggles; it is set at the end exactly when the
accepted packets end in an odd number of firing ones. The arithmetic of floats is a
parameter.
-/
namespace RocketGame.ShotReceiving

open RocketShared

structure Vector2 (F : Type) where
  x : F
  y : F
  deriving DecidableEq, Repr

/-- The floats of the receiving side: what thousandths become when they are read, and
the test of Vector2.Distance against 50. -/
structure Floats (F : Type) where
  ofThousandths : Thousandths → F
  isFar : Vector2 F → Vector2 F → Bool

variable {F : Type}

structure OtherRocket (F : Type) where
  position : Vector2 F
  rotation : F
  velocity : Vector2 F
  speed : F
  positionPrevious : Vector2 F
  rotationPrevious : F
  velocityPrevious : Vector2 F
  speedPrevious : F
  isUp : Bool := false
  isDown : Bool := false
  isLeft : Bool := false
  isRight : Bool := false
  isFiring : Bool := false
  mustLerp : Bool := false
  isActive : Int32 := 0
  next : NetworkPacket := {}
  nextLerp : F
  networkUpdateDelay : Int64 := 0

structure Loop (F : Type) where
  rocket : OtherRocket F
  updateFromNetwork : Bool := false
  isFiring : Bool := false

def Loop.accept (floats : Floats F) (deltaTime : F) (utcNow : Int64) (packet : NetworkPacket)
    (l : Loop F) : Loop F :=
  let rocket := l.rocket
  let packetPosition : Vector2 F :=
    ⟨floats.ofThousandths packet.positionX, floats.ofThousandths packet.positionY⟩
  { isFiring := !l.isFiring && packet.isFiring == 1
    updateFromNetwork := true
    rocket := { rocket with
      next := packet
      mustLerp := floats.isFar rocket.position packetPosition
      isActive := 50
      positionPrevious := rocket.position
      velocityPrevious := rocket.velocity
      rotationPrevious := rocket.rotation
      speedPrevious := rocket.speed
      velocity := ⟨floats.ofThousandths packet.velocityX, floats.ofThousandths packet.velocityY⟩
      rotation := floats.ofThousandths packet.rotation
      speed := floats.ofThousandths packet.speed
      nextLerp := deltaTime
      networkUpdateDelay := utcNow - packet.ticks } }

def Loop.receive (floats : Floats F) (deltaTime : F) (utcNow : Int64) (packet : NetworkPacket)
    (l : Loop F) : Loop F :=
  if packet.ticks ≤ l.rocket.next.ticks then l else l.accept floats deltaTime utcNow packet

/-- The loop over the packets that TryDequeue hands out, with the clock reading of each
turn, from this turn on. -/
def receiveLoop (floats : Floats F) (deltaTime : F) (utcNow : ℕ → Int64) :
    ℕ → List NetworkPacket → Loop F → Loop F
  | _, [], l => l
  | turn, packet :: incoming, l =>
      receiveLoop floats deltaTime utcNow (turn + 1) incoming
        (l.receive floats deltaTime (utcNow turn) packet)

def receiveIncoming (floats : Floats F) (deltaTime : F) (utcNow : ℕ → Int64)
    (incoming : List NetworkPacket) (rocket : OtherRocket F) : OtherRocket F :=
  let l := receiveLoop floats deltaTime utcNow 0 incoming { rocket := rocket }
  { l.rocket with
    isUp := l.rocket.next.isUp == 1
    isDown := l.rocket.next.isDown == 1
    isLeft := l.rocket.next.isLeft == 1
    isRight := l.rocket.next.isRight == 1
    isFiring := l.isFiring }

/-- The packets whose Ticks are newer than those of every packet accepted before. -/
def accepted : Int64 → List NetworkPacket → List NetworkPacket
  | _, [] => []
  | ticks, packet :: incoming =>
      if packet.ticks ≤ ticks then accepted ticks incoming
      else packet :: accepted packet.ticks incoming

def fires (packet : NetworkPacket) : Bool := packet.isFiring == 1

/-- The rocket fires exactly when one of the accepted packets does. -/
def ShotsNoticed (floats : Floats F) (deltaTime : F) (utcNow : ℕ → Int64)
    (incoming : List NetworkPacket) (rocket : OtherRocket F) : Prop :=
  (receiveIncoming floats deltaTime utcNow incoming rocket).isFiring = true ↔
    ∃ packet ∈ accepted rocket.next.ticks incoming, fires packet = true

/-- How many packets at the end of the accepted ones fire in a row. -/
def lastShots (ticks : Int64) (incoming : List NetworkPacket) : ℕ :=
  ((accepted ticks incoming).rtakeWhile fires).length

/-- A flag that each firing packet toggles and every other one clears. -/
theorem foldl_toggle {α : Type*} (p : α → Bool) (l : List α) :
    l.foldl (fun flag x => !flag && p x) false = decide (Odd (l.rtakeWhile p).length) := by
  induction l using List.reverseRecOn with
  | nil => rfl
  | append_singleton l x ih =>
    rw [List.foldl_append, List.foldl_cons, List.foldl_nil, ih]
    by_cases hx : p x = true
    · rw [List.rtakeWhile_concat_pos p l x hx, List.length_append, List.length_singleton, hx,
        Bool.and_true, ← decide_not]
      exact decide_eq_decide.mpr (Nat.odd_add_one).symm
    · rw [List.rtakeWhile_concat_neg p l x hx, Bool.eq_false_of_not_eq_true hx, Bool.and_false]
      rfl

section Loop

variable (floats : Floats F) (deltaTime : F) (utcNow : ℕ → Int64)

/-- The loop passes over stale packets, and folds the flag over the others. -/
theorem isFiring_receiveLoop (incoming : List NetworkPacket) (turn : ℕ) (l : Loop F) :
    (receiveLoop floats deltaTime utcNow turn incoming l).isFiring =
      (accepted l.rocket.next.ticks incoming).foldl (fun flag packet => !flag && fires packet)
        l.isFiring := by
  induction incoming generalizing turn l with
  | nil => rfl
  | cons packet incoming ih =>
    rw [receiveLoop, ih, accepted, Loop.receive]
    by_cases hstale : packet.ticks ≤ l.rocket.next.ticks
    · rw [if_pos hstale, if_pos hstale]
    · rw [if_neg hstale, if_neg hstale]
      rfl

theorem isFiring_receiveIncoming (incoming : List NetworkPacket) (rocket : OtherRocket F) :
    (receiveIncoming floats deltaTime utcNow incoming rocket).isFiring = true ↔
      Odd (lastShots rocket.next.ticks incoming) := by
  have hloop := isFiring_receiveLoop floats deltaTime utcNow incoming 0 { rocket := rocket }
  rw [foldl_toggle] at hloop
  rw [receiveIncoming, hloop, decide_eq_true_iff, lastShots]

/-- No shot is lost in the loop exactly when none was fired, or the accepted packets end
in an odd number of firing ones. -/
theorem shotsNoticed_iff (incoming : List NetworkPacket) (rocket : OtherRocket F) :
    ShotsNoticed floats deltaTime utcNow incoming rocket ↔
      (∀ packet ∈ accepted rocket.next.ticks incoming, fires packet = false) ∨
        Odd (lastShots rocket.next.ticks incoming) := by
  rw [ShotsNoticed, isFiring_receiveIncoming]
  constructor
  · intro h
    by_cases hodd : Odd (lastShots rocket.next.ticks incoming)
    · exact Or.inr hodd
    · refine Or.inl fun packet hpacket => ?_
      by_contra hfires
      exact hodd (h.mpr ⟨packet, hpacket, by simpa using hfires⟩)
  · rintro (hnone | hodd)
    · have hempty : (accepted rocket.next.ticks incoming).rtakeWhile fires = [] := by
        rw [List.rtakeWhile_eq_nil_iff]
        intro hne hlast
        rw [hnone _ (List.getLast_mem hne)] at hlast
        cases hlast
      refine iff_of_false ?_ ?_
      · rw [lastShots, hempty]
        decide
      · rintro ⟨packet, hpacket, hfires⟩
        rw [hnone packet hpacket] at hfires
        cases hfires
    · refine iff_of_true hodd ?_
      have hpos : 0 < ((accepted rocket.next.ticks incoming).rtakeWhile fires).length :=
        hodd.pos
      obtain ⟨packet, hpacket⟩ := List.exists_mem_of_length_pos hpos
      exact ⟨packet, (List.rtakeWhile_suffix fires _).subset hpacket,
        List.mem_rtakeWhile_imp hpacket⟩

end Loop

def plain : Floats Thousandths := ⟨id, fun _ _ => false⟩

def resting : OtherRocket Thousandths where
  position := ⟨0, 0⟩
  rotation := 0
  velocity := ⟨0, 0⟩
  speed := 0
  positionPrevious := ⟨0, 0⟩
  rotationPrevious := 0
  velocityPrevious := ⟨0, 0⟩
  speedPrevious := 0
  nextLerp := 0

/-- Two firing packets in one frame cancel each other. -/
theorem two_shots_cancel :
    ¬ ∀ (F : Type) (floats : Floats F) (deltaTime : F) (utcNow : ℕ → Int64)
      (incoming : List NetworkPacket) (rocket : OtherRocket F),
      ShotsNoticed floats deltaTime utcNow incoming rocket := by
  intro h
  let incoming : List NetworkPacket :=
    [{ ticks := 1, isFiring := 1 }, { ticks := 2, isFiring := 1 }]
  have hnoticed := h Thousandths plain 0 (fun _ => 0) incoming resting
  have hfiring := hnoticed.mpr ⟨{ ticks := 1, isFiring := 1 }, by decide, rfl⟩
  exact absurd hfiring (by decide)

end RocketGame.ShotReceiving
