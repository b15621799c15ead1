import RocketGame.Binary32
import RocketGame.PlayerStates
import RocketGame.WhileLoops

/-!
The physics engine on the floats of a player state: the turn and the thrust of the keys,
the loops that bring the rotation back into one turn, the motion with friction and the
edges of the world, and the limit of the speed. A call returns none when one of its two
loops is given too few rounds. The cosine, the sine and the root are the library's.
-/
namespace RocketGame.PhysicsSimulation

open Binary32 PlayerStates WhileLoops

structure Functions where
  cos : UInt32 → UInt32
  sin : UInt32 → UInt32
  sqrt : UInt32 → UInt32

def acceleration : UInt32 := literal 100

def maxSpeed : UInt32 := literal 500

def rotationSpeed : UInt32 := literal 3.14159

def friction : UInt32 := literal 0.95

def fullTurn : UInt32 := mul (literal 2) (literal 3.14159)

def worldWidth : UInt32 := literal 1920

def worldHeight : UInt32 := literal 1080

section ApplyInput

def turn (input : Keyboard) (dt rotation : UInt32) : UInt32 :=
  let rotation := if input.left ≠ 0 then sub rotation (mul rotationSpeed dt) else rotation
  if input.right ≠ 0 then add rotation (mul rotationSpeed dt) else rotation

def raise (n : ℕ) (rotation : UInt32) : Option UInt32 :=
  runWhile (fun r => lt r (literal 0)) (fun r => add r fullTurn) n rotation

def lower (n : ℕ) (rotation : UInt32) : Option UInt32 :=
  runWhile (fun r => le fullTurn r) (fun r => sub r fullTurn) n rotation

def normalizeRotation (n : ℕ) (rotation : UInt32) : Option UInt32 :=
  (raise n rotation).bind (lower n)

variable (f : Functions)

def thrust (heading dt : UInt32) : UInt32 := mul (mul heading acceleration) dt

def accelerate (input : Keyboard) (dt rotation : UInt32) (vel : Vector) : Vector :=
  let vel : Vector := if input.up ≠ 0 then
      ⟨⟨add vel.x.intValue (thrust (f.cos rotation) dt)⟩,
        ⟨add vel.y.intValue (thrust (f.sin rotation) dt)⟩⟩
    else vel
  if input.down ≠ 0 then
    ⟨⟨add vel.x.intValue (mul (thrust (f.cos rotation) dt) (literal (-0.5)))⟩,
      ⟨add vel.y.intValue (mul (thrust (f.sin rotation) dt) (literal (-0.5)))⟩⟩
  else vel

def applyInput (n : ℕ) (player : PlayerState) (input : Keyboard) (deltaTime : UInt32) :
    Option PlayerState :=
  (normalizeRotation n (turn input deltaTime player.rotation.intValue)).map fun rotation =>
    { player with
      rotation := ⟨rotation⟩
      vel := accelerate f input deltaTime rotation player.vel }

end ApplyInput

def wrap (size pos : UInt32) : UInt32 :=
  if lt pos (literal 0) then size
  else if lt size pos then literal 0
  else pos

def applyPhysics (f : Functions) (player : PlayerState) (deltaTime : UInt32) : PlayerState :=
  let x := add player.pos.x.intValue (mul player.vel.x.intValue deltaTime)
  let y := add player.pos.y.intValue (mul player.vel.y.intValue deltaTime)
  let velX := mul player.vel.x.intValue friction
  let velY := mul player.vel.y.intValue friction
  { player with
    vel := ⟨⟨velX⟩, ⟨velY⟩⟩
    speed := ⟨f.sqrt (add (mul velX velX) (mul velY velY))⟩
    pos := ⟨⟨wrap worldWidth x⟩, ⟨wrap worldHeight y⟩⟩ }

def clampValues (player : PlayerState) : PlayerState :=
  let currentSpeed := player.speed.intValue
  if lt maxSpeed currentSpeed then
    let scale := div maxSpeed currentSpeed
    { player with
      vel := ⟨⟨mul player.vel.x.intValue scale⟩, ⟨mul player.vel.y.intValue scale⟩⟩
      speed := ⟨maxSpeed⟩ }
  else player

def simulatePlayer (f : Functions) (n : ℕ) (state : PlayerState) (input : Keyboard)
    (deltaTime : UInt32) : Option PlayerState :=
  (applyInput f n state input deltaTime).map fun newState =>
    { clampValues (applyPhysics f newState deltaTime) with keyboard := input }

def simulateFrame (f : Functions) (n : ℕ) (currentState : List PlayerState) (deltaTime : UInt32) :
    Option (List PlayerState) :=
  currentState.mapM fun player => simulatePlayer f n player player.keyboard deltaTime

end RocketGame.PhysicsSimulation
