import RocketGame.ClientTurns

/-!
The class Game of the windowed client. Its window thread calls Update, which hands the
input of a frame over to the network thread and takes the states to draw from it; the
two run side by side, one step at a time. The network thread runs NetworkLoop on a stop
token of no stop source: nothing ever asks it to stop. What push took and what was
pushed, popped and sent is kept as a history.
-/
namespace RocketGame.GameWindow

open Client ClientProgram ClientTurns DatagramSafety GameMessages HandshakeMessages
open NetworkUtilities Packets PlayerStates PlayerTable Runs

structure Scene where
  players : List PlayerState := []
  deltaTime : UInt64 := 0
  roundTripTimeMs : UInt64 := 0
  deriving DecidableEq, Repr

inductive Stage
  | starting | connecting | syncing | playing | returned
  deriving DecidableEq, Repr

/-- Where Update stands: between two calls, before its push, or in its loop of pops. -/
inductive Frame
  | between
  | push (playerState : PlayerState)
  | pop
  deriving DecidableEq, Repr

structure Game where
  client : Program
  stage : Stage := .starting
  running : Bool := true
  stopRequested : Bool := false
  frame : Frame := .between
  scene : Scene := {}
  inputs : List PlayerState := []
  sent : List (Address × Datagram) := []
  pushed : List (List PlayerState) := []
  popped : List (List PlayerState) := []

section NetworkThread

def Game.call (g : Game) (stage : Stage) (p : Progress) : Game :=
  { g with
    client := p.program
    stage
    sent := g.sent ++ p.sent
    pushed := g.pushed ++
      p.program.incomingStates.items.drop g.client.incomingStates.items.length }

/-- ExecuteGame returns at once when running is already cleared. -/
def Game.executeGame (g : Game) (env : Env) : Game :=
  g.call .playing
    (if g.running then ClientProgram.executeGame env g.client else finish 0 g.client)

def Game.goOn (g : Game) (result : ℤ) (clientSalt : UInt64) (env : Env) : Game :=
  match g.stage with
  | .starting => g.call .connecting (establishConnection clientSalt env g.client)
  | .connecting =>
      if result ≠ 0 ∧ g.stopRequested = false then
        g.call .connecting (establishConnection clientSalt env g.client)
      else g.call .syncing (syncClock env g.client)
  | .syncing =>
      if result ≠ 0 ∧ g.stopRequested = false then g.call .syncing (syncClock env g.client)
      else if g.stopRequested = false then g.executeGame env
      else { g with stage := .returned }
  | .playing =>
      if result ≠ 0 then { g with stage := .returned }
      else g.call .returned
        { program := g.client, sent := quitGame env.sendOk g.client.toState }
  | .returned => g

/-- ExecuteGame clears running itself when it gives up or is told to end. -/
def Game.receive (g : Game) (p : Progress) : Game :=
  let g' := g.call g.stage p
  match g.stage, p.program.phase with
  | .playing, .returned _ => { g' with running := false }
  | _, _ => g'

end NetworkThread

section WindowThread

/-- Update up to its push; it leaves early while the client is not connected. -/
def Game.beginUpdate (g : Game) (deltaTime : UInt64) (keyboard : Keyboard) : Game :=
  if g.client.connectionState ≠ .connected then
    { g with scene := { g.scene with roundTripTimeMs := 0, players := [] } }
  else
    { g with
      scene := { g.scene with deltaTime, roundTripTimeMs := g.client.roundTripTimeMs }
      frame := .push { deltaTime, keyboard } }

def Game.pushInput (g : Game) (playerState : PlayerState) : Game :=
  let (taken, outgoingState) := g.client.outgoingState.push playerState
  { g with
    client := { g.client with outgoingState }
    frame := .pop
    inputs := if taken then g.inputs ++ [playerState] else g.inputs }

def Game.popState (g : Game) : Game :=
  match g.client.incomingStates.pop with
  | none => { g with frame := .between }
  | some (players, incomingStates) =>
    { g with
      client := { g.client with incomingStates }
      scene := { g.scene with players }
      popped := g.popped ++ [players] }

end WindowThread

/-- NetworkLoop goes on with the salt it draws next, or a Receive returns; a frame of the
window begins or goes on; the window is closed. -/
inductive Event
  | next (clientSalt : UInt64) (env : Env)
  | receive (received : Received) (env : Env)
  | update (deltaTime : UInt64) (keyboard : Keyboard)
  | continueUpdate
  | close

variable (physics : PhysicsEngine)

def step (g : Game) : Event → Option Game
  | .next clientSalt env => match g.client.phase with
    | .returned result => some (g.goOn result clientSalt env)
    | _ => some g
  | .receive received env => match g.client.phase with
    | .returned _ => some g
    | _ => (progress physics g.client (.receive received env)).map g.receive
  | .update deltaTime keyboard => match g.frame with
    | .between => some (g.beginUpdate deltaTime keyboard)
    | _ => none
  | .continueUpdate => match g.frame with
    | .between => none
    | .push playerState => some (g.pushInput playerState)
    | .pop => some g.popState
  | .close => match g.client.phase with
    | .playing _ => some { g.call g.stage (finish 0 g.client) with running := false }
    | _ => some { g with running := false }

def start (server : Address) : Game where
  client := { serverAddr := server }

end RocketGame.GameWindow
