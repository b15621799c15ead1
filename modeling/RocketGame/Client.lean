import RocketGame.Channels
import RocketGame.PlayerStates
import RocketGame.Server

/-!
The game client: EstablishConnection as the three stretches of code between its
two Receive calls, the two game state functions, and the snapshot history with
its prediction and replay. The physics engine is a parameter. What Receive and
Send return, random salts and clock readings come from the environment. A
function returns none when one of its reads runs past the received bytes.
-/
namespace RocketGame.Client

open Channels NetworkUtilities Packets PlayerStates
open Server (NetworkConnectionState)

structure GameStateSnapshot where
  seqNum : UInt64
  players : List PlayerState
  deltaTime : UInt64 := 0
  deriving DecidableEq, Repr

/-- SimulatePlayer, and the cast of a double to float at its call sites. -/
structure PhysicsEngine where
  simulatePlayer : PlayerState → Keyboard → UInt32 → PlayerState
  toFloat : UInt64 → UInt32

def PhysicsEngine.resting : PhysicsEngine := ⟨fun playerState _ _ => playerState, fun _ => 0⟩

/-- A NetworkQueue as one thread sees it: it holds at most Capacity - 1 items. -/
structure NetworkQueue (α : Type) where
  items : List α := []
  deriving DecidableEq, Repr

namespace NetworkQueue

variable {α : Type}

def capacity : ℕ := 256

def push (q : NetworkQueue α) (item : α) : Bool × NetworkQueue α :=
  if q.items.length + 1 = capacity then (false, q) else (true, ⟨q.items ++ [item]⟩)

def pop (q : NetworkQueue α) : Option (α × NetworkQueue α) :=
  match q.items with
  | [] => none
  | item :: items => some (item, ⟨items⟩)

end NetworkQueue

structure State extends Channel where
  clientSalt : UInt64 := 0
  serverSalt : UInt64 := 0
  connectionSalt : UInt64 := 0
  playerID : UInt8 := 0
  connectionState : NetworkConnectionState := .disconnected
  serverAddr : Address
  gameStateSnapshot : List GameStateSnapshot := []
  serverInitializedShutdown : Bool := false
  roundTripTimeMs : UInt64 := 0
  outgoingState : NetworkQueue PlayerState := {}
  incomingStates : NetworkQueue (List PlayerState) := {}
  deriving DecidableEq, Repr

/-- What Receive returns: result -1, result 1, or a datagram and its sender. -/
inductive Received
  | timeout
  | failure
  | packet (sender : Address) (data : Datagram)

structure Env where
  clock : Clock := fun _ => 0
  sendOk : Bool := true

/-- What one call does: the state after it, the datagrams handed to the network, the
send list as VerifyAck left it, the packets counted as lost, and the value returned. -/
structure Outcome where
  state : State
  sent : List (Address × Datagram) := []
  verified : List PacketInfo := []
  packetLoss : ℕ := 0
  result : ℤ := 0

def send (sendOk : Bool) (packet : NetworkPacket) (c : State) : List (Address × Datagram) :=
  if sendOk then [(c.serverAddr, packet.toDatagram)] else []

def pad (packet : NetworkPacket) : NetworkPacket :=
  (fun packet : NetworkPacket => packet.writeInt8 0)^[1000 - 4 - 1 - 8] packet

/-- Where a call of EstablishConnection stands between two Receive calls. -/
inductive Attempt
  | awaitingChallenge (clientSalt : UInt64)
  | awaitingAccepted (clientSalt serverSalt : UInt64)
  | returned (result : ℤ)
  deriving DecidableEq, Repr

structure Handshake where
  state : State
  sent : List (Address × Datagram) := []
  attempt : Attempt

def connectionRequestPacket (clientSalt : UInt64) : NetworkPacket :=
  pad (NetworkPacket.empty.writeInt8 NetworkPacketType.connectionRequest.toInt8
    |>.writeUInt64 clientSalt)

def challengeResponsePacket (networkPacket : NetworkPacket) (connectionSalt : UInt64) :
    NetworkPacket :=
  pad (networkPacket.clear.writeInt8 NetworkPacketType.challengeResponse.toInt8
    |>.writeUInt64 connectionSalt)

def requestConnection (clientSalt : UInt64) (sendOk : Bool) (c : State) : Handshake :=
  let c := { c with clientSalt := 0, serverSalt := 0, connectionSalt := 0, playerID := 0,
                    connectionState := .connecting }
  { state := c
    sent := send sendOk (connectionRequestPacket clientSalt) c
    attempt := if sendOk then .awaitingChallenge clientSalt else .returned 1 }

def disconnected (c : State) : Handshake :=
  { state := { c with connectionState := .disconnected }, attempt := .returned 1 }

def receiveChallenge (clientSalt : UInt64) (sendOk : Bool) (received : Received) (c : State) :
    Option Handshake :=
  match received with
  | .timeout | .failure => some { state := c, attempt := .returned 1 }
  | .packet sender data => do
      if !isSameAddress sender c.serverAddr then
        return disconnected c
      let (invalid, challengePacket) ← (NetworkPacket.ofBytes data).readAndValidateCRC
      if invalid ≠ 0 then
        return disconnected c
      let (packetType, challengePacket) ← challengePacket.readNetworkPacketType
      if packetType ≠ some .challenge then
        return disconnected c
      let (receivedClientSalt, challengePacket) ← challengePacket.readUInt64
      let (serverSalt, _) ← challengePacket.readUInt64
      if receivedClientSalt ≠ clientSalt then
        return disconnected c
      let packet := challengeResponsePacket (connectionRequestPacket clientSalt)
        (clientSalt ^^^ serverSalt)
      if !sendOk then
        return disconnected c
      return { state := c
               sent := send sendOk packet c
               attempt := .awaitingAccepted clientSalt serverSalt }

def receiveAccepted (clientSalt serverSalt : UInt64) (received : Received) (c : State) :
    Option Handshake :=
  match received with
  | .timeout | .failure => some (disconnected c)
  | .packet sender data => do
      if !isSameAddress sender c.serverAddr then
        return disconnected c
      let (invalid, challengeResponsePacket) ← (NetworkPacket.ofBytes data).readAndValidateCRC
      if invalid ≠ 0 then
        return disconnected c
      let (packetType, challengeResponsePacket) ← challengeResponsePacket.readNetworkPacketType
      if packetType ≠ some .connectionAccepted then
        return disconnected c
      let (playerID, _) ← challengeResponsePacket.readInt8
      return { state := { c with connectionState := .connected
                                 clientSalt := clientSalt
                                 serverSalt := serverSalt
                                 connectionSalt := clientSalt ^^^ serverSalt
                                 playerID := playerID.toUInt8 }
               attempt := .returned 0 }

def inputFramePacket (connectionSalt : UInt64) (channel : Channel) (ackBits : UInt32)
    (playerState : PlayerState) : NetworkPacket :=
  NetworkPacket.empty.writeInt8 NetworkPacketType.inputFrame.toInt8
    |>.writeInt64 connectionSalt.toInt64
    |>.writeInt16 channel.localSequenceNumberSmall.toInt16
    |>.writeInt16 channel.remoteSequenceNumberSmall.toInt16
    |>.writeInt32 ackBits.toInt32
    |>.serializePlayerState playerState

variable (physics : PhysicsEngine)

/-- previousPlayerStates is declared and never filled in the source, so the
loop over it simulates no player. -/
def clientSidePrediction (c : State) (playerState : PlayerState) (seqNum : UInt64) : State :=
  if c.gameStateSnapshot.isEmpty then c
  else
    let previousPlayerStates : List PlayerState := []
    let deltaTime := physics.toFloat playerState.deltaTime
    let snapshot : GameStateSnapshot :=
      { seqNum := seqNum
        players := previousPlayerStates.map fun previousPlayerState =>
          if previousPlayerState.playerID = c.playerID then
            physics.simulatePlayer previousPlayerState playerState.keyboard deltaTime
          else
            physics.simulatePlayer previousPlayerState previousPlayerState.keyboard deltaTime }
    { c with
      gameStateSnapshot := c.gameStateSnapshot ++ [snapshot]
      incomingStates := (c.incomingStates.push snapshot.players).2 }

def sendGameState (env : Env) (c : State) : Outcome :=
  match c.outgoingState.pop with
  | none => { state := c }
  | some (playerState, outgoingState) =>
      let channel := c.toChannel.nextSequenceNumber
      -- the acknowledged number is the 16-bit one, not the 64-bit counter
      let ackBits := computeAckBits channel.receivedPackets
        channel.remoteSequenceNumberSmall.toUInt64
      let packet := inputFramePacket c.connectionSalt channel ackBits playerState
      let c := { c with
        outgoingState := outgoingState
        toChannel := channel.recordSent (env.clock 0) }
      { state := clientSidePrediction physics c playerState c.localSequenceNumberLarge
        sent := send env.sendOk packet c }

def maxSendPacketsStored : ℕ := 33

def maxReceivedPacketsStored : ℕ := 33

/-- The counters that the lambda given to remove_if captures. -/
structure SendTrim where
  packetsToRemove : UInt64
  acknowledgedCount : ℕ := 0
  packetLoss : ℕ := 0
  roundTripTime : Int64 := 0
  kept : List PacketInfo := []
  deriving DecidableEq, Repr

def SendTrim.visit (t : SendTrim) (pi : PacketInfo) : SendTrim :=
  if t.packetsToRemove > 0 then
    let t := { t with packetsToRemove := t.packetsToRemove - 1 }
    if pi.acknowledged then
      { t with
        acknowledgedCount := t.acknowledgedCount + 1
        roundTripTime := t.roundTripTime + pi.roundTripTime }
    else { t with packetLoss := t.packetLoss + 1 }
  else { t with kept := t.kept ++ [pi] }

/-- The number to remove is an unsigned difference: below the limit it wraps. -/
def trimSendPackets (sendPackets : List PacketInfo) : SendTrim :=
  sendPackets.foldl SendTrim.visit
    { packetsToRemove :=
        UInt64.ofNat sendPackets.length - UInt64.ofNat maxSendPacketsStored }

def keptSendPackets (sendPackets : List PacketInfo) : List PacketInfo :=
  let kept := (trimSendPackets sendPackets).kept
  if kept.length > maxSendPacketsStored then kept.drop (kept.length - maxSendPacketsStored)
  else kept

def handleGameState (env : Env) (c : State) (networkPacket : NetworkPacket) :
    Option Outcome := do
  let (connectionSalt, gamePacket) ← networkPacket.readUInt64
  if c.connectionSalt ≠ connectionSalt then
    return { state := c, result := 0 }
  let (seqNum, gamePacket) ← gamePacket.readInt16
  let (ack, gamePacket) ← gamePacket.readInt16
  let (ackBits, gamePacket) ← gamePacket.readInt32
  let channel := c.toChannel.accept seqNum.toUInt16
  let channel := channel.verify env.clock ack.toUInt16 ackBits.toUInt32
  let verified := channel.sendPackets
  let trim := trimSendPackets verified
  let roundTripTimeMs :=
    if trim.acknowledgedCount > 0 then
      (milliseconds (trim.roundTripTime / Int64.ofNat trim.acknowledgedCount)).toUInt64
    else c.roundTripTimeMs
  let channel := { channel with sendPackets := keptSendPackets verified }
  let channel := channel.trimReceived maxReceivedPacketsStored
  let (playerStates, _) ← gamePacket.deserializePlayerStates
  return { state := { c with
             toChannel := channel
             roundTripTimeMs := roundTripTimeMs
             incomingStates := (c.incomingStates.push playerStates).2 }
           verified := verified
           packetLoss := trim.packetLoss
           result := 1 }

def replaySnapshot (previousState snapshot : GameStateSnapshot) : GameStateSnapshot :=
  { deltaTime := snapshot.deltaTime
    seqNum := snapshot.seqNum
    players := snapshot.players.map fun playerState =>
      match previousState.players.find? (fun ps => ps.playerID == playerState.playerID) with
      | none => playerState
      | some ps =>
          physics.simulatePlayer ps playerState.keyboard (physics.toFloat snapshot.deltaTime) }

def replay (previousState : GameStateSnapshot) :
    List GameStateSnapshot → List GameStateSnapshot × GameStateSnapshot
  | [] => ([], previousState)
  | snapshot :: rest =>
      let replayed := replaySnapshot physics previousState snapshot
      let (replayedRest, last) := replay replayed rest
      (replayed :: replayedRest, last)

def authoritativePlayers (serverState : GameStateSnapshot) : List PlayerState :=
  serverState.players.map fun playerState =>
    physics.simulatePlayer playerState playerState.keyboard
      (physics.toFloat serverState.deltaTime)

def rollbackAndReplay (c : State) (serverState : GameStateSnapshot) : State :=
  let previousClientSideSnapshots :=
    c.gameStateSnapshot.filter fun state => state.seqNum ≥ serverState.seqNum
  let kept := c.gameStateSnapshot.filter fun state => !(state.seqNum ≥ serverState.seqNum)
  let c := { c with gameStateSnapshot := kept }
  match kept.find? (fun state => state.seqNum == serverState.seqNum) with
  | none => c
  | some found =>
      let previousState := { found with players := authoritativePlayers physics serverState }
      let (replayed, last) := replay physics previousState previousClientSideSnapshots
      { c with
        gameStateSnapshot := kept ++ previousState :: replayed
        incomingStates := (c.incomingStates.push last.players).2 }

def quitGame (sendOk : Bool) (c : State) : List (Address × Datagram) :=
  if c.serverInitializedShutdown then []
  else (List.replicate 10 (send sendOk
    (NetworkPacket.empty.writeInt8 NetworkPacketType.disconnect.toInt8
      |>.writeInt64 c.connectionSalt.toInt64) c)).flatten

end RocketGame.Client
