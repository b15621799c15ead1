import RocketGame.Channels
import RocketGame.FirstMatch
import RocketGame.PlayerStates

/-!
The game server: the player table, the five message handlers, and the dispatch
of ExecuteGame for one received datagram. Random salts, clock readings and the
result of Send come from the environment of the step. A handler returns none
when one of its reads runs past the end of the received bytes. Logging is left
out.
-/
namespace RocketGame.Server

open Channels FirstMatch NetworkUtilities Packets PlayerStates

inductive NetworkConnectionState
  | disconnected | connecting | connected
  deriving DecidableEq, Repr

structure Player extends PlayerState, Channel where
  clientSalt : UInt64 := 0
  serverSalt : UInt64 := 0
  connectionSalt : UInt64 := 0
  address : Address
  connectionState : NetworkConnectionState := .disconnected
  created : Int64 := 0
  serverClockOffset : Int64 := 0
  deriving DecidableEq, Repr

structure State where
  players : List Player := []
  deriving DecidableEq, Repr

def maxPlayers : ℕ := 8

structure Env where
  randomSalt : UInt64 := 0
  clock : Clock := fun _ => 0
  sendOk : Bool := true

/-- What one message does: the state after it, the datagrams handed to the
network, the send list as VerifyAck left it, and the value returned. -/
structure Outcome where
  state : State
  sent : List (Address × Datagram) := []
  verified : List PacketInfo := []
  result : ℤ

/-- Network::Send seals the packet; a failed sendto hands nothing over. -/
def send (env : Env) (packet : NetworkPacket) (addr : Address) : List (Address × Datagram) :=
  if env.sendOk then [(addr, packet.toDatagram)] else []

def fromAddress (addr : Address) (player : Player) : Bool := isSameAddress player.address addr

def authenticates (connectionSalt : UInt64) (addr : Address) (player : Player) : Bool :=
  player.connectionSalt == connectionSalt && isSameAddress player.address addr

/-- The search for a free player ID. A taken ID is stored before the flag is
cleared, and the loop ends at the first ID that no record holds. -/
def findPlayerID (players : List Player) : List ℕ → ℕ → ℕ
  | [], playerID => playerID
  | i :: rest, playerID =>
      if players.any fun player => player.playerID.toNat == i then findPlayerID players rest i
      else playerID

def assignPlayerID (players : List Player) (clientAddr : Address) : ℕ :=
  let playerID := match players.find? (fromAddress clientAddr) with
    | some player => player.playerID.toNat
    | none => 0
  let playerID :=
    if playerID = 0 then findPlayerID players (List.range' 1 (maxPlayers - 1)) playerID
    else playerID
  if playerID = 0 then 1 else playerID

/-- 200.0f as the bits of a float. -/
def startPosition : FloatInt := ⟨0x43480000⟩

def newPlayer (env : Env) (players : List Player) (clientSalt : UInt64) (clientAddr : Address) :
    Player where
  connectionState := .connecting
  clientSalt := clientSalt
  serverSalt := env.randomSalt
  connectionSalt := clientSalt ^^^ env.randomSalt
  playerID := UInt8.ofNat (assignPlayerID players clientAddr)
  address := clientAddr
  created := env.clock 0
  pos := ⟨startPosition, startPosition⟩

def challengePacket (networkPacket : NetworkPacket) (clientSalt serverSalt : UInt64) :
    NetworkPacket :=
  networkPacket.clear.writeInt8 NetworkPacketType.challenge.toInt8
    |>.writeUInt64 clientSalt |>.writeUInt64 serverSalt

def handleConnectionRequest (env : Env) (s : State) (networkPacket : NetworkPacket)
    (clientAddr : Address) : Option Outcome := do
  let (clientSalt, networkPacket) ← networkPacket.readUInt64
  let player := newPlayer env s.players clientSalt clientAddr
  return { state := ⟨s.players ++ [player]⟩
           sent := send env (challengePacket networkPacket clientSalt env.randomSalt) clientAddr
           result := if env.sendOk then 0 else 1 }

def acceptedPacket (networkPacket : NetworkPacket) (player : Player) : NetworkPacket :=
  networkPacket.clear.writeInt8 NetworkPacketType.connectionAccepted.toInt8
    |>.writeInt64 player.playerID.toUInt64.toInt64

def deniedPacket (networkPacket : NetworkPacket) : NetworkPacket :=
  networkPacket.clear.writeInt8 NetworkPacketType.connectionDenied.toInt8

/-- Only the first record of the address is looked at: it is either connected or erased. -/
def handleChallengeResponse (env : Env) (s : State) (networkPacket : NetworkPacket)
    (clientAddr : Address) : Option Outcome := do
  let (salt, networkPacket) ← networkPacket.readUInt64
  match locate (fromAddress clientAddr) s.players with
  | none => return { state := s, result := 1 }
  | some (before, player, after) =>
      if player.connectionSalt = salt then
        let player := { player with connectionState := .connected }
        return { state := ⟨before ++ player :: after⟩
                 sent := send env (acceptedPacket networkPacket player) clientAddr
                 result := if env.sendOk then 0 else 1 }
      else
        return { state := ⟨before ++ after⟩
                 sent := send env (deniedPacket networkPacket) clientAddr
                 result := if env.sendOk then 0 else 1 }

def clockResponsePacket (now : Int64) : NetworkPacket :=
  NetworkPacket.empty.writeInt8 NetworkPacketType.clockResponse.toInt8 |>.writeInt64 now

def handleClockSync (env : Env) (s : State) (networkPacket : NetworkPacket)
    (clientAddr : Address) : Option Outcome := do
  let now := milliseconds (env.clock 0)
  let (connectionSalt, networkPacket) ← networkPacket.readUInt64
  let (clientTime, _) ← networkPacket.readUInt64
  match locate (authenticates connectionSalt clientAddr) s.players with
  | none => return { state := s, result := 1 }
  | some (before, player, after) =>
      let player := { player with serverClockOffset := now - clientTime.toInt64 }
      return { state := ⟨before ++ player :: after⟩
               sent := send env (clockResponsePacket now) player.address
               result := if env.sendOk then 0 else 1 }

def gameStatePacket (player : Player) (ackBits : UInt32) (players : List Player) :
    NetworkPacket :=
  let packet := NetworkPacket.empty.writeInt8 NetworkPacketType.gameState.toInt8
    |>.writeInt64 player.connectionSalt.toInt64
    |>.writeInt16 player.localSequenceNumberSmall.toInt16
    |>.writeInt16 player.remoteSequenceNumberSmall.toInt16
    |>.writeInt32 ackBits.toInt32
    |>.writeInt8 (UInt8.ofNat players.length).toInt8
  players.foldl (fun packet p => packet.serializePlayerState p.toPlayerState) packet

def maxReceivedPacketsStored : ℕ := 60

def handleGameState (env : Env) (s : State) (networkPacket : NetworkPacket)
    (clientAddr : Address) : Option Outcome := do
  let (connectionSalt, networkPacket) ← networkPacket.readUInt64
  match locate (authenticates connectionSalt clientAddr) s.players with
  | none => return { state := s, result := 1 }
  | some (before, player, after) =>
      let (seqNum, gamePacket) ← networkPacket.readInt16
      let (ack, gamePacket) ← gamePacket.readInt16
      let (ackBits, gamePacket) ← gamePacket.readInt32
      let channel := player.toChannel.accept seqNum.toUInt16
      let channel := channel.verify env.clock ack.toUInt16 ackBits.toUInt32
      let verified := channel.sendPackets
      -- all acknowledged packets leave the send list
      let channel := { channel with sendPackets := verified.filter fun pi => !pi.acknowledged }
      let channel := channel.trimReceived maxReceivedPacketsStored
      let ackBits := computeAckBits channel.receivedPackets channel.remoteSequenceNumberLarge
      let channel := channel.nextSequenceNumber
      let (playerState, _) ← gamePacket.deserializePlayerState
      let player := { player with toChannel := channel, keyboard := playerState.keyboard }
      -- the reply lists the table with this record already updated
      let reply := gameStatePacket player ackBits (before ++ player :: after)
      let player := { player with toChannel := channel.recordSent (env.clock 32) }
      return { state := ⟨before ++ player :: after⟩
               sent := send env reply player.address
               verified := verified
               result := 0 }

def handleDisconnect (_ : Env) (s : State) (networkPacket : NetworkPacket)
    (clientAddr : Address) : Option Outcome := do
  let (connectionSalt, _) ← networkPacket.readUInt64
  return { state := ⟨s.players.filter fun p => !authenticates connectionSalt clientAddr p⟩
           result := 1 }

def quitGame (env : Env) (s : State) : List (Address × Datagram) :=
  s.players.flatMap fun player => (List.replicate 10 (send env
    (NetworkPacket.empty.writeInt8 NetworkPacketType.disconnect.toInt8
      |>.writeInt64 player.connectionSalt.toInt64) player.address)).flatten

/-- The switch of ExecuteGame; both handshake messages must have 1000 bytes. -/
def dispatch (env : Env) (s : State) (packetType : Option NetworkPacketType)
    (networkPacket : NetworkPacket) (clientAddr : Address) : Option Outcome :=
  match packetType with
  | some .connectionRequest =>
      if networkPacket.size ≠ 1000 then some { state := s, result := 0 }
      else handleConnectionRequest env s networkPacket clientAddr
  | some .challengeResponse =>
      if networkPacket.size ≠ 1000 then some { state := s, result := 0 }
      else handleChallengeResponse env s networkPacket clientAddr
  | some .clock => handleClockSync env s networkPacket clientAddr
  | some .gameState => handleGameState env s networkPacket clientAddr
  | some .disconnect => handleDisconnect env s networkPacket clientAddr
  | _ => some { state := s, result := 0 }

def executeGameTurn (env : Env) (s : State) (data : Datagram) (clientAddr : Address) :
    Option Outcome := do
  let networkPacket := NetworkPacket.ofBytes data
  if networkPacket.size < Crc32.crcSize then
    return { state := s, result := 0 }
  let (invalid, networkPacket) ← networkPacket.readAndValidateCRC
  if invalid ≠ 0 then
    return { state := s, result := 0 }
  let (packetType, networkPacket) ← networkPacket.readNetworkPacketType
  dispatch env s packetType networkPacket clientAddr

structure Event where
  env : Env
  data : Datagram
  clientAddr : Address

def step (s : State) (e : Event) : Option State :=
  (executeGameTurn e.env s e.data e.clientAddr).map Outcome.state

end RocketGame.Server
