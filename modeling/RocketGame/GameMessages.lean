import RocketGame.Client
import RocketGame.PlayerTable

/-!
The messages of the running game. Both directions start with the same header of
16 bytes after the type. The two HandleGameState functions are stated here as
functions of a decoded header, and the two senders by the bytes they build.
-/
namespace RocketGame.GameMessages

open Channels FirstMatch NetworkUtilities Packets PlayerStates PlayerTable
open NetworkPacket (ofBytes sealed)

structure Header where
  connectionSalt : UInt64
  seqNum : UInt16
  ack : UInt16
  ackBits : UInt32
  deriving DecidableEq, Repr

def headerBytes (h : Header) : List UInt8 :=
  bytes64 h.connectionSalt ++ (bytes16 h.seqNum ++ (bytes16 h.ack ++ bytes32 h.ackBits))

def readHeader (p : NetworkPacket) : Option (Header × NetworkPacket) := do
  let (connectionSalt, p) ← p.readUInt64
  let (seqNum, p) ← p.readInt16
  let (ack, p) ← p.readInt16
  let (ackBits, p) ← p.readInt32
  return (⟨connectionSalt, seqNum.toUInt16, ack.toUInt16, ackBits.toUInt32⟩, p)

theorem readHeader_of_unread {p : NetworkPacket} {h : Header} {rest : List UInt8}
    (hp : p.unread = headerBytes h ++ rest) : readHeader p = some (h, p.advance 16) := by
  have hsalt : p.unread = bytes64 h.connectionSalt ++
      (bytes16 h.seqNum ++ (bytes16 h.ack ++ (bytes32 h.ackBits ++ rest))) := by
    simp only [hp, headerBytes, List.append_assoc]
  have hseq := NetworkPacket.unread_advance_of hsalt (length_bytes64 _)
  have hack := NetworkPacket.unread_advance_of hseq (length_bytes16 _)
  have hbits := NetworkPacket.unread_advance_of hack (length_bytes16 _)
  simp only [readHeader, NetworkPacket.readUInt64_of_unread hsalt,
    NetworkPacket.readInt16_of_unread hseq, NetworkPacket.readInt16_of_unread hack,
    NetworkPacket.readInt32_of_unread hbits, Option.bind_eq_bind, Option.bind_some,
    Option.pure_def, UInt16.toUInt16_toInt16, UInt32.toUInt32_toInt32]
  simp only [NetworkPacket.advance_advance]

theorem readHeader_eq_some {p p' : NetworkPacket} {h : Header} (hp : readHeader p = some (h, p')) :
    ∃ p₁ seqNum p₂ ack p₃ ackBits, p.readUInt64 = some (h.connectionSalt, p₁) ∧
      p₁.readInt16 = some (seqNum, p₂) ∧ seqNum.toUInt16 = h.seqNum ∧
      p₂.readInt16 = some (ack, p₃) ∧ ack.toUInt16 = h.ack ∧
      p₃.readInt32 = some (ackBits, p') ∧ ackBits.toUInt32 = h.ackBits := by
  obtain ⟨⟨salt, p₁⟩, hsalt, hp⟩ := Option.bind_eq_some_iff.mp hp
  obtain ⟨⟨seqNum, p₂⟩, hseq, hp⟩ := Option.bind_eq_some_iff.mp hp
  obtain ⟨⟨ack, p₃⟩, hack, hp⟩ := Option.bind_eq_some_iff.mp hp
  obtain ⟨⟨ackBits, p₄⟩, hbits, hp⟩ := Option.bind_eq_some_iff.mp hp
  rw [Option.pure_def, Option.some.injEq, Prod.mk.injEq] at hp
  obtain ⟨rfl, rfl⟩ := hp
  exact ⟨p₁, seqNum, p₂, ack, p₃, ackBits, hsalt, hseq, rfl, hack, rfl, hbits, rfl⟩

def gameMessage (t : NetworkPacketType) (h : Header) (rest : List UInt8) : Datagram :=
  sealed (t.toInt8.toUInt8 :: (headerBytes h ++ rest))

theorem unread_gameMessage (t : NetworkPacketType) (h : Header) (rest : List UInt8) :
    ((ofBytes (gameMessage t h rest)).advance 5).unread = headerBytes h ++ rest :=
  NetworkPacket.unread_advance_one (NetworkPacket.unread_sealed _)

theorem readHeader_gameMessage (t : NetworkPacketType) (h : Header) (rest : List UInt8) :
    readHeader ((ofBytes (gameMessage t h rest)).advance 5) =
      some (h, (ofBytes (gameMessage t h rest)).advance 21) :=
  readHeader_of_unread (unread_gameMessage t h rest)

theorem length_headerBytes (h : Header) : (headerBytes h).length = 16 := by
  simp [headerBytes]

theorem unread_body (t : NetworkPacketType) (h : Header) (rest : List UInt8) :
    ((ofBytes (gameMessage t h rest)).advance 21).unread = rest := by
  have hrest := NetworkPacket.unread_advance_of (unread_gameMessage t h rest)
    (length_headerBytes h)
  rwa [NetworkPacket.advance_advance] at hrest

/-- The body of an input message is the player state that was sent. -/
theorem deserializePlayerState_gameMessage (t : NetworkPacketType) (h : Header)
    (playerState : PlayerState) :
    ((ofBytes (gameMessage t h (playerStateBytes playerState))).advance 21).deserializePlayerState =
      some (received playerState,
        (ofBytes (gameMessage t h (playerStateBytes playerState))).advance 51) := by
  have hbody := (unread_body t h (playerStateBytes playerState)).trans (List.append_nil _).symm
  exact NetworkPacket.deserializePlayerState_of_unread hbody

def tableBytes (players : List Server.Player) : List UInt8 :=
  UInt8.ofNat players.length :: players.flatMap fun q => playerStateBytes q.toPlayerState

theorem length_flatMap_playerStateBytes (players : List Server.Player) :
    (players.flatMap fun q => playerStateBytes q.toPlayerState).length = 30 * players.length := by
  induction players with
  | nil => rfl
  | cons q players ih =>
    rw [List.flatMap_cons, List.length_append, ih, length_playerStateBytes, List.length_cons]
    omega

/-- The client reads every reply to its end, also when the count byte wraps. -/
theorem deserializePlayerStates_gameMessage (t : NetworkPacketType) (h : Header)
    (players : List Server.Player) :
    ∃ playerStates p, ((ofBytes (gameMessage t h (tableBytes players))).advance
      21).deserializePlayerStates = some (playerStates, p) := by
  have hcount : (UInt8.ofNat players.length).toNat ≤ players.length := by
    rw [UInt8.toNat_ofNat']
    exact Nat.mod_le _ _
  have hsome := NetworkPacket.deserializePlayerStates_isSome (unread_body t h (tableBytes players))
    (by rw [length_flatMap_playerStateBytes]; omega)
  obtain ⟨⟨playerStates, p⟩, heq⟩ := Option.isSome_iff_exists.mp hsome
  exact ⟨playerStates, p, heq⟩

section Senders

def channelHeader (connectionSalt : UInt64) (ch : Channel) (ackBits : UInt32) : Header where
  connectionSalt := connectionSalt
  seqNum := ch.localSequenceNumberSmall
  ack := ch.remoteSequenceNumberSmall
  ackBits := ackBits

theorem toDatagram_inputFramePacket (connectionSalt : UInt64) (ch : Channel) (ackBits : UInt32)
    (playerState : PlayerState) :
    (Client.inputFramePacket connectionSalt ch ackBits playerState).toDatagram =
      gameMessage .inputFrame (channelHeader connectionSalt ch ackBits)
        (playerStateBytes playerState) := by
  rw [NetworkPacket.toDatagram_eq_sealed, Client.inputFramePacket,
    NetworkPacket.serializePlayerState_eq_write]
  simp only [NetworkPacket.empty, NetworkPacket.clear, NetworkPacket.writeInt8,
    NetworkPacket.writeInt16, NetworkPacket.writeInt32, NetworkPacket.writeInt64,
    NetworkPacket.write, gameMessage, headerBytes, channelHeader, List.append_assoc,
    List.nil_append, UInt64.toUInt64_toInt64, UInt16.toUInt16_toInt16, UInt32.toUInt32_toInt32]
  rfl

theorem serialize_players (players : List Server.Player) (p : NetworkPacket) :
    players.foldl (fun packet q => packet.serializePlayerState q.toPlayerState) p =
      p.write (players.flatMap fun q => playerStateBytes q.toPlayerState) := by
  have hmap := NetworkPacket.foldl_serializePlayerState
    (players.map Server.Player.toPlayerState) p
  rwa [List.foldl_map, List.flatMap_map] at hmap

theorem toDatagram_gameStatePacket (player : Server.Player) (ackBits : UInt32)
    (players : List Server.Player) :
    (Server.gameStatePacket player ackBits players).toDatagram =
      gameMessage .gameState (channelHeader player.connectionSalt player.toChannel ackBits)
        (tableBytes players) := by
  rw [NetworkPacket.toDatagram_eq_sealed, Server.gameStatePacket, serialize_players]
  simp only [NetworkPacket.empty, NetworkPacket.clear, NetworkPacket.writeInt8,
    NetworkPacket.writeInt16, NetworkPacket.writeInt32, NetworkPacket.writeInt64,
    NetworkPacket.write, gameMessage, headerBytes, channelHeader, tableBytes, List.append_assoc,
    List.nil_append, List.cons_append, UInt64.toUInt64_toInt64, UInt16.toUInt16_toInt16,
    UInt32.toUInt32_toInt32, UInt8.toUInt8_toInt8]
  rfl

def nextHeader (c : Client.State) : Header :=
  channelHeader c.connectionSalt c.toChannel.nextSequenceNumber
    (computeAckBits c.receivedPackets c.remoteSequenceNumberSmall.toUInt64)

def nextDatagram (c : Client.State) (playerState : PlayerState) : Datagram :=
  gameMessage .inputFrame (nextHeader c) (playerStateBytes playerState)

theorem sendGameState_of_empty (physics : Client.PhysicsEngine) (env : Client.Env)
    {c : Client.State} (hempty : c.outgoingState.items = []) :
    Client.sendGameState physics env c = { state := c } := by
  simp only [Client.sendGameState, Client.NetworkQueue.pop, hempty]

theorem sendGameState_of_pop (physics : Client.PhysicsEngine) (env : Client.Env)
    {c : Client.State} {playerState : PlayerState} {queue : Client.NetworkQueue PlayerState}
    (hpop : c.outgoingState.pop = some (playerState, queue)) :
    let o := Client.sendGameState physics env c
    o.state.toChannel = c.toChannel.nextSequenceNumber.recordSent (env.clock 0) ∧
      o.state.connectionSalt = c.connectionSalt ∧ o.state.outgoingState = queue ∧
      o.sent = if env.sendOk then [(c.serverAddr, nextDatagram c playerState)] else [] := by
  simp only [Client.sendGameState, hpop, Client.send, toDatagram_inputFramePacket,
    Client.clientSidePrediction]
  refine ⟨?_, ?_, ?_, rfl⟩
  all_goals split <;> rfl

end Senders

section Receivers

/-- The two blocks both handlers begin with. -/
def receive (clock : Clock) (ch : Channel) (h : Header) : Channel :=
  (ch.accept h.seqNum).verify clock h.ack h.ackBits

/-- The channel of the server's record when it builds its reply. -/
def serverReceive (clock : Clock) (ch : Channel) (h : Header) : Channel :=
  let channel := receive clock ch h
  { channel with sendPackets := channel.sendPackets.filter fun pi => !pi.acknowledged }
    |>.trimReceived Server.maxReceivedPacketsStored

def clientReceive (clock : Clock) (ch : Channel) (h : Header) : Channel :=
  let channel := receive clock ch h
  { channel with sendPackets := Client.keptSendPackets channel.sendPackets }
    |>.trimReceived Client.maxReceivedPacketsStored

/-- The record while the reply is built, and the acknowledgment bits of the reply. -/
def serverReply (clock : Clock) (player : Server.Player) (h : Header) (keyboard : Keyboard) :
    Server.Player :=
  { player with
    toChannel := (serverReceive clock player.toChannel h).nextSequenceNumber
    keyboard := keyboard }

def serverAckBits (clock : Clock) (ch : Channel) (h : Header) : UInt32 :=
  computeAckBits (serverReceive clock ch h).receivedPackets
    (serverReceive clock ch h).remoteSequenceNumberLarge

def serverRecord (clock : Clock) (player : Server.Player) (h : Header) (keyboard : Keyboard) :
    Server.Player :=
  { serverReply clock player h keyboard with
    toChannel := (serverReply clock player h keyboard).toChannel.recordSent (clock 32) }

theorem server_handleGameState_eq {env : Server.Env} {s : Server.State} {p p' p'' : NetworkPacket}
    {addr : Address} {h : Header} {playerState : PlayerState} {before after : List Server.Player}
    {player : Server.Player} (hheader : readHeader p = some (h, p'))
    (hstate : p'.deserializePlayerState = some (playerState, p''))
    (hlocate : locate (Server.authenticates h.connectionSalt addr) s.players =
      some (before, player, after)) :
    Server.handleGameState env s p addr = some
      { state :=
          ⟨before ++ serverRecord env.clock player h playerState.keyboard :: after⟩
        sent := Server.send env
          (Server.gameStatePacket (serverReply env.clock player h playerState.keyboard)
            (serverAckBits env.clock player.toChannel h)
            (before ++ serverReply env.clock player h playerState.keyboard :: after))
          player.address
        verified := (receive env.clock player.toChannel h).sendPackets
        result := 0 } := by
  obtain ⟨p₁, seqNum, p₂, ack, p₃, ackBits, hsalt, hseq, hseq', hack, hack', hbits, hbits'⟩ :=
    readHeader_eq_some hheader
  simp only [Server.handleGameState, hsalt, hlocate, hseq, hack, hbits, hstate,
    Option.bind_eq_bind, Option.bind_some, Option.pure_def, hseq', hack', hbits']
  rfl

theorem client_handleGameState_eq (env : Client.Env) {c : Client.State}
    {p p' p'' : NetworkPacket} {h : Header} {playerStates : List PlayerState}
    (hheader : readHeader p = some (h, p'))
    (hsalt : c.connectionSalt = h.connectionSalt)
    (hstates : p'.deserializePlayerStates = some (playerStates, p'')) :
    ∃ o, Client.handleGameState env c p = some o ∧
      o.state.toChannel = clientReceive env.clock c.toChannel h ∧
      o.state.connectionSalt = c.connectionSalt ∧
      o.verified = (receive env.clock c.toChannel h).sendPackets ∧
      o.state.incomingStates = (c.incomingStates.push playerStates).2 ∧
      o.packetLoss = (Client.trimSendPackets o.verified).packetLoss := by
  obtain ⟨p₁, seqNum, p₂, ack, p₃, ackBits, hsalt', hseq, hseq', hack, hack', hbits, hbits'⟩ :=
    readHeader_eq_some hheader
  simp only [Client.handleGameState, hsalt', hsalt, hseq, hack, hbits, hstates,
    Option.bind_eq_bind, Option.bind_some, Option.pure_def, hseq', hack', hbits', ne_eq,
    not_true_eq_false, if_false]
  refine ⟨_, rfl, rfl, rfl, rfl, rfl, rfl⟩

/-- The client ignores a packet with another salt, or handles it for its header. -/
theorem client_handleGameState_cases {env : Client.Env} {c : Client.State} {p : NetworkPacket}
    {o : Client.Outcome} (ho : Client.handleGameState env c p = some o) :
    (o.state = c ∧ o.result = 0 ∧
        ∀ h p', readHeader p = some (h, p') → c.connectionSalt ≠ h.connectionSalt) ∨
      ∃ h p', readHeader p = some (h, p') ∧ c.connectionSalt = h.connectionSalt ∧
        o.state.toChannel = clientReceive env.clock c.toChannel h ∧
        o.verified = (receive env.clock c.toChannel h).sendPackets ∧
        o.packetLoss = (Client.trimSendPackets o.verified).packetLoss := by
  have ho' := ho
  obtain ⟨⟨salt, p₁⟩, hsalt, ho'⟩ := Option.bind_eq_some_iff.mp ho'
  dsimp only at ho'
  split at ho'
  · rename_i hne
    obtain rfl := Option.some.inj ho'
    refine Or.inl ⟨rfl, rfl, fun h p' hheader => ?_⟩
    obtain ⟨_, _, _, _, _, _, hsalt', _⟩ := readHeader_eq_some hheader
    obtain ⟨rfl, _⟩ := Prod.mk.inj (Option.some.inj (hsalt.symm.trans hsalt'))
    exact hne
  · rename_i heq
    obtain ⟨⟨seqNum, p₂⟩, hseq, ho'⟩ := Option.bind_eq_some_iff.mp ho'
    obtain ⟨⟨ack, p₃⟩, hack, ho'⟩ := Option.bind_eq_some_iff.mp ho'
    obtain ⟨⟨ackBits, p₄⟩, hbits, ho'⟩ := Option.bind_eq_some_iff.mp ho'
    obtain ⟨⟨playerStates, p₅⟩, hstates, _⟩ := Option.bind_eq_some_iff.mp ho'
    have hheader : readHeader p =
        some (⟨salt, seqNum.toUInt16, ack.toUInt16, ackBits.toUInt32⟩, p₄) := by
      simp only [readHeader, hsalt, hseq, hack, hbits, Option.bind_eq_bind, Option.bind_some,
        Option.pure_def]
    obtain ⟨o', ho', hchannel, _, hverified, _, hlost⟩ :=
      client_handleGameState_eq env hheader (not_not.mp heq) hstates
    obtain rfl := Option.some.inj (ho.symm.trans ho')
    exact Or.inr ⟨_, _, hheader, not_not.mp heq, hchannel, hverified, hlost⟩

end Receivers

end RocketGame.GameMessages
