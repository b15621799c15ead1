import RocketGame.GameMessages
import RocketGame.SequenceNumbers

/-!
The input of a client on its way to the server. SendGameState builds the message
HandleGameState expects, but gives it the type INPUT_FRAME, and the dispatch has
no case for that type. The handler alone would deliver the input; the running
server drops it.
-/
namespace RocketGame.InputDelivery

open Channels Channel FirstMatch GameMessages NetworkUtilities Packets PlayerStates PlayerTable
open NetworkPacket (ofBytes)

/-- The record is connected for this client and its remote number lies behind
the client's next number, less than half the range away and before any wrap. -/
structure Expects (c : Client.State) (addr : Address) (p : Server.Player) : Prop where
  address : p.address = addr
  connected : p.connectionState = .connected
  salt : p.connectionSalt = c.connectionSalt
  small : p.remoteSequenceNumberSmall = smallSequenceNumber p.remoteSequenceNumberLarge
  behind : p.remoteSequenceNumberLarge < c.localSequenceNumberLarge + 1
  near : c.localSequenceNumberLarge + 1 - p.remoteSequenceNumberLarge < 32768
  noWrap : p.remoteSequenceNumberLarge / UInt64.ofNat sequenceNumberMax =
    (c.localSequenceNumberLarge + 1) / UInt64.ofNat sequenceNumberMax

/-- The client's record holds its keyboard and number, and one GAME_STATE answers it. -/
def Delivered (o : Server.Outcome) (c : Client.State) (addr : Address) (keyboard : Keyboard) :
    Prop :=
  (∃ p ∈ o.state.players, p.address = addr ∧ p.connectionSalt = c.connectionSalt ∧
    p.keyboard = keyboard.normalized ∧
    p.remoteSequenceNumberLarge = c.localSequenceNumberLarge + 1 ∧
    p.remoteSequenceNumberSmall = smallSequenceNumber (c.localSequenceNumberLarge + 1)) ∧
  ∃ data, o.sent = [(addr, data)] ∧
    ((ofBytes data).advance 4).readNetworkPacketType =
      some (some .gameState, (ofBytes data).advance 5)

theorem executeGameTurn_inputFrame (env : Server.Env) (s : Server.State) (h : Header)
    (rest : List UInt8) (addr : Address) :
    Server.executeGameTurn env s (gameMessage .inputFrame h rest) addr = some (dropped s) := by
  have htype := NetworkPacket.unread_sealed
    (NetworkPacketType.inputFrame.toInt8.toUInt8 :: (headerBytes h ++ rest))
  exact executeGameTurn_of_crc (NetworkPacket.readAndValidateCRC_sealed _)
    (NetworkPacket.readNetworkPacketType_of_unread htype)

/-- HandleGameState itself would deliver the message. -/
theorem handleGameState_delivers {env : Server.Env} {s : Server.State} {c : Client.State}
    {addr : Address} {before after : List Server.Player} {p : Server.Player}
    (playerState : PlayerState) (hsend : env.sendOk = true)
    (hlocate : locate (Server.authenticates c.connectionSalt addr) s.players =
      some (before, p, after))
    (hp : Expects c addr p) :
    ∃ o, Server.handleGameState env s ((ofBytes (nextDatagram c playerState)).advance 5) addr =
        some o ∧ Delivered o c addr playerState.keyboard := by
  have hheader := readHeader_gameMessage .inputFrame (nextHeader c) (playerStateBytes playerState)
  have hstate := deserializePlayerState_gameMessage .inputFrame (nextHeader c) playerState
  have hlarge : p.remoteSequenceNumberLarge +
      (sequenceNumberDiff p.remoteSequenceNumberSmall (nextHeader c).seqNum).toUInt64 =
        c.localSequenceNumberLarge + 1 := by
    have hle := UInt64.le_of_lt hp.behind
    have hnear := hp.near
    rw [UInt64.lt_iff_toNat_lt, UInt64.toNat_sub_of_le _ _ hle] at hnear
    rw [hp.small]
    exact SequenceNumbers.add_sequenceNumberDiff hle hnear hp.noWrap
  let record := serverRecord env.clock p (nextHeader c) (received playerState).keyboard
  refine ⟨_, server_handleGameState_eq hheader hstate hlocate, ⟨record, ?_, hp.address, hp.salt,
    rfl, ?_, ?_⟩, ?_⟩
  · exact List.mem_append_right _ (List.mem_cons_self ..)
  · exact (accept_remoteSequenceNumberLarge _ _).trans hlarge
  · exact accept_remoteSequenceNumberSmall _ _
  · dsimp only
    rw [Server.send, if_pos hsend, hp.address, toDatagram_gameStatePacket]
    exact ⟨_, rfl, NetworkPacket.readNetworkPacketType_of_unread (NetworkPacket.unread_sealed _)⟩

/-- For every server and client state, the datagram SendGameState hands to the
network changes nothing on the server and is not answered. -/
theorem executeGameTurn_never_delivers {physics : Client.PhysicsEngine} {env : Client.Env}
    {c : Client.State} {playerState : PlayerState} {queue : Client.NetworkQueue PlayerState}
    (hpop : c.outgoingState.pop = some (playerState, queue)) (hsend : env.sendOk = true)
    (env' : Server.Env) (s : Server.State) (addr : Address) :
    ∃ data o, (Client.sendGameState physics env c).sent = [(c.serverAddr, data)] ∧
      Server.executeGameTurn env' s data addr = some o ∧ o.state = s ∧ o.sent = [] ∧
      ¬ Delivered o c addr playerState.keyboard := by
  have hsent := (sendGameState_of_pop physics env hpop).2.2.2
  rw [if_pos hsend] at hsent
  refine ⟨_, _, hsent, executeGameTurn_inputFrame env' s _ _ addr, rfl, rfl, ?_⟩
  rintro ⟨_, data, hsent, _⟩
  cases hsent

def pairedClient : Client.State :=
  { serverAddr := ⟨2, 9, 3501⟩, connectionSalt := 7, connectionState := .connected,
    outgoingState := ⟨[{ keyboard := { up := 1 } }]⟩ }

def pairedServer : Server.State :=
  ⟨[{ address := ⟨2, 1, 1⟩, connectionSalt := 7, connectionState := .connected }]⟩

/-- The first input of that client. -/
theorem executeGameTurn_never_delivers_first :
    ∃ data o,
      (Client.sendGameState .resting {} pairedClient).sent = [(⟨2, 9, 3501⟩, data)] ∧
      Server.executeGameTurn {} pairedServer data ⟨2, 1, 1⟩ = some o ∧ o.state = pairedServer ∧
      o.sent = [] ∧ ¬ Delivered o pairedClient ⟨2, 1, 1⟩ { up := 1 } := by
  have hpop : pairedClient.outgoingState.pop = some ({ keyboard := { up := 1 } }, ⟨[]⟩) := rfl
  exact executeGameTurn_never_delivers hpop rfl {} pairedServer ⟨2, 1, 1⟩

/-- The server drops that input although its record expects it. -/
theorem first_input_is_dropped :
    ¬ ∀ (physics : Client.PhysicsEngine) (env : Client.Env) (env' : Server.Env)
      (c : Client.State) (s : Server.State) (addr : Address) (p : Server.Player)
      (playerState : PlayerState) (queue : Client.NetworkQueue PlayerState),
      p ∈ s.players → Expects c addr p → c.outgoingState.pop = some (playerState, queue) →
      env.sendOk = true → env'.sendOk = true →
      ∃ data o, (Client.sendGameState physics env c).sent = [(c.serverAddr, data)] ∧
        Server.executeGameTurn env' s data addr = some o ∧
        Delivered o c addr playerState.keyboard := by
  intro h
  have hexpects : Expects pairedClient ⟨2, 1, 1⟩
      { address := ⟨2, 1, 1⟩, connectionSalt := 7, connectionState := .connected } :=
    ⟨rfl, rfl, rfl, by decide, by decide, by decide, by decide⟩
  obtain ⟨data, o, hsent, hturn, _, reply, hreply, _⟩ := h .resting {} {}
    pairedClient pairedServer ⟨2, 1, 1⟩ _ _ _ (List.mem_singleton_self _) hexpects rfl rfl rfl
  have hpop : pairedClient.outgoingState.pop = some ({ keyboard := { up := 1 } }, ⟨[]⟩) := rfl
  rw [(sendGameState_of_pop _ _ hpop).2.2.2, if_pos rfl, List.cons.injEq, Prod.mk.injEq] at hsent
  obtain ⟨⟨_, rfl⟩, _⟩ := hsent
  rw [nextDatagram, executeGameTurn_inputFrame, Option.some.injEq] at hturn
  subst hturn
  cases hreply

end RocketGame.InputDelivery
