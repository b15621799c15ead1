import RocketGame.Client
import RocketGame.PlayerTable

/-!
The bytes of the four handshake messages, and what one turn of the server does
with the two it receives. Both are padded to the 1000 bytes that the dispatch
asks for, and carry one salt after the type.
-/
namespace RocketGame.HandshakeMessages

open FirstMatch NetworkUtilities Packets PlayerTable Server
open NetworkPacket (ofBytes sealed)

def paddedMessage (t : NetworkPacketType) (salt : UInt64) : Datagram :=
  sealed (t.toInt8.toUInt8 :: (bytes64 salt ++ List.replicate 987 0))

theorem length_paddedMessage (t : NetworkPacketType) (salt : UInt64) :
    (paddedMessage t salt).length = 1000 := by
  simp only [paddedMessage, NetworkPacket.length_sealed, List.length_cons, List.length_append,
    length_bytes64, List.length_replicate]

theorem carries_paddedMessage (t : NetworkPacketType) (salt : UInt64) :
    Carries (paddedMessage t salt) t salt :=
  carries_sealed t salt _

/-- What both sides use of such a message; its bytes are not looked at again. -/
theorem exists_paddedMessage (t : NetworkPacketType) (salt : UInt64) :
    ∃ data, paddedMessage t salt = data ∧ data.length = 1000 ∧ Carries data t salt :=
  ⟨_, rfl, length_paddedMessage t salt, carries_paddedMessage t salt⟩

theorem iterate_writeInt8 (p : NetworkPacket) (n : ℕ) :
    (fun p : NetworkPacket => p.writeInt8 0)^[n] p = p.write (List.replicate n 0) := by
  induction n generalizing p with
  | zero => simp [NetworkPacket.write]
  | succ n ih =>
    have hzero : Int8.toUInt8 0 = 0 := rfl
    rw [Function.iterate_succ_apply, ih]
    simp [NetworkPacket.writeInt8, NetworkPacket.write, List.replicate_succ, hzero]

theorem toDatagram_connectionRequestPacket (clientSalt : UInt64) :
    (Client.connectionRequestPacket clientSalt).toDatagram =
      paddedMessage .connectionRequest clientSalt := by
  rw [Client.connectionRequestPacket, Client.pad, iterate_writeInt8,
    NetworkPacket.toDatagram_eq_sealed]
  rfl

theorem toDatagram_challengeResponsePacket (p : NetworkPacket) (connectionSalt : UInt64) :
    (Client.challengeResponsePacket p connectionSalt).toDatagram =
      paddedMessage .challengeResponse connectionSalt := by
  rw [Client.challengeResponsePacket, Client.pad, iterate_writeInt8,
    NetworkPacket.toDatagram_eq_sealed]
  rfl

def challengeDatagram (clientSalt serverSalt : UInt64) : Datagram :=
  sealed (NetworkPacketType.challenge.toInt8.toUInt8 ::
    (bytes64 clientSalt ++ bytes64 serverSalt))

def acceptedDatagram (playerID : UInt8) : Datagram :=
  sealed (NetworkPacketType.connectionAccepted.toInt8.toUInt8 ::
    bytes64 playerID.toUInt64.toInt64.toUInt64)

def deniedDatagram : Datagram := sealed [NetworkPacketType.connectionDenied.toInt8.toUInt8]

theorem length_challengeDatagram (clientSalt serverSalt : UInt64) :
    (challengeDatagram clientSalt serverSalt).length = 21 := by
  simp only [challengeDatagram, NetworkPacket.length_sealed, List.length_cons, List.length_append,
    length_bytes64]

theorem length_acceptedDatagram (playerID : UInt8) : (acceptedDatagram playerID).length = 13 := by
  simp only [acceptedDatagram, NetworkPacket.length_sealed, List.length_cons, length_bytes64]

theorem length_deniedDatagram : deniedDatagram.length = 5 := by
  simp only [deniedDatagram, NetworkPacket.length_sealed, List.length_cons, List.length_nil]

theorem toDatagram_challengePacket (p : NetworkPacket) (clientSalt serverSalt : UInt64) :
    (challengePacket p clientSalt serverSalt).toDatagram =
      challengeDatagram clientSalt serverSalt := by
  rw [NetworkPacket.toDatagram_eq_sealed]
  simp only [challengePacket, NetworkPacket.clear, NetworkPacket.writeInt8,
    NetworkPacket.writeInt32, NetworkPacket.writeUInt64, NetworkPacket.write, challengeDatagram,
    List.append_assoc, List.nil_append]
  rfl

variable {env : Env} {s : State} {data : Datagram} {addr : Address}

/-- A well-formed request adds one record and is answered by a challenge. -/
theorem executeGameTurn_connectionRequest {clientSalt : UInt64} (hsize : data.length = 1000)
    (hdata : Carries data .connectionRequest clientSalt) :
    executeGameTurn env s data addr = some
      { state := ⟨s.players ++ [newPlayer env s.players clientSalt addr]⟩
        sent :=
          if env.sendOk then [(addr, challengeDatagram clientSalt env.randomSalt)] else []
        result := if env.sendOk then 0 else 1 } := by
  have hsize' : ((ofBytes data).advance 5).size = 1000 := hsize
  rw [executeGameTurn_of_carries hdata]
  simp only [dispatch, hsize', ne_eq, not_true_eq_false, if_false, handleConnectionRequest,
    hdata.salt, Option.bind_eq_bind, Option.bind_some, Option.pure_def, send,
    toDatagram_challengePacket]

theorem step_connectionRequest {clientSalt : UInt64} (hsize : data.length = 1000)
    (hdata : Carries data .connectionRequest clientSalt) :
    step s ⟨env, data, addr⟩ =
      some ⟨s.players ++ [newPlayer env s.players clientSalt addr]⟩ := by
  rw [step, executeGameTurn_connectionRequest hsize hdata, Option.map_some]

theorem step_paddedRequest (env : Env) (s : State) (clientSalt : UInt64) (addr : Address) :
    step s ⟨env, paddedMessage .connectionRequest clientSalt, addr⟩ =
      some ⟨s.players ++ [newPlayer env s.players clientSalt addr]⟩ :=
  step_connectionRequest (length_paddedMessage _ _) (carries_paddedMessage _ _)

/-- A well-formed response is decided by the first record of its sender alone, and the
record is changed or erased before the answer is sent. -/
theorem executeGameTurn_challengeResponse_located {salt : UInt64} {before after : List Player}
    {player : Player} (hsize : data.length = 1000)
    (hdata : Carries data .challengeResponse salt)
    (hlocate : locate (fromAddress addr) s.players = some (before, player, after)) :
    executeGameTurn env s data addr = some
      (if player.connectionSalt = salt then
        { state := ⟨before ++ { player with connectionState := .connected } :: after⟩
          sent := if env.sendOk then [(addr, acceptedDatagram player.playerID)] else []
          result := if env.sendOk then 0 else 1 }
      else
        { state := ⟨before ++ after⟩
          sent := if env.sendOk then [(addr, deniedDatagram)] else []
          result := if env.sendOk then 0 else 1 }) := by
  have hsize' : ((ofBytes data).advance 5).size = 1000 := hsize
  rw [executeGameTurn_of_carries hdata]
  simp only [dispatch, hsize', ne_eq, not_true_eq_false, if_false, handleChallengeResponse,
    hdata.salt, Option.bind_eq_bind, Option.bind_some, hlocate, send]
  split <;> rfl

theorem executeGameTurn_challengeResponse {salt : UInt64} {before after : List Player}
    {player : Player} (hsize : data.length = 1000)
    (hdata : Carries data .challengeResponse salt) (hsend : env.sendOk = true)
    (hlocate : locate (fromAddress addr) s.players = some (before, player, after)) :
    executeGameTurn env s data addr = some
      (if player.connectionSalt = salt then
        { state := ⟨before ++ { player with connectionState := .connected } :: after⟩
          sent := [(addr, acceptedDatagram player.playerID)]
          result := 0 }
      else
        { state := ⟨before ++ after⟩
          sent := [(addr, deniedDatagram)]
          result := 0 }) := by
  rw [executeGameTurn_challengeResponse_located hsize hdata hlocate]
  simp only [hsend, if_true]

/-- A response from an address without a record is an error and changes nothing. -/
theorem executeGameTurn_challengeResponse_unknown {salt : UInt64} (hsize : data.length = 1000)
    (hdata : Carries data .challengeResponse salt)
    (hlocate : locate (fromAddress addr) s.players = none) :
    executeGameTurn env s data addr = some { state := s, result := 1 } := by
  have hsize' : ((ofBytes data).advance 5).size = 1000 := hsize
  rw [executeGameTurn_of_carries hdata]
  simp only [dispatch, hsize', ne_eq, not_true_eq_false, if_false, handleChallengeResponse,
    hdata.salt, Option.bind_eq_bind, Option.bind_some, hlocate, Option.pure_def]

end RocketGame.HandshakeMessages
