import RocketGame.GameMessages
import RocketGame.HandshakeMessages

/-!
Everything one turn of the server can do, with the datagram it does it for: the
state it leaves, the datagrams it sends, and the value the handler returns. A
turn has eight kinds, and the properties of single turns are case analyses over
them.
-/
namespace RocketGame.Turns

open Channels FirstMatch GameMessages HandshakeMessages NetworkUtilities Packets PlayerStates
open PlayerTable Server
open NetworkPacket (ofBytes sealed)

def answer (env : Env) (addr : Address) (data : Datagram) : List (Address × Datagram) :=
  if env.sendOk then [(addr, data)] else []

def clockResponseDatagram (now : Int64) : Datagram :=
  sealed (NetworkPacketType.clockResponse.toInt8.toUInt8 :: bytes64 now.toUInt64)

theorem toDatagram_clockResponsePacket (now : Int64) :
    (clockResponsePacket now).toDatagram = clockResponseDatagram now := by
  rw [NetworkPacket.toDatagram_eq_sealed]
  rfl

theorem length_clockResponseDatagram (now : Int64) : (clockResponseDatagram now).length = 13 := by
  rw [clockResponseDatagram, NetworkPacket.length_sealed, List.length_cons, length_bytes64]

def gameStateDatagram (env : Env) (before after : List Player) (player : Player) (h : Header)
    (keyboard : Keyboard) : Datagram :=
  gameMessage .gameState
    (channelHeader player.connectionSalt (serverReply env.clock player h keyboard).toChannel
      (serverAckBits env.clock player.toChannel h))
    (tableBytes (before ++ serverReply env.clock player h keyboard :: after))

inductive Turn (env : Env) (s : State) (data : Datagram) (addr : Address) : Outcome → Prop
  | dropped : Turn env s data addr (dropped s)
  | requested (clientSalt : UInt64) (hsize : data.length = 1000)
      (hdata : Carries data .connectionRequest clientSalt) :
      Turn env s data addr
        { state := ⟨s.players ++ [newPlayer env s.players clientSalt addr]⟩
          sent := answer env addr (challengeDatagram clientSalt env.randomSalt)
          result := if env.sendOk then 0 else 1 }
  | unknown (t : NetworkPacketType) (salt : UInt64) (hdata : Carries data t salt) :
      Turn env s data addr { state := s, result := 1 }
  | accepted (salt : UInt64) (before after : List Player) (player : Player)
      (hsize : data.length = 1000) (hdata : Carries data .challengeResponse salt)
      (hlocate : locate (fromAddress addr) s.players = some (before, player, after))
      (hsalt : player.connectionSalt = salt) :
      Turn env s data addr
        { state := ⟨before ++ { player with connectionState := .connected } :: after⟩
          sent := answer env addr (acceptedDatagram player.playerID)
          result := if env.sendOk then 0 else 1 }
  | denied (salt : UInt64) (before after : List Player) (player : Player)
      (hsize : data.length = 1000) (hdata : Carries data .challengeResponse salt)
      (hlocate : locate (fromAddress addr) s.players = some (before, player, after))
      (hsalt : player.connectionSalt ≠ salt) :
      Turn env s data addr
        { state := ⟨before ++ after⟩
          sent := answer env addr deniedDatagram
          result := if env.sendOk then 0 else 1 }
  | synced (salt clientTime : UInt64) (before after : List Player) (player : Player)
      (hdata : Carries data .clock salt)
      (hlocate : locate (authenticates salt addr) s.players = some (before, player, after)) :
      Turn env s data addr
        { state := ⟨before ++
            { player with
              serverClockOffset := milliseconds (env.clock 0) - clientTime.toInt64 } :: after⟩
          sent := answer env player.address (clockResponseDatagram (milliseconds (env.clock 0)))
          result := if env.sendOk then 0 else 1 }
  | played (h : Header) (keyboard : Keyboard) (before after : List Player) (player : Player)
      (hdata : Carries data .gameState h.connectionSalt)
      (hlocate : locate (authenticates h.connectionSalt addr) s.players =
        some (before, player, after)) :
      Turn env s data addr
        { state := ⟨before ++ serverRecord env.clock player h keyboard :: after⟩
          sent := answer env player.address
            (gameStateDatagram env before after player h keyboard)
          verified := (receive env.clock player.toChannel h).sendPackets
          result := 0 }
  | ended (salt : UInt64) (hdata : Carries data .disconnect salt) :
      Turn env s data addr
        { state := ⟨s.players.filter fun p => !authenticates salt addr p⟩, result := 1 }

section Handlers

variable {env : Env} {s : State} {data : Datagram} {addr : Address} {o : Outcome}

/-- A type and a salt that were read make the datagram carry them. -/
theorem carries_of_reads {t : NetworkPacketType} {salt : UInt64} {p' : NetworkPacket}
    (hcrc : (ofBytes data).readAndValidateCRC = some (0, (ofBytes data).advance 4))
    (htype : ((ofBytes data).advance 4).readNetworkPacketType =
      some (some t, (ofBytes data).advance 5))
    (hsalt : ((ofBytes data).advance 5).readUInt64 = some (salt, p')) :
    Carries data t salt ∧ p' = (ofBytes data).advance 13 := by
  have hfour := (NetworkPacket.reads_readAndValidateCRC.eq_advance (Nat.zero_le _) hcrc).1
  have hfive := (NetworkPacket.reads_readNetworkPacketType.eq_advance hfour htype).1
  obtain ⟨_, rfl⟩ := NetworkPacket.reads_readUInt64.eq_advance hfive hsalt
  exact ⟨⟨hcrc, htype, hsalt⟩, rfl⟩

theorem handleConnectionRequest_turn {clientSalt : UInt64} (hsize : data.length = 1000)
    (hdata : Carries data .connectionRequest clientSalt)
    (h : handleConnectionRequest env s ((ofBytes data).advance 5) addr = some o) :
    Turn env s data addr o := by
  simp only [handleConnectionRequest, hdata.salt, Option.bind_eq_bind, Option.bind_some,
    Server.send, toDatagram_challengePacket] at h
  obtain rfl := Option.some.inj h
  exact .requested clientSalt hsize hdata

theorem handleChallengeResponse_turn {salt : UInt64} (hsize : data.length = 1000)
    (hdata : Carries data .challengeResponse salt)
    (h : handleChallengeResponse env s ((ofBytes data).advance 5) addr = some o) :
    Turn env s data addr o := by
  simp only [handleChallengeResponse, hdata.salt, Option.bind_eq_bind, Option.bind_some] at h
  split at h
  · obtain rfl := Option.some.inj h
    exact .unknown _ salt hdata
  · rename_i before player after hlocate
    split at h
    · rename_i hsalt
      obtain rfl := Option.some.inj h
      exact .accepted salt before after player hsize hdata hlocate hsalt
    · rename_i hsalt
      obtain rfl := Option.some.inj h
      exact .denied salt before after player hsize hdata hlocate hsalt

theorem handleClockSync_turn {salt : UInt64} (hdata : Carries data .clock salt)
    (h : handleClockSync env s ((ofBytes data).advance 5) addr = some o) :
    Turn env s data addr o := by
  simp only [handleClockSync, hdata.salt, Option.bind_eq_bind, Option.bind_some] at h
  obtain ⟨⟨clientTime, p'⟩, _, h⟩ := Option.bind_eq_some_iff.mp h
  dsimp only at h
  split at h
  · obtain rfl := Option.some.inj h
    exact .unknown _ salt hdata
  · rename_i before player after hlocate
    obtain rfl := Option.some.inj h
    rw [Server.send, toDatagram_clockResponsePacket]
    exact .synced salt clientTime before after player hdata hlocate

/-- A game message with a known record is handled for the header it carries. -/
theorem handleGameState_eq_some {salt : UInt64} {before after : List Player} {player : Player}
    (hdata : Carries data .gameState salt)
    (hlocate : locate (authenticates salt addr) s.players = some (before, player, after))
    (h : handleGameState env s ((ofBytes data).advance 5) addr = some o) :
    ∃ header p keyboard, header.connectionSalt = salt ∧
      readHeader ((ofBytes data).advance 5) = some (header, p) ∧
      o =
        { state := ⟨before ++ serverRecord env.clock player header keyboard :: after⟩
          sent := answer env player.address
            (gameStateDatagram env before after player header keyboard)
          verified := (receive env.clock player.toChannel header).sendPackets
          result := 0 } := by
  have h' := h
  simp only [handleGameState, hdata.salt, hlocate, Option.bind_eq_bind, Option.bind_some] at h'
  obtain ⟨⟨seqNum, p₂⟩, hseq, h'⟩ := Option.bind_eq_some_iff.mp h'
  obtain ⟨⟨ack, p₃⟩, hack, h'⟩ := Option.bind_eq_some_iff.mp h'
  obtain ⟨⟨ackBits, p₄⟩, hbits, h'⟩ := Option.bind_eq_some_iff.mp h'
  obtain ⟨⟨playerState, p₅⟩, hstate, _⟩ := Option.bind_eq_some_iff.mp h'
  let header : Header := ⟨salt, seqNum.toUInt16, ack.toUInt16, ackBits.toUInt32⟩
  have hheader : readHeader ((ofBytes data).advance 5) = some (header, p₄) := by
    simp only [readHeader, hdata.salt, hseq, hack, hbits, Option.bind_eq_bind, Option.bind_some,
      Option.pure_def, header]
  rw [server_handleGameState_eq hheader hstate hlocate, Server.send,
    toDatagram_gameStatePacket] at h
  exact ⟨header, p₄, playerState.keyboard, rfl, hheader, (Option.some.inj h).symm⟩

theorem handleGameState_turn {salt : UInt64} (hdata : Carries data .gameState salt)
    (h : handleGameState env s ((ofBytes data).advance 5) addr = some o) :
    Turn env s data addr o := by
  cases hlocate : locate (authenticates salt addr) s.players with
  | none =>
    simp only [handleGameState, hdata.salt, hlocate, Option.bind_eq_bind, Option.bind_some] at h
    obtain rfl := Option.some.inj h
    exact .unknown _ salt hdata
  | some found =>
    obtain ⟨before, player, after⟩ := found
    obtain ⟨header, _, keyboard, rfl, _, rfl⟩ := handleGameState_eq_some hdata hlocate h
    exact .played header keyboard before after player hdata hlocate

theorem handleDisconnect_turn {salt : UInt64} (hdata : Carries data .disconnect salt)
    (h : handleDisconnect env s ((ofBytes data).advance 5) addr = some o) :
    Turn env s data addr o := by
  simp only [handleDisconnect, hdata.salt, Option.bind_eq_bind, Option.bind_some] at h
  obtain rfl := Option.some.inj h
  exact .ended salt hdata

end Handlers

/-- Every turn that returns is one of the eight. -/
theorem turn_of_executeGameTurn {env : Env} {s : State} {data : Datagram} {addr : Address}
    {o : Outcome} (h : executeGameTurn env s data addr = some o) : Turn env s data addr o := by
  rcases executeGameTurn_cases h with rfl | ⟨packetType, hcrc, htype, h⟩
  · exact .dropped
  · unfold dispatch at h
    split at h
    · split at h
      · obtain rfl := Option.some.inj h
        exact .dropped
      · rename_i hsize
        obtain ⟨⟨clientSalt, _⟩, hsalt, _⟩ := Option.bind_eq_some_iff.mp h
        have hdata := (carries_of_reads hcrc htype hsalt).1
        exact handleConnectionRequest_turn (not_not.mp hsize) hdata h
    · split at h
      · obtain rfl := Option.some.inj h
        exact .dropped
      · rename_i hsize
        obtain ⟨⟨salt, _⟩, hsalt, _⟩ := Option.bind_eq_some_iff.mp h
        have hdata := (carries_of_reads hcrc htype hsalt).1
        exact handleChallengeResponse_turn (not_not.mp hsize) hdata h
    · obtain ⟨⟨salt, _⟩, hsalt, _⟩ := Option.bind_eq_some_iff.mp h
      exact handleClockSync_turn (carries_of_reads hcrc htype hsalt).1 h
    · obtain ⟨⟨salt, _⟩, hsalt, _⟩ := Option.bind_eq_some_iff.mp h
      exact handleGameState_turn (carries_of_reads hcrc htype hsalt).1 h
    · obtain ⟨⟨salt, _⟩, hsalt, _⟩ := Option.bind_eq_some_iff.mp h
      exact handleDisconnect_turn (carries_of_reads hcrc htype hsalt).1 h
    · obtain rfl := Option.some.inj h
      exact .dropped

section Table

variable {env : Env} {s s' : State} {data : Datagram} {addr : Address} {o : Outcome}

/-- The turn as a change of the table. -/
theorem tableChange_of_turn (h : Turn env s data addr o) :
    TableChange env data addr s.players o.state.players := by
  cases h with
  | dropped => exact .same
  | requested clientSalt hsize hdata => exact .added clientSalt hsize hdata
  | unknown t salt hdata => exact .same
  | accepted salt before after player hsize hdata hlocate hsalt =>
    obtain ⟨hplayers, haddr, _⟩ := locate_eq_some.mp hlocate
    rw [fromAddress_iff] at haddr
    exact .changed before after player _ hplayers haddr ⟨rfl, rfl, rfl, rfl, rfl⟩
  | denied salt before after player hsize hdata hlocate hsalt =>
    obtain ⟨hplayers, haddr, _⟩ := locate_eq_some.mp hlocate
    rw [fromAddress_iff] at haddr
    exact .erased before after player hplayers haddr
  | synced salt clientTime before after player hdata hlocate =>
    obtain ⟨hplayers, hauth, _⟩ := locate_eq_some.mp hlocate
    rw [authenticates_iff] at hauth
    exact .changed before after player _ hplayers hauth.2 ⟨rfl, rfl, rfl, rfl, rfl⟩
  | played h keyboard before after player hdata hlocate =>
    obtain ⟨hplayers, hauth, _⟩ := locate_eq_some.mp hlocate
    rw [authenticates_iff] at hauth
    exact .changed before after player _ hplayers hauth.2 ⟨rfl, rfl, rfl, rfl, rfl⟩
  | ended salt hdata => exact .removed salt

theorem executeGameTurn_table (h : executeGameTurn env s data addr = some o) :
    TableChange env data addr s.players o.state.players :=
  tableChange_of_turn (turn_of_executeGameTurn h)

theorem step_others {e : Event} {other : Address} (h : step s e = some s')
    (hne : other ≠ e.clientAddr) :
    s'.players.filter (fromAddress other) = s.players.filter (fromAddress other) := by
  obtain ⟨o, ho, rfl⟩ := Option.map_eq_some_iff.mp h
  exact (executeGameTurn_table ho).others hne

end Table

end RocketGame.Turns
