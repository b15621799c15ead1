import RocketGame.ClockNetwork
import RocketGame.ConnectionOutcome

/-!
Everything one step of the client program can do, with the event it does it for: the
program it leaves and the datagrams it hands to the network. The properties of the
program over whole runs are case analyses over these moves.
-/
namespace RocketGame.ClientTurns

open Client ClientProgram DatagramSafety GameMessages HandshakeGating HandshakeMessages
open NetworkUtilities Packets PlayerStates PlayerTable
open ClockNetwork (continueWith)
open ConnectionOutcome (Reply receiveAccepted_outcome receiveChallenge_outcome)
open NetworkPacket (ofBytes sealed)

variable (physics : PhysicsEngine)

inductive Synced (c : Program) : Progress → Prop
  | waits (offset : Int64) (sync : ClockSync) :
      Synced c
        { program := { c with serverClockOffset := offset, phase := .syncing sync }
          sent := [(c.serverAddr,
            clockDatagram c.connectionSalt sync.sendNowEpoch.toUInt64)] }
  | averaged (offset : Int64) (roundTripTimeMs : UInt64) :
      Synced c
        { program := { c with
            serverClockOffset := offset
            roundTripTimeMs := roundTripTimeMs
            phase := .returned 0 } }
  | failed (offset : Int64) :
      Synced c { program := { c with serverClockOffset := offset, phase := .returned 1 } }
  | lost (offset : Int64) :
      Synced c
        { program := { c with
            serverClockOffset := offset
            connectionState := .disconnected
            phase := .returned 1 } }

inductive Updated (env : Env) (c : Program) : Progress → Prop
  | early : Updated env c { program := c }
  | due : Updated env c
      { program := { c with toState := (sendGameState physics (later env 1) c.toState).state }
        sent := (sendGameState physics (later env 1) c.toState).sent }

inductive Heard (env : Env) (received : Received) (c : Program) : Program → Prop
  | kept (loop : GameLoop) : Heard env received c { c with phase := .playing loop }
  | ended : Heard env received c { c with phase := .returned 0 }
  | handled (loop : GameLoop) (data : Datagram) (o : Outcome)
      (hreply : Reply c.serverAddr .gameState received data)
      (ho : handleGameState env c.toState ((ofBytes data).advance 5) = some o) :
      Heard env received c { c with toState := o.state, phase := .playing loop }

inductive Move (c : Program) : Event → Progress → Prop
  | ignored (e : Event) : Move c e { program := c }
  | requested (clientSalt : UInt64) (env : Env) (result : ℤ)
      (hphase : c.phase = .returned result) :
      Move c (.establishConnection clientSalt env) (establishConnection clientSalt env c)
  | failed (received : Received) (env : Env) (attempt : Attempt) (state : State)
      (hphase : c.phase = .establishing attempt)
      (hstate : state = c.toState ∨ state = (disconnected c.toState).state) :
      Move c (.receive received env)
        { program := { c with toState := state, phase := .returned 1 } }
  | challenged (received : Received) (env : Env) (clientSalt serverSalt : UInt64)
      (data : Datagram) (hphase : c.phase = .establishing (.awaitingChallenge clientSalt))
      (hreply : Reply c.serverAddr .challenge received data)
      (hecho : saltField data = clientSalt)
      (hserver : ∃ p, ((ofBytes data).advance 13).readUInt64 = some (serverSalt, p)) :
      Move c (.receive received env)
        { program :=
            { c with phase := .establishing (.awaitingAccepted clientSalt serverSalt) }
          sent := [(c.serverAddr,
            paddedMessage .challengeResponse (clientSalt ^^^ serverSalt))] }
  | accepted (received : Received) (env : Env) (clientSalt serverSalt : UInt64)
      (data : Datagram) (playerID : UInt8)
      (hphase : c.phase = .establishing (.awaitingAccepted clientSalt serverSalt))
      (hreply : Reply c.serverAddr .connectionAccepted received data) :
      Move c (.receive received env)
        { program := { c with
            connectionState := .connected
            clientSalt := clientSalt
            serverSalt := serverSalt
            connectionSalt := clientSalt ^^^ serverSalt
            playerID := playerID
            phase := .returned 0 } }
  | refused (env : Env) (result : ℤ) (hphase : c.phase = .returned result)
      (h : c.connectionState ≠ .connected ∨ c.connectionSalt = 0) :
      Move c (.syncClock env) (finish 1 c)
  | started (env : Env) (result : ℤ) (p : Progress) (hphase : c.phase = .returned result)
      (hconnected : c.connectionState = .connected) (hsalt : c.connectionSalt ≠ 0)
      (h : Synced c p) : Move c (.syncClock env) p
  | synced (received : Received) (env : Env) (sync : ClockSync) (p : Progress)
      (hphase : c.phase = .syncing sync) (h : Synced c p) : Move c (.receive received env) p
  | began (env : Env) (result : ℤ) (hphase : c.phase = .returned result) :
      Move c (.executeGame env) (executeGame env c)
  | played (received : Received) (env : Env) (loop : GameLoop) (update : Progress)
      (c' : Program) (hphase : c.phase = .playing loop) (hupdate : Updated physics env c update)
      (hheard : Heard (later env 2) received update.program c') :
      Move c (.receive received env) { program := c', sent := update.sent }
  | interrupted (loop : GameLoop) (hphase : c.phase = .playing loop) :
      Move c .interrupt (finish 0 c)

inductive Message (c : Program) (e : Event) : Datagram → Prop
  | request (clientSalt : UInt64) (env : Env) (he : e = .establishConnection clientSalt env)
      (hsend : env.sendOk = true) : Message c e (paddedMessage .connectionRequest clientSalt)
  | response (clientSalt serverSalt : UInt64)
      (hphase : c.phase = .establishing (.awaitingChallenge clientSalt)) :
      Message c e (paddedMessage .challengeResponse (clientSalt ^^^ serverSalt))
  | clock (sendNowEpoch : UInt64) : Message c e (clockDatagram c.connectionSalt sendNowEpoch)
  | frame (h : Header) (playerState : PlayerState) (hsalt : h.connectionSalt = c.connectionSalt) :
      Message c e (gameMessage .inputFrame h (playerStateBytes playerState))

def farewellDatagram (connectionSalt : UInt64) : Datagram :=
  sealed (NetworkPacketType.disconnect.toInt8.toUInt8 :: bytes64 connectionSalt)

theorem toDatagram_farewell (connectionSalt : UInt64) :
    (NetworkPacket.empty.writeInt8 NetworkPacketType.disconnect.toInt8
      |>.writeInt64 connectionSalt.toInt64).toDatagram = farewellDatagram connectionSalt := by
  rw [NetworkPacket.toDatagram_eq_sealed]
  rfl

section SyncClock

variable {c : Program} {p : Progress}

theorem synced_startExchange (env : Env) (exchanges : ℕ) (clockOffsets roundTripTimes : List Int64)
    (c : Program) : Synced c (startExchange env exchanges clockOffsets roundTripTimes c) := by
  unfold startExchange
  split
  · unfold averageOffsets
    split
    · exact .failed c.serverClockOffset
    · exact .averaged _ _
  · dsimp only
    split
    · exact .lost 0
    · rename_i hsend
      rw [Bool.not_eq_true, Bool.not_eq_false'] at hsend
      rw [Client.send, if_pos hsend, ClockNetwork.toDatagram_clockPacket]
      exact .waits 0 _

/-- An offset written before does not matter. -/
theorem Synced.of_offset {offset : Int64}
    (h : Synced { c with serverClockOffset := offset } p) : Synced c p := by
  cases h with
  | waits offset sync => exact .waits offset sync
  | averaged offset roundTripTimeMs => exact .averaged offset roundTripTimeMs
  | failed offset => exact .failed offset
  | lost offset => exact .lost offset

theorem synced_receiveClockResponse {env : Env} {sync : ClockSync} {received : Received}
    (h : receiveClockResponse env sync received c = some p) : Synced c p := by
  cases received with
  | timeout =>
    simp only [receiveClockResponse] at h
    split at h
    · obtain rfl := Option.some.inj h
      exact synced_startExchange ..
    · obtain rfl := Option.some.inj h
      exact .failed c.serverClockOffset
  | failure =>
    simp only [receiveClockResponse] at h
    split at h
    · obtain rfl := Option.some.inj h
      exact synced_startExchange ..
    · obtain rfl := Option.some.inj h
      exact .failed c.serverClockOffset
  | packet sender data =>
    simp only [receiveClockResponse, Option.bind_eq_bind, Option.pure_def] at h
    rcases expected_cases h with rfl | ⟨-, hread⟩
    · exact .failed c.serverClockOffset
    · obtain ⟨_, -, hp⟩ := Option.bind_eq_some_iff.mp hread
      obtain rfl := Option.some.inj hp
      exact (synced_startExchange ..).of_offset

end SyncClock

section ExecuteGame

variable {env : Env} {loop : GameLoop} {c c' : Program}

theorem updated_updateGame (env : Env) (loop : GameLoop) (c : Program) :
    Updated physics env c (updateGame physics env loop c).1 := by
  unfold updateGame
  dsimp only
  split
  · exact .due
  · exact .early

/-- The turn of ExecuteGame after its Receive, one case for each way through it. -/
inductive Hearing (env : Env) (loop : GameLoop) (c : Program) : Received → Program → Prop
  | waited (hwait : ¬ milliseconds (env.clock 0 - loop.idle) ≥ 5000) :
      Hearing env loop c .timeout (keepPlaying loop c)
  | counted (hpassed : milliseconds (env.clock 0 - loop.idle) ≥ 5000)
      (hcount : ¬ loop.idleTime + 1 > 20) : Hearing env loop c .timeout
        (keepPlaying { loop with idle := env.clock 0, idleTime := loop.idleTime + 1 } c)
  | gaveUp (hpassed : milliseconds (env.clock 0 - loop.idle) ≥ 5000)
      (hcount : loop.idleTime + 1 > 20) :
      Hearing env loop c .timeout { c with phase := .returned 0 }
  | failed : Hearing env loop c .failure (keepPlaying loop c)
  | discarded (sender : Address) (data : Datagram)
      (hforeign : ¬ (isSameAddress sender c.serverAddr = true ∧ ValidCRC data)) :
      Hearing env loop c (.packet sender data) (keepPlaying loop c)
  | handled (data : Datagram) (o : Outcome)
      (hreply : Reply c.serverAddr .gameState (.packet c.serverAddr data) data)
      (ho : handleGameState env c.toState ((ofBytes data).advance 5) = some o) :
      Hearing env loop c (.packet c.serverAddr data)
        (keepPlaying { loop with idleTime := 0 } { c with toState := o.state })
  | ended (data : Datagram)
      (hreply : Reply c.serverAddr .disconnect (.packet c.serverAddr data) data) :
      Hearing env loop c (.packet c.serverAddr data) { c with phase := .returned 0 }
  | ignored (data : Datagram) (hcrc : ValidCRC data)
      (htype : typeField data ≠ some .disconnect) :
      Hearing env loop c (.packet c.serverAddr data) (keepPlaying { loop with idleTime := 0 } c)

theorem hearing_of_receiveGame {received : Received}
    (h : receiveGame env loop received c = some c') : Hearing env loop c received c' := by
  cases received with
  | timeout =>
    simp only [receiveGame] at h
    split at h
    · next hpassed =>
      split at h
      · next hcount =>
        obtain rfl := Option.some.inj h
        exact .gaveUp hpassed hcount
      · next hcount =>
        obtain rfl := Option.some.inj h
        exact .counted hpassed hcount
    · next hwait =>
      obtain rfl := Option.some.inj h
      exact .waited hwait
  | failure =>
    obtain rfl := Option.some.inj h
    exact .failed
  | packet sender data =>
    simp only [receiveGame, Option.bind_eq_bind, Option.pure_def, NetworkPacket.size_ofBytes] at h
    split at h
    · next hsender =>
      obtain rfl := Option.some.inj h
      rw [Bool.not_eq_true'] at hsender
      exact .discarded sender data fun hown => Bool.false_ne_true (hsender.symm.trans hown.1)
    · next hsender =>
      have hsame : sender = c.serverAddr := by
        simpa only [Bool.not_eq_true', Bool.not_eq_false, isSameAddress_iff] using hsender
      subst hsame
      split at h
      · next hsize =>
        obtain rfl := Option.some.inj h
        exact .discarded _ data fun hown => absurd hsize (not_lt.mpr hown.2.four_le)
      · obtain ⟨⟨invalid, p⟩, hcrc, h⟩ := Option.bind_eq_some_iff.mp h
        obtain ⟨hfour, rfl⟩ :=
          NetworkPacket.reads_readAndValidateCRC.eq_advance (Nat.zero_le _) hcrc
        dsimp only at h
        split at h
        · next hinvalid =>
          obtain rfl := Option.some.inj h
          refine .discarded _ data fun hown => hinvalid ?_
          exact (Prod.mk.inj (Option.some.inj (hcrc.symm.trans hown.2))).1
        · next hvalid =>
          obtain rfl : invalid = 0 := not_not.mp hvalid
          obtain ⟨⟨packetType, p⟩, htype, h⟩ := Option.bind_eq_some_iff.mp h
          obtain ⟨-, rfl⟩ := NetworkPacket.reads_readNetworkPacketType.eq_advance hfour htype
          have htypeField := typeField_of_read hfour htype
          dsimp only at h
          split at h
          · obtain ⟨o, ho, h⟩ := Option.bind_eq_some_iff.mp h
            obtain rfl := Option.some.inj h
            exact .handled data o ⟨rfl, hcrc, htypeField⟩ ho
          · obtain rfl := Option.some.inj h
            exact .ended data ⟨rfl, hcrc, htypeField⟩
          · next hother =>
            obtain rfl := Option.some.inj h
            exact .ignored data hcrc fun hend => hother (htypeField.symm.trans hend)

theorem heard_of_receiveGame {received : Received}
    (h : receiveGame env loop received c = some c') : Heard env received c c' := by
  cases hearing_of_receiveGame h with
  | waited | counted | failed | discarded | ignored => exact .kept _
  | gaveUp | ended => exact .ended
  | handled data o hreply ho => exact .handled _ data o hreply ho

end ExecuteGame

section EstablishConnection

variable {c : Program} {received : Received}

/-- The server's salt in the response is the one the challenge carries. -/
theorem readUInt64_of_receiveChallenge {clientSalt serverSalt : UInt64} {sendOk : Bool}
    {c : State} {h : Handshake} {data : Datagram}
    (hreceive : receiveChallenge clientSalt sendOk (.packet c.serverAddr data) c = some h)
    (hattempt : h.attempt = .awaitingAccepted clientSalt serverSalt) :
    ∃ p, ((ofBytes data).advance 13).readUInt64 = some (serverSalt, p) := by
  simp only [receiveChallenge, Option.bind_eq_bind, Option.pure_def] at hreceive
  rcases expected_cases hreceive with rfl | ⟨⟨-, -, htype⟩, hfields⟩
  · cases hattempt
  · obtain ⟨⟨receivedClientSalt, p⟩, hsalt, hfields⟩ := Option.bind_eq_some_iff.mp hfields
    obtain ⟨-, rfl⟩ := NetworkPacket.reads_readUInt64.eq_advance
      (ConnectionOutcome.five_le_of_typeField htype) hsalt
    obtain ⟨⟨salt, p'⟩, hserver, hfields⟩ := Option.bind_eq_some_iff.mp hfields
    dsimp only at hfields
    split at hfields
    · obtain rfl := Option.some.inj hfields
      cases hattempt
    · split at hfields
      · obtain rfl := Option.some.inj hfields
        cases hattempt
      · obtain rfl := Option.some.inj hfields
        obtain ⟨-, rfl⟩ := Attempt.awaitingAccepted.inj hattempt
        exact ⟨p', hserver⟩

theorem move_of_receiveChallenge {clientSalt : UInt64} {env : Env} {h : Handshake}
    (hphase : c.phase = .establishing (.awaitingChallenge clientSalt))
    (hreceive : receiveChallenge clientSalt env.sendOk received c.toState = some h) :
    Move physics c (.receive received env) (ofHandshake c h) := by
  rcases receiveChallenge_outcome hreceive with
    (rfl | rfl) | ⟨data, serverSalt, hreply, hecho, rfl⟩
  · exact .failed received env _ _ hphase (Or.inl rfl)
  · exact .failed received env _ _ hphase (Or.inr rfl)
  · obtain rfl := hreply.received
    exact .challenged _ env clientSalt serverSalt data hphase hreply hecho
      (readUInt64_of_receiveChallenge hreceive rfl)

theorem move_of_receiveAccepted {clientSalt serverSalt : UInt64} {env : Env} {h : Handshake}
    (hphase : c.phase = .establishing (.awaitingAccepted clientSalt serverSalt))
    (hreceive : receiveAccepted clientSalt serverSalt received c.toState = some h) :
    Move physics c (.receive received env) (ofHandshake c h) := by
  rcases receiveAccepted_outcome hreceive with rfl | ⟨data, playerID, hreply, rfl⟩
  · exact .failed received env _ _ hphase (Or.inr rfl)
  · exact .accepted received env clientSalt serverSalt data playerID hphase hreply

end EstablishConnection

section Program

variable {c c' : Program} {p : Progress} {e : Event}

theorem move_of_syncClock {env : Env} {result : ℤ} (hphase : c.phase = .returned result) :
    Move physics c (.syncClock env) (syncClock env c) := by
  unfold syncClock
  split
  · rename_i hconnected
    exact .refused env result hphase (Or.inl hconnected)
  · rename_i hconnected
    split
    · rename_i hsalt
      exact .refused env result hphase (Or.inr hsalt)
    · rename_i hsalt
      exact .started env result _ hphase (not_not.mp hconnected) hsalt
        (synced_startExchange ..)

/-- Every step that does not read past a datagram is one of the moves. -/
theorem move_of_progress (h : progress physics c e = some p) : Move physics c e p := by
  cases e with
  | establishConnection clientSalt env =>
    dsimp only [progress] at h
    split at h
    · rename_i result hphase
      obtain rfl := Option.some.inj h
      exact .requested clientSalt env result hphase
    · obtain rfl := Option.some.inj h
      exact .ignored _
  | syncClock env =>
    dsimp only [progress] at h
    split at h
    · rename_i result hphase
      obtain rfl := Option.some.inj h
      exact move_of_syncClock physics hphase
    · obtain rfl := Option.some.inj h
      exact .ignored _
  | executeGame env =>
    dsimp only [progress] at h
    split at h
    · rename_i result hphase
      obtain rfl := Option.some.inj h
      exact .began env result hphase
    · obtain rfl := Option.some.inj h
      exact .ignored _
  | receive received env =>
    dsimp only [progress] at h
    split at h
    · obtain rfl := Option.some.inj h
      exact .ignored _
    · obtain rfl := Option.some.inj h
      exact .ignored _
    · rename_i clientSalt hphase
      obtain ⟨handshake, hreceive, rfl⟩ := Option.map_eq_some_iff.mp h
      exact move_of_receiveChallenge physics hphase hreceive
    · rename_i clientSalt serverSalt hphase
      obtain ⟨handshake, hreceive, rfl⟩ := Option.map_eq_some_iff.mp h
      exact move_of_receiveAccepted physics hphase hreceive
    · rename_i sync hphase
      exact .synced received env sync p hphase (synced_receiveClockResponse h)
    · rename_i loop hphase
      obtain ⟨c', hc', rfl⟩ := Option.map_eq_some_iff.mp h
      exact .played received env loop _ c' hphase (updated_updateGame physics env loop c)
        (heard_of_receiveGame hc')
  | interrupt =>
    dsimp only [progress] at h
    split at h
    · rename_i loop hphase
      obtain rfl := Option.some.inj h
      exact .interrupted loop hphase
    · obtain rfl := Option.some.inj h
      exact .ignored _

end Program

section Messages

variable {c : Program} {p : Progress} {e : Event} {message : Address × Datagram}

theorem message_of_updated {env : Env} (h : Updated physics env c p) (hmem : message ∈ p.sent) :
    message.1 = c.serverAddr ∧ Message c e message.2 := by
  cases h with
  | early => exact absurd hmem List.not_mem_nil
  | due =>
    cases hpop : c.outgoingState.pop with
    | none =>
      simp only [sendGameState, hpop, List.not_mem_nil] at hmem
    | some popped =>
      obtain ⟨playerState, queue⟩ := popped
      obtain ⟨-, -, -, hsent⟩ := sendGameState_of_pop physics (later env 1) hpop
      simp only [hsent] at hmem
      split at hmem
      · obtain rfl := List.mem_singleton.mp hmem
        exact ⟨rfl, .frame (nextHeader c.toState) playerState rfl⟩
      · exact absurd hmem List.not_mem_nil

theorem mem_establishConnection {clientSalt : UInt64} {env : Env}
    (hmem : message ∈ (establishConnection clientSalt env c).sent) : env.sendOk = true ∧
      message = (c.serverAddr, paddedMessage .connectionRequest clientSalt) := by
  have hsent : message ∈ (requestConnection clientSalt env.sendOk c.toState).sent := hmem
  simp only [requestConnection, Client.send, toDatagram_connectionRequestPacket] at hsent
  split at hsent
  · next hsend => exact ⟨hsend, List.mem_singleton.mp hsent⟩
  · exact absurd hsent List.not_mem_nil

theorem phase_establishConnection (clientSalt : UInt64) (env : Env) (c : Program) :
    (establishConnection clientSalt env c).program.phase =
      if env.sendOk then .establishing (.awaitingChallenge clientSalt) else .returned 1 := by
  simp only [establishConnection, ofHandshake, requestConnection]
  by_cases hsend : env.sendOk = true
  · rw [if_pos hsend, if_pos hsend]
  · rw [if_neg hsend, if_neg hsend]

/-- Whatever a step sends goes to the server and is one of the messages. -/
theorem message_of_move (h : Move physics c e p) (hmem : message ∈ p.sent) :
    message.1 = c.serverAddr ∧ Message c e message.2 := by
  cases h with
  | ignored | failed | accepted | refused | began | interrupted =>
    exact absurd hmem List.not_mem_nil
  | requested clientSalt env result hphase =>
    obtain ⟨hsend, rfl⟩ := mem_establishConnection hmem
    exact ⟨rfl, .request clientSalt env rfl hsend⟩
  | challenged received env clientSalt serverSalt data hphase hreply hecho hserver =>
    obtain rfl := List.mem_singleton.mp hmem
    exact ⟨rfl, .response clientSalt serverSalt hphase⟩
  | started env result p hphase hconnected hsalt hsynced
  | synced received env sync p hphase hsynced =>
    cases hsynced with
    | waits offset sync =>
      obtain rfl := List.mem_singleton.mp hmem
      exact ⟨rfl, .clock _⟩
    | averaged | failed | lost => exact absurd hmem List.not_mem_nil
  | played received env loop update c' hphase hupdate hheard =>
    exact message_of_updated physics hupdate hmem

theorem typeField_paddedMessage (t : NetworkPacketType) (salt : UInt64) :
    typeField (paddedMessage t salt) = some t :=
  typeField_sealed t _

theorem typeField_farewellDatagram (salt : UInt64) :
    typeField (farewellDatagram salt) = some .disconnect :=
  typeField_sealed .disconnect _

/-- The type of a message is one of the four that the program sends in a call. -/
theorem Message.type {data : Datagram} (h : Message c e data) :
    typeField data = some .connectionRequest ∨ typeField data = some .challengeResponse ∨
      typeField data = some .clock ∨ typeField data = some .inputFrame := by
  cases h with
  | request clientSalt env he hsend => exact Or.inl (typeField_paddedMessage _ _)
  | response clientSalt serverSalt hphase => exact Or.inr (Or.inl (typeField_paddedMessage _ _))
  | clock sendNowEpoch => exact Or.inr (Or.inr (Or.inl (typeField_sealed .clock _)))
  | frame h playerState hsalt => exact Or.inr (Or.inr (Or.inr (typeField_sealed .inputFrame _)))

/-- A request carries the salt of its call, whose Send succeeded. -/
theorem Message.request_salt {data : Datagram} {salt : UInt64} (h : Message c e data)
    (hdata : Carries data .connectionRequest salt) :
    ∃ env, e = .establishConnection salt env ∧ env.sendOk = true := by
  have htype := typeField_of_carries hdata
  cases h with
  | request clientSalt env he hsend =>
    have hsame := saltField_of_carries (carries_paddedMessage .connectionRequest clientSalt)
    rw [saltField_of_carries hdata] at hsame
    exact ⟨env, hsame ▸ he, hsend⟩
  | response clientSalt serverSalt hphase =>
    cases (typeField_paddedMessage .challengeResponse _).symm.trans htype
  | clock sendNowEpoch => cases (typeField_sealed .clock _).symm.trans htype
  | frame h playerState hsalt => cases (typeField_sealed .inputFrame _).symm.trans htype

theorem mem_quitGame {sendOk : Bool} {c : State} (hmem : message ∈ quitGame sendOk c) :
    message = (c.serverAddr, farewellDatagram c.connectionSalt) := by
  unfold quitGame at hmem
  split at hmem
  · exact absurd hmem List.not_mem_nil
  · obtain ⟨sent, hsent, hmem⟩ := List.mem_flatten.mp hmem
    obtain rfl := List.eq_of_mem_replicate hsent
    unfold Client.send at hmem
    split at hmem
    · rw [← toDatagram_farewell]
      exact List.mem_singleton.mp hmem
    · exact absurd hmem List.not_mem_nil

theorem mem_serverQuitGame {env : Server.Env} {s : Server.State}
    (hmem : message ∈ Server.quitGame env s) :
    ∃ player ∈ s.players, message = (player.address, farewellDatagram player.connectionSalt) := by
  obtain ⟨player, hplayer, hmem⟩ := List.mem_flatMap.mp hmem
  obtain ⟨sent, hsent, hmem⟩ := List.mem_flatten.mp hmem
  obtain rfl := List.eq_of_mem_replicate hsent
  unfold Server.send at hmem
  split at hmem
  · refine ⟨player, hplayer, ?_⟩
    rw [← toDatagram_farewell]
    exact List.mem_singleton.mp hmem
  · exact absurd hmem List.not_mem_nil

/-- A frame changes the channel, the two queues and the snapshots. -/
theorem sendGameState_changes (env : Env) (c : State) :
    ∃ channel outgoingState gameStateSnapshot incomingStates,
      (sendGameState physics env c).state =
        { c with
          toChannel := channel
          outgoingState := outgoingState
          gameStateSnapshot := gameStateSnapshot
          incomingStates := incomingStates } := by
  unfold sendGameState
  split
  · exact ⟨_, _, _, _, rfl⟩
  · unfold clientSidePrediction
    dsimp only
    split
    · exact ⟨_, _, _, _, rfl⟩
    · exact ⟨_, _, _, _, rfl⟩

/-- A GAME_STATE changes the channel, the round trip time and the queue for the game. -/
theorem handleGameState_changes {env : Env} {c : State} {networkPacket : NetworkPacket}
    {o : Outcome} (h : handleGameState env c networkPacket = some o) :
    ∃ channel roundTripTimeMs incomingStates, o.state =
      { c with
        toChannel := channel
        roundTripTimeMs := roundTripTimeMs
        incomingStates := incomingStates } := by
  obtain ⟨⟨salt, p₁⟩, -, h⟩ := Option.bind_eq_some_iff.mp h
  dsimp only at h
  split at h
  · obtain rfl := Option.some.inj h
    exact ⟨_, _, _, rfl⟩
  · obtain ⟨⟨seqNum, p₂⟩, -, h⟩ := Option.bind_eq_some_iff.mp h
    obtain ⟨⟨ack, p₃⟩, -, h⟩ := Option.bind_eq_some_iff.mp h
    obtain ⟨⟨ackBits, p₄⟩, -, h⟩ := Option.bind_eq_some_iff.mp h
    obtain ⟨⟨playerStates, p₅⟩, -, h⟩ := Option.bind_eq_some_iff.mp h
    obtain rfl := Option.some.inj h
    exact ⟨_, _, _, rfl⟩

/-- The program never forgets which server it was started for. -/
theorem serverAddr_of_move (h : Move physics c e p) : p.program.serverAddr = c.serverAddr := by
  cases h with
  | failed received env attempt state hphase hstate =>
    rcases hstate with rfl | rfl <;> rfl
  | started env result p hphase hconnected hsalt hsynced
  | synced received env sync p hphase hsynced => cases hsynced <;> rfl
  | played received env loop update c' hphase hupdate hheard =>
    have hkept : update.program.serverAddr = c.serverAddr := by
      cases hupdate with
      | early => rfl
      | due =>
        obtain ⟨_, _, _, _, hstate⟩ := sendGameState_changes physics (later env 1) c.toState
        have hkept := congrArg State.serverAddr hstate
        exact hkept
    cases hheard with
    | kept | ended => exact hkept
    | handled loop data o hreply ho =>
      obtain ⟨_, _, _, hstate⟩ := handleGameState_changes ho
      exact (congrArg State.serverAddr hstate).trans hkept
  | _ => rfl

end Messages

section Session

variable {c : Program} {p : Progress} {e : Event} {clientSalt serverSalt : UInt64}

structure SameSession (c c' : State) : Prop where
  connectionState : c'.connectionState = c.connectionState
  clientSalt : c'.clientSalt = c.clientSalt
  serverSalt : c'.serverSalt = c.serverSalt
  connectionSalt : c'.connectionSalt = c.connectionSalt

theorem sameSession_of_updated {env : Env} (h : Updated physics env c p) :
    SameSession c.toState p.program.toState := by
  cases h with
  | early => exact ⟨rfl, rfl, rfl, rfl⟩
  | due =>
    obtain ⟨_, _, _, _, hstate⟩ := sendGameState_changes physics (later env 1) c.toState
    dsimp only
    rw [hstate]
    exact ⟨rfl, rfl, rfl, rfl⟩

theorem sameSession_of_heard {env : Env} {received : Received} {c' : Program}
    (h : Heard env received c c') :
    SameSession c.toState c'.toState := by
  cases h with
  | kept | ended => exact ⟨rfl, rfl, rfl, rfl⟩
  | handled loop data o hreply ho =>
    obtain ⟨_, _, _, hstate⟩ := handleGameState_changes ho
    dsimp only
    rw [hstate]
    exact ⟨rfl, rfl, rfl, rfl⟩

/-- A call waits for its acceptance since before, or since the challenge it now received. -/
theorem awaitingAccepted_of_move (h : Move physics c e p)
    (hphase : p.program.phase = .establishing (.awaitingAccepted clientSalt serverSalt)) :
    p = { program := c } ∨ ∃ received env data, e = .receive received env ∧
      Reply c.serverAddr .challenge received data ∧ saltField data = clientSalt ∧
      ∃ p', ((ofBytes data).advance 13).readUInt64 = some (serverSalt, p') := by
  cases h with
  | ignored e => exact Or.inl rfl
  | requested clientSalt' env result hphase' =>
    simp only [establishConnection, ofHandshake, requestConnection] at hphase
    cases hsend : env.sendOk <;> simp [hsend] at hphase
  | challenged received env clientSalt' serverSalt' data hphase' hreply hecho hserver =>
    cases hphase
    exact Or.inr ⟨received, env, data, rfl, hreply, hecho, hserver⟩
  | started env result p hphase' hconnected hsalt hsynced
  | synced received env sync p hphase' hsynced => cases hsynced <;> cases hphase
  | played received env loop update c' hphase' hupdate hheard => cases hheard <;> cases hphase
  | failed | accepted | refused | began | interrupted => cases hphase

/-- A connected program was connected with the same salts, or its call is accepted now. -/
theorem connected_of_move (h : Move physics c e p)
    (hconnected : p.program.connectionState = .connected) :
    SameSession c.toState p.program.toState ∨
      c.phase = .establishing (.awaitingAccepted p.program.clientSalt p.program.serverSalt) ∧
        p.program.connectionSalt = p.program.clientSalt ^^^ p.program.serverSalt := by
  cases h with
  | ignored e => exact Or.inl ⟨rfl, rfl, rfl, rfl⟩
  | requested clientSalt env result hphase => cases hconnected
  | failed received env attempt state hphase hstate =>
    rcases hstate with rfl | rfl
    · exact Or.inl ⟨rfl, rfl, rfl, rfl⟩
    · cases hconnected
  | challenged received env clientSalt serverSalt data hphase hreply hecho hserver =>
    exact Or.inl ⟨rfl, rfl, rfl, rfl⟩
  | accepted received env clientSalt serverSalt data playerID hphase hreply =>
    exact Or.inr ⟨hphase, rfl⟩
  | refused | began | interrupted => exact Or.inl ⟨rfl, rfl, rfl, rfl⟩
  | started env result p hphase hstate hsalt hsynced
  | synced received env sync p hphase hsynced =>
    cases hsynced with
    | waits | averaged | failed => exact Or.inl ⟨rfl, rfl, rfl, rfl⟩
    | lost offset => cases hconnected
  | played received env loop update c' hphase hupdate hheard =>
    have hupdated := sameSession_of_updated physics hupdate
    have hkept := sameSession_of_heard hheard
    exact Or.inl ⟨hkept.connectionState.trans hupdated.connectionState,
      hkept.clientSalt.trans hupdated.clientSalt, hkept.serverSalt.trans hupdated.serverSalt,
      hkept.connectionSalt.trans hupdated.connectionSalt⟩

end Session

end RocketGame.ClientTurns
