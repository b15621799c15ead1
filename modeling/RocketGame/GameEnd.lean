import RocketGame.GenuineSessions
import RocketGame.IdleShutdown

/-!
Why a client's game ends. The loop of ExecuteGame is left by the signal, by the twenty-first
silent interval, or by a DISCONNECT from the server, whose salt is not looked at. To a client
only QuitGame of the server sends a DISCONNECT, one to each of its records, and the server
handles nothing afterwards; no datagram lost, doubled or reordered ends a game.
-/
namespace RocketGame.GameEnd

open Client ClientProgram ClientSafety ClientTurns ConnectionOutcome DatagramSafety GameSystem
open HandshakeMessages IdleShutdown NetworkUtilities Packets PlayerStates Runs Server
open NetworkPacket (ofBytes)

def Ends (serverAddr : Address) (env : Client.Env) (loop : GameLoop) : Received → Prop
  | .timeout => milliseconds (env.clock 0 - loop.idle) ≥ 5000 ∧ loop.idleTime + 1 > 20
  | .failure => False
  | .packet sender data => Reply serverAddr .disconnect (.packet sender data) data

section Program

variable {physics : PhysicsEngine} {env : Client.Env} {loop : GameLoop} {received : Received}
  {c c' : Program}

theorem keepPlaying_ne_returned : (keepPlaying loop c).phase ≠ .returned 0 := nofun

theorem phase_receiveGame (h : receiveGame env loop received c = some c') :
    c'.phase = .returned 0 ↔ Ends c.serverAddr env loop received := by
  cases hearing_of_receiveGame h with
  | waited hwait => exact iff_of_false keepPlaying_ne_returned fun hends => hwait hends.1
  | counted hpassed hcount => exact iff_of_false keepPlaying_ne_returned fun hends => hcount hends.2
  | gaveUp hpassed hcount => exact iff_of_true rfl ⟨hpassed, hcount⟩
  | failed => exact iff_of_false keepPlaying_ne_returned id
  | discarded sender data hforeign =>
    refine iff_of_false keepPlaying_ne_returned fun hends => hforeign ⟨?_, hends.crc⟩
    exact (isSameAddress_iff _ _).mpr (Received.packet.inj hends.received).1
  | handled data o hreply ho =>
    refine iff_of_false keepPlaying_ne_returned fun hends => ?_
    cases hreply.type.symm.trans hends.type
  | ended data hreply => exact iff_of_true rfl hreply
  | ignored data hcrc htype =>
    exact iff_of_false keepPlaying_ne_returned fun hends => htype hends.type

/-- The update before the Receive has no part in it. -/
theorem phase_gameTurn {p : Progress} (h : gameTurn physics env loop received c = some p) :
    p.program.phase = .returned 0 ↔ Ends c.serverAddr (later env 2) loop received := by
  simp only [gameTurn] at h
  obtain ⟨c', hreceive, rfl⟩ := Option.map_eq_some_iff.mp h
  obtain ⟨hcount, hidle⟩ := updateGame_loop physics env loop c
  have haddr := (updateGame_kept physics env loop c).2
  have hphase := phase_receiveGame hreceive
  rw [haddr] at hphase
  refine hphase.trans ?_
  cases received with
  | timeout => rw [Ends, Ends, hcount, hidle]
  | failure => exact Iff.rfl
  | packet sender data => exact Iff.rfl

end Program

section System

variable {ι : Type} (d : Deployment ι)

structure Farewell (s : System ι) (packet : Packet) : Prop where
  stopped : s.serverRunning = false
  sender : packet.sender = d.serverAddr
  record : ∃ player ∈ s.server.players, player.address = packet.receiver ∧
    packet.data = farewellDatagram player.connectionSalt

structure Faithful (s : System ι) : Prop where
  serverAddr : ∀ i, (s.clients i).serverAddr = d.serverAddr
  disconnects : ∀ packet ∈ s.network, typeField packet.data = some .disconnect →
    packet.receiver = d.serverAddr ∨ Farewell d s packet

/-- What ends the game of a client that stands in this loop. -/
def EndsGame (s : System ι) (i : ι) (loop : GameLoop) : GameSystem.Event ι → Prop
  | .act j a => j = i ∧ (a = .interrupt ∨ ∃ env : Client.Env, a = .timeout env ∧
      milliseconds (env.clock 2 - loop.idle) ≥ 5000 ∧ loop.idleTime + 1 > 20)
  | .toClient j k _ => j = i ∧ s.serverRunning = false ∧
      ∃ player ∈ s.server.players, player.address = d.clientAddr i ∧
        s.network[k]? =
          some ⟨d.serverAddr, d.clientAddr i, farewellDatagram player.connectionSalt⟩
  | _ => False

theorem faithful_start : Faithful d (start d) where
  serverAddr _ := rfl
  disconnects _ h := absurd h List.not_mem_nil

variable {d} {s s' : System ι}

/-- No answer of the server is a DISCONNECT. -/
theorem Faithful.serve (h : Faithful d s) {packet : Packet} {env : Server.Env}
    {o : Server.Outcome} (hrunning : s.serverRunning = true)
    (hturn : Turns.Turn env s.server packet.data packet.sender o) :
    Faithful d (s.serve d o) where
  serverAddr := h.serverAddr
  disconnects := by
    intro packet' hpacket' htype
    rcases List.mem_append.mp hpacket' with hpacket' | hpacket'
    · refine (h.disconnects packet' hpacket' htype).imp_right fun hfarewell => ?_
      cases hrunning.symm.trans hfarewell.stopped
    · obtain ⟨-, hmessage⟩ := mem_post.mp hpacket'
      rcases (answer_of_turn hturn hmessage).type with h' | h' | h' | h' | ⟨h', -⟩ <;>
        cases h'.symm.trans htype

theorem Faithful.stop (h : Faithful d s) (env : Server.Env) :
    Faithful d { s with
      serverRunning := false
      network := s.network ++ post d.serverAddr (Server.quitGame env s.server) } where
  serverAddr := h.serverAddr
  disconnects := by
    intro packet hpacket htype
    rcases List.mem_append.mp hpacket with hpacket | hpacket
    · refine (h.disconnects packet hpacket htype).imp_right fun hfarewell => ?_
      exact ⟨rfl, hfarewell.sender, hfarewell.record⟩
    · obtain ⟨hsender, hmessage⟩ := mem_post.mp hpacket
      obtain ⟨player, hplayer, heq⟩ := mem_serverQuitGame hmessage
      obtain ⟨haddr, hdata⟩ := Prod.mk.inj heq
      exact Or.inr ⟨rfl, hsender, player, hplayer, haddr.symm, hdata⟩

/-- The client's own steps. -/
theorem phase_of_act {c : Program} {loop : GameLoop} {a : Action} {p : Progress}
    (hplaying : c.phase = .playing loop) (hp : progress d.physics c a.event = some p) :
    p.program.phase = .returned 0 ↔ a = .interrupt ∨ ∃ env : Client.Env, a = .timeout env ∧
      milliseconds (env.clock 2 - loop.idle) ≥ 5000 ∧ loop.idleTime + 1 > 20 := by
  have hplays : c.phase ≠ .returned 0 := hplaying ▸ nofun
  cases a with
  | establishConnection clientSalt env =>
    simp only [Action.event, progress, hplaying, Option.some.injEq] at hp
    subst hp
    exact iff_of_false hplays (by simp)
  | syncClock env =>
    simp only [Action.event, progress, hplaying, Option.some.injEq] at hp
    subst hp
    exact iff_of_false hplays (by simp)
  | executeGame env =>
    simp only [Action.event, progress, hplaying, Option.some.injEq] at hp
    subst hp
    exact iff_of_false hplays (by simp)
  | timeout env =>
    simp only [Action.event, progress, hplaying] at hp
    rw [phase_gameTurn hp]
    constructor
    · exact fun hends => Or.inr ⟨env, rfl, hends⟩
    · rintro (h | ⟨env', h, hends⟩)
      · cases h
      · cases h
        exact hends
  | failure env =>
    simp only [Action.event, progress, hplaying] at hp
    rw [phase_gameTurn hp]
    exact iff_of_false id (by simp)
  | interrupt =>
    simp only [Action.event, progress, hplaying, Option.some.injEq] at hp
    subst hp
    exact iff_of_true rfl (Or.inl rfl)

/-- What a datagram that ends a game must be. -/
theorem Faithful.farewell_iff (h : Faithful d s) {i : ι} {packet : Packet} {env : Client.Env}
    {loop : GameLoop} (hpacket : packet ∈ s.network)
    (hreceiver : packet.receiver = d.clientAddr i) :
    Ends d.serverAddr env loop (.packet packet.sender packet.data) ↔ s.serverRunning = false ∧
      ∃ player ∈ s.server.players, player.address = d.clientAddr i ∧
        packet = ⟨d.serverAddr, d.clientAddr i, farewellDatagram player.connectionSalt⟩ := by
  constructor
  · intro hends
    rcases h.disconnects packet hpacket hends.type with hserver | hfarewell
    · exact absurd (hreceiver.symm.trans hserver) (d.apart i)
    · obtain ⟨player, hplayer, haddr, hdata⟩ := hfarewell.record
      refine ⟨hfarewell.stopped, player, hplayer, haddr.trans hreceiver, ?_⟩
      rw [← hfarewell.sender, ← hreceiver, ← hdata]
  · rintro ⟨-, player, -, -, rfl⟩
    exact ⟨rfl, NetworkPacket.readAndValidateCRC_sealed _, typeField_farewellDatagram _⟩

variable [DecidableEq ι]

/-- A client sends its datagrams to the server. -/
theorem Faithful.proceed (h : Faithful d s) {i : ι} {p : Progress}
    (haddr : p.program.serverAddr = d.serverAddr)
    (hsent : ∀ message ∈ p.sent, message.1 = d.serverAddr) : Faithful d (s.proceed d i p) where
  serverAddr := proceed_clients d (P := fun _ c => c.serverAddr = d.serverAddr) h.serverAddr haddr
  disconnects := by
    intro packet hpacket htype
    rcases List.mem_append.mp hpacket with hpacket | hpacket
    · refine (h.disconnects packet hpacket htype).imp_right fun hfarewell => ?_
      exact ⟨hfarewell.stopped, hfarewell.sender, hfarewell.record⟩
    · exact Or.inl (hsent _ (mem_post.mp hpacket).2)

theorem running_of_step_toServer {k : ℕ} {env : Server.Env}
    (hs : step d s (.toServer k env) = some s') : s.serverRunning = true := by
  obtain ⟨packet, -, hs⟩ := Option.bind_eq_some_iff.mp hs
  split at hs
  · cases hs
  · next hguard => exact Bool.not_eq_false _ ▸ (not_or.mp hguard).2

theorem Faithful.step (h : Faithful d s) {e : GameSystem.Event ι} (hs : step d s e = some s') :
    Faithful d s' := by
  have hidle : ∀ message ∈ ([] : List (Address × Datagram)), message.1 = d.serverAddr :=
    fun _ hmessage => absurd hmessage List.not_mem_nil
  cases change_of_step d hs with
  | idle => exact h
  | moved i e cause p hmove hcaused =>
    refine h.proceed ((serverAddr_of_move d.physics hmove).trans (h.serverAddr i)) ?_
    intro message hmessage
    exact (message_of_move d.physics hmove hmessage).1.trans (h.serverAddr i)
  | served k packet env o hpacket hreceiver hturn =>
    exact h.serve (running_of_step_toServer hs) hturn
  | queued i playerState outgoingState => exact h.proceed (h.serverAddr i) hidle
  | shown i playerStates incomingStates hpop => exact h.proceed (h.serverAddr i) hidle
  | left i sendOk =>
    refine h.proceed (h.serverAddr i) fun message hmessage => ?_
    rw [mem_quitGame hmessage]
    exact h.serverAddr i
  | stopped env => exact h.stop env

/-- A client that keeps its phase, or another one, has not stopped playing. -/
theorem phase_proceed {i j : ι} {p : Progress} (hplays : (s.clients i).phase ≠ .returned 0)
    (hphase : p.program.phase = (s.clients j).phase) :
    ((s.proceed d j p).clients i).phase ≠ .returned 0 := by
  by_cases hj : i = j
  · subst hj
    rwa [proceed_clients_same, hphase]
  · rwa [proceed_clients_ne d hj]

theorem Faithful.phase_iff (h : Faithful d s) {i : ι} {loop : GameLoop} {e : GameSystem.Event ι}
    (hplaying : (s.clients i).phase = .playing loop) (hs : GameSystem.step d s e = some s') :
    (s'.clients i).phase = .returned 0 ↔ EndsGame d s i loop e := by
  have hplays : (s.clients i).phase ≠ .returned 0 := hplaying ▸ nofun
  cases e with
  | act j a =>
    obtain ⟨p, hp, rfl⟩ := Option.map_eq_some_iff.mp hs
    by_cases hj : j = i
    · subst hj
      rw [proceed_clients_same, phase_of_act hplaying hp]
      exact (and_iff_right rfl).symm
    · rw [proceed_clients_ne d (Ne.symm hj)]
      exact iff_of_false hplays fun hends => hj hends.1
  | toClient j k env =>
    obtain ⟨packet, hpacket, hs⟩ := Option.bind_eq_some_iff.mp hs
    split at hs
    · cases hs
    · next hreceiver =>
      obtain ⟨p, hp, rfl⟩ := Option.map_eq_some_iff.mp hs
      by_cases hj : j = i
      · subst hj
        simp only [progress, hplaying] at hp
        rw [proceed_clients_same, phase_gameTurn hp, h.serverAddr,
          h.farewell_iff (List.mem_of_getElem? hpacket) (not_not.mp hreceiver), EndsGame, hpacket]
        simp only [Option.some.injEq, true_and]
      · rw [proceed_clients_ne d (Ne.symm hj)]
        exact iff_of_false hplays fun hends => hj hends.1
  | toServer k env =>
    obtain ⟨packet, -, hs⟩ := Option.bind_eq_some_iff.mp hs
    split at hs
    · cases hs
    · obtain ⟨o, -, rfl⟩ := Option.map_eq_some_iff.mp hs
      exact iff_of_false hplays id
  | input j playerState =>
    obtain rfl := Option.some.inj hs
    exact iff_of_false (phase_proceed hplays rfl) id
  | update j =>
    refine iff_of_false ?_ id
    dsimp only [GameSystem.step] at hs
    split at hs
    · obtain rfl := Option.some.inj hs
      exact hplays
    · obtain rfl := Option.some.inj hs
      exact phase_proceed hplays rfl
  | quitGame j sendOk =>
    refine iff_of_false ?_ id
    dsimp only [GameSystem.step] at hs
    split at hs
    · obtain rfl := Option.some.inj hs
      exact phase_proceed hplays rfl
    · cases hs
  | stop env =>
    dsimp only [GameSystem.step] at hs
    split at hs
    · obtain rfl := Option.some.inj hs
      exact iff_of_false hplays id
    · cases hs

/-- In every run of the whole game, a step ends a client's game exactly when it is the signal,
the twenty-first silent interval, or the farewell of the server, which has quit then with a
record of the client's address. -/
theorem ends_iff {events : List (GameSystem.Event ι)} {i : ι} {loop : GameLoop}
    {e : GameSystem.Event ι} (hrun : run (step d) (start d) events = some s)
    (hplaying : (s.clients i).phase = .playing loop) (hs : step d s e = some s') :
    (s'.clients i).phase = .returned 0 ↔ EndsGame d s i loop e := by
  have hfaithful : Always (step d) (Faithful d) (start d) events :=
    always_of_preserved (faithful_start d) fun _ _ _ h hs => h.step hs
  exact (hfaithful.last hrun).phase_iff hplaying hs

end System

open GenuineSessions (oneClient)

/-- The server quits with the record of a request whose call has given up; its farewell ends
the game that the client plays without a connection. -/
theorem ends_iff_farewell :
    let events : List (GameSystem.Event Unit) :=
      [.act () (.establishConnection 5 {}), .toServer 0 { randomSalt := 6 }, .act () (.timeout {}),
        .act () (.executeGame {}), .stop {}]
    ∃ s s' loop, run (step oneClient) (start oneClient) events = some s ∧
      (s.clients ()).phase = .playing loop ∧ step oneClient s (.toClient () 2 {}) = some s' ∧
      EndsGame oneClient s () loop (.toClient () 2 {}) ∧ (s'.clients ()).phase = .returned 0 := by
  intro events
  have hturn : executeGameTurn { randomSalt := 6 } {} (paddedMessage .connectionRequest 5)
      (oneClient.clientAddr ()) = some _ :=
    executeGameTurn_connectionRequest (length_paddedMessage _ _) (carries_paddedMessage _ _)
  rw [← toDatagram_connectionRequestPacket] at hturn
  let s : System Unit := (start oneClient).proceed oneClient ()
    (establishConnection 5 {} ((start oneClient).clients ()))
  have hserved : GameSystem.step oneClient s (.toServer 0 { randomSalt := 6 }) = some _ :=
    step_toServer oneClient rfl rfl rfl hturn
  have hrun : run (GameSystem.step oneClient) (start oneClient) events = some _ :=
    run_cons_eq_some.mpr ⟨_, rfl, run_cons_eq_some.mpr ⟨_, hserved, rfl⟩⟩
  refine ⟨_, _, _, hrun, rfl, (Option.some_get ?_).symm, ?_,
    (ends_iff hrun rfl (Option.some_get _).symm).mpr ?_⟩
  · decide +kernel
  · exact ⟨rfl, rfl, _, List.mem_singleton_self _, rfl, rfl⟩
  · exact ⟨rfl, rfl, _, List.mem_singleton_self _, rfl, rfl⟩

end RocketGame.GameEnd
