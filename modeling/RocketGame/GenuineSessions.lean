import RocketGame.ConnectionExchange
import RocketGame.GameSystem

/-!
Where sessions come from, over any run of the whole game. Every record was made for
a request that the client at its address sent in a call of EstablishConnection, and
every connected client holds the two salts of a record the server made for its
address and for the salt of its own call.
-/
namespace RocketGame.GenuineSessions

open Client ClientProgram ClientTurns ConnectionExchange DatagramSafety FirstMatch GameSystem
open HandshakeMessages NetworkUtilities Packets PlayerTable Runs Server Turns
open ConnectionOutcome (Reply)

variable {ι : Type} (d : Deployment ι)

/-- In a call of EstablishConnection the client sent a request with the salt. -/
def Requested (events : List (GameSystem.Event ι)) (i : ι) (clientSalt : UInt64) : Prop :=
  ∃ env : Client.Env, env.sendOk = true ∧ .act i (.establishConnection clientSalt env) ∈ events

theorem Requested.mono {events events' : List (GameSystem.Event ι)} {i : ι} {clientSalt : UInt64}
    (h : Requested events i clientSalt) (hsub : events ⊆ events') :
    Requested events' i clientSalt := by
  obtain ⟨env, hsend, hcall⟩ := h
  exact ⟨env, hsend, hsub hcall⟩

/-- The record was made for a request of the client at its address, with a salt of the server. -/
structure Offered (events : List (GameSystem.Event ι)) (p : Player) : Prop where
  shared : p.connectionSalt = p.clientSalt ^^^ p.serverSalt
  requested : ∃ i, p.address = d.clientAddr i ∧ Requested events i p.clientSalt
  served : ∃ k env, .toServer k env ∈ events ∧ p.serverSalt = env.randomSalt

theorem Offered.mono {events events' : List (GameSystem.Event ι)} {p : Player}
    (h : Offered d events p) (hsub : events ⊆ events') : Offered d events' p := by
  obtain ⟨hshared, ⟨i, haddr, hrequested⟩, ⟨k, env, hserved, hsalt⟩⟩ := h
  exact ⟨hshared, ⟨i, haddr, hrequested.mono hsub⟩, ⟨k, env, hsub hserved, hsalt⟩⟩

theorem Offered.of_same {events : List (GameSystem.Event ι)} {p q : Player}
    (h : Offered d events p) (hsame : SameIdentity p q) : Offered d events q := by
  obtain ⟨hshared, hrequested, hserved⟩ := h
  rw [← hsame.clientSalt, ← hsame.serverSalt, ← hsame.connectionSalt] at hshared
  rw [← hsame.clientSalt, ← hsame.address] at hrequested
  rw [← hsame.serverSalt] at hserved
  exact ⟨hshared, hrequested, hserved⟩

/-- The server made a record with these salts for the client's address. -/
def Holds (s : System ι) (i : ι) (clientSalt serverSalt : UInt64) : Prop :=
  ∃ p ∈ s.issued, p.address = d.clientAddr i ∧ p.clientSalt = clientSalt ∧
    p.serverSalt = serverSalt

structure Genuine (events : List (GameSystem.Event ι)) (s : System ι) : Prop where
  requests : ∀ packet ∈ s.network, ∀ salt, Carries packet.data .connectionRequest salt →
    ∃ i, packet.sender = d.clientAddr i ∧ Requested events i salt
  challenges : ∀ packet ∈ s.network, typeField packet.data = some .challenge →
    ∃ p ∈ s.issued, packet.receiver = p.address ∧
      packet.data = challengeDatagram p.clientSalt p.serverSalt
  issued : ∀ p ∈ s.issued, Offered d events p
  records : ∀ p ∈ s.server.players, ∃ q ∈ s.issued, SameIdentity q p
  serverAddr : ∀ i, (s.clients i).serverAddr = d.serverAddr
  attempts : ∀ i clientSalt serverSalt,
    (s.clients i).phase = .establishing (.awaitingAccepted clientSalt serverSalt) →
    Holds d s i clientSalt serverSalt
  connected : ∀ i, (s.clients i).connectionState = .connected →
    Holds d s i (s.clients i).clientSalt (s.clients i).serverSalt ∧
      (s.clients i).connectionSalt = (s.clients i).clientSalt ^^^ (s.clients i).serverSalt

variable {d} {s : System ι} {events : List (GameSystem.Event ι)}

theorem Holds.mono {s' : System ι} {i : ι} {clientSalt serverSalt : UInt64}
    (h : Holds d s i clientSalt serverSalt) (hsub : s.issued ⊆ s'.issued) :
    Holds d s' i clientSalt serverSalt := by
  obtain ⟨p, hp, hp'⟩ := h
  exact ⟨p, hsub hp, hp'⟩

theorem genuine_start : Genuine d [] (start d) where
  requests := fun _ h => absurd h List.not_mem_nil
  challenges := fun _ h => absurd h List.not_mem_nil
  issued := fun _ h => absurd h List.not_mem_nil
  records := fun _ h => absurd h List.not_mem_nil
  serverAddr := fun _ => rfl
  attempts := by
    rintro i clientSalt serverSalt ⟨⟩
  connected := by
    rintro i ⟨⟩

structure Moved (d : Deployment ι) (events : List (GameSystem.Event ι)) (s : System ι) (i : ι)
    (p : Progress) : Prop where
  requests : ∀ message ∈ p.sent, ∀ salt, Carries message.2 .connectionRequest salt →
    Requested events i salt
  challenges : ∀ message ∈ p.sent, typeField message.2 ≠ some .challenge
  serverAddr : p.program.serverAddr = d.serverAddr
  attempt : ∀ clientSalt serverSalt,
    p.program.phase = .establishing (.awaitingAccepted clientSalt serverSalt) →
    Holds d s i clientSalt serverSalt
  connected : p.program.connectionState = .connected →
    Holds d s i p.program.clientSalt p.program.serverSalt ∧
      p.program.connectionSalt = p.program.clientSalt ^^^ p.program.serverSalt

/-- The server salt a client reads from a challenge of the server. -/
theorem holds_of_challenge {i : ι} {received : Received} {data : Datagram}
    {clientSalt serverSalt : UInt64} {p' : NetworkPacket} (h : Genuine d events s)
    (hdelivered : ∀ sender data, received = .packet sender data →
      ⟨sender, d.clientAddr i, data⟩ ∈ s.network)
    (hreply : Reply (s.clients i).serverAddr .challenge received data)
    (hecho : saltField data = clientSalt)
    (hserver : ((NetworkPacket.ofBytes data).advance 13).readUInt64 = some (serverSalt, p')) :
    Holds d s i clientSalt serverSalt := by
  obtain ⟨p, hp, haddr, hdata⟩ := h.challenges _ (hdelivered _ _ hreply.received) hreply.type
  have hreads := readsChallenge_challengeDatagram p.clientSalt p.serverSalt
  rw [← show data = _ from hdata] at hreads
  refine ⟨p, hp, haddr.symm, ?_, ?_⟩
  · rw [← hecho, saltField_of_carries ⟨hreads.crc, hreads.type, hreads.client⟩]
  · have hread := hreads.server.symm.trans hserver
    exact (Prod.mk.inj (Option.some.inj hread)).1

/-- A step that sends no handshake message and keeps the session and its call. -/
theorem moved_of_same {e : GameSystem.Event ι} {i : ι} {p : Progress} (h : Genuine d events s)
    (hsent : ∀ message ∈ p.sent, typeField message.2 = some .disconnect)
    (haddr : p.program.serverAddr = (s.clients i).serverAddr)
    (hphase : p.program.phase = (s.clients i).phase)
    (hsession : SameSession (s.clients i).toState p.program.toState) :
    Moved d (events ++ [e]) s i p where
  requests := fun message hmem salt hdata =>
    nomatch (hsent message hmem).symm.trans (typeField_of_carries hdata)
  challenges := fun message hmem htype => nomatch (hsent message hmem).symm.trans htype
  serverAddr := haddr.trans (h.serverAddr i)
  attempt := by
    rw [hphase]
    exact h.attempts i
  connected := by
    rw [hsession.connectionState, hsession.clientSalt, hsession.serverSalt,
      hsession.connectionSalt]
    exact h.connected i

theorem moved_of_move {e : GameSystem.Event ι} {i : ι} {cause : ClientProgram.Event}
    {p : Progress} (h : Genuine d events s) (hmove : Move d.physics (s.clients i) cause p)
    (hcaused : Caused d s i e cause) : Moved d (events ++ [e]) s i p where
  requests := by
    intro message hmem salt hdata
    obtain ⟨env, hcause, hsend⟩ := (message_of_move d.physics hmove hmem).2.request_salt hdata
    refine ⟨env, hsend, List.mem_append_right _ (List.mem_singleton.mpr ?_)⟩
    exact (hcaused.called _ _ hcause).symm
  challenges := by
    intro message hmem htype
    rcases (message_of_move d.physics hmove hmem).2.type with h | h | h | h <;>
      cases h.symm.trans htype
  serverAddr := (serverAddr_of_move d.physics hmove).trans (h.serverAddr i)
  attempt := by
    intro clientSalt serverSalt hphase
    rcases awaitingAccepted_of_move d.physics hmove hphase with
      rfl | ⟨received, env, data, rfl, hreply, hecho, p', hserver⟩
    · exact h.attempts i clientSalt serverSalt hphase
    · refine holds_of_challenge h (fun sender data hreceived => ?_) hreply hecho hserver
      exact hcaused.delivered sender data env (hreceived ▸ rfl)
  connected := by
    intro hconnected
    rcases connected_of_move d.physics hmove hconnected with hsession | ⟨hphase, hsalt⟩
    · have hbefore := h.connected i (hsession.connectionState.symm.trans hconnected)
      rwa [← hsession.clientSalt, ← hsession.serverSalt, ← hsession.connectionSalt] at hbefore
    · exact ⟨h.attempts i _ _ hphase, hsalt⟩

/-- A turn of the server keeps the invariant, and the records it appends join the history. -/
theorem genuine_serve {k : ℕ} {packet : Packet} {env : Server.Env} {o : Server.Outcome}
    (h : Genuine d events s) (hpacket : packet ∈ s.network)
    (hturn : Turn env s.server packet.data packet.sender o) :
    Genuine d (events ++ [.toServer k env]) (s.serve d o) := by
  have hissued : s.issued ⊆ (s.serve d o).issued := List.subset_append_left _ _
  have hsub : events ⊆ events ++ [.toServer k env] := List.subset_append_left _ _
  refine ⟨?_, ?_, ?_, ?_, h.serverAddr, ?_, ?_⟩
  · intro packet' hpacket' salt hdata
    rcases List.mem_append.mp hpacket' with hpacket' | hpacket'
    · obtain ⟨i, hsender, hrequested⟩ := h.requests packet' hpacket' salt hdata
      exact ⟨i, hsender, hrequested.mono hsub⟩
    · have htype := typeField_of_carries hdata
      rcases (answer_of_turn hturn (mem_post.mp hpacket').2).type with h | h | h | h | ⟨h, -⟩ <;>
        cases h.symm.trans htype
  · intro packet' hpacket' htype
    rcases List.mem_append.mp hpacket' with hpacket' | hpacket'
    · obtain ⟨p, hp, hchallenge⟩ := h.challenges packet' hpacket' htype
      exact ⟨p, hissued hp, hchallenge⟩
    · obtain ⟨p, hp, hchallenge⟩ :=
        challenge_of_answer (answer_of_turn hturn (mem_post.mp hpacket').2) htype
      exact ⟨p, List.mem_append_right _ hp, hchallenge⟩
  · intro p hp
    rcases List.mem_append.mp hp with hp | hp
    · exact (h.issued p hp).mono d hsub
    · rcases appended_of_turn hturn with hnone | ⟨clientSalt, hdata, happended⟩
      · rw [hnone] at hp
        exact absurd hp List.not_mem_nil
      · rw [happended] at hp
        obtain rfl := List.mem_singleton.mp hp
        obtain ⟨i, hsender, hrequested⟩ := h.requests packet hpacket clientSalt hdata
        exact ⟨rfl, ⟨i, hsender, hrequested.mono hsub⟩,
          ⟨k, env, List.mem_append_right _ (List.mem_singleton_self _), rfl⟩⟩
  · intro p hp
    rcases record_of_turn hturn hp with ⟨q, hq, hsame⟩ | hp
    · obtain ⟨q', hq', hsame'⟩ := h.records q hq
      exact ⟨q', hissued hq', sameIdentity_trans hsame' hsame⟩
    · exact ⟨p, List.mem_append_right _ hp, sameIdentity_refl p⟩
  · exact fun i clientSalt serverSalt hphase =>
      (h.attempts i clientSalt serverSalt hphase).mono hissued
  · exact fun i hconnected => (h.connected i hconnected).imp_left fun hold => hold.mono hissued

variable [DecidableEq ι]

theorem genuine_proceed {e : GameSystem.Event ι} {i : ι} {p : Progress} (h : Genuine d events s)
    (hmoved : Moved d (events ++ [e]) s i p) : Genuine d (events ++ [e]) (s.proceed d i p) where
  requests := by
    intro packet hpacket salt hdata
    rcases List.mem_append.mp hpacket with hpacket | hpacket
    · obtain ⟨j, hsender, hrequested⟩ := h.requests packet hpacket salt hdata
      exact ⟨j, hsender, hrequested.mono (List.subset_append_left _ _)⟩
    · obtain ⟨hsender, hmessage⟩ := mem_post.mp hpacket
      exact ⟨i, hsender, hmoved.requests _ hmessage salt hdata⟩
  challenges := by
    intro packet hpacket htype
    rcases List.mem_append.mp hpacket with hpacket | hpacket
    · exact h.challenges packet hpacket htype
    · exact absurd htype (hmoved.challenges _ (mem_post.mp hpacket).2)
  issued := fun p hp => (h.issued p hp).mono d (List.subset_append_left _ _)
  records := h.records
  serverAddr := proceed_clients d (P := fun _ c => c.serverAddr = d.serverAddr) h.serverAddr
    hmoved.serverAddr
  attempts := proceed_clients d (P := fun j c => ∀ clientSalt serverSalt,
    c.phase = .establishing (.awaitingAccepted clientSalt serverSalt) →
      Holds d s j clientSalt serverSalt) h.attempts hmoved.attempt
  connected := proceed_clients d (P := fun j c => c.connectionState = .connected →
    Holds d s j c.clientSalt c.serverSalt ∧ c.connectionSalt = c.clientSalt ^^^ c.serverSalt)
    h.connected hmoved.connected

theorem genuine_of_change {s' : System ι} {e : GameSystem.Event ι} (h : Genuine d events s)
    (hchange : Change d s e s') : Genuine d (events ++ [e]) s' := by
  have hsame : ∀ i, SameSession (s.clients i).toState (s.clients i).toState :=
    fun _ => ⟨rfl, rfl, rfl, rfl⟩
  cases hchange with
  | idle e =>
    refine ⟨fun packet hpacket salt hdata => ?_, h.challenges, fun p hp => ?_, h.records,
      h.serverAddr, h.attempts, h.connected⟩
    · obtain ⟨i, hsender, hrequested⟩ := h.requests packet hpacket salt hdata
      exact ⟨i, hsender, hrequested.mono (List.subset_append_left _ _)⟩
    · exact (h.issued p hp).mono d (List.subset_append_left _ _)
  | moved i e cause p hmove hcaused => exact genuine_proceed h (moved_of_move h hmove hcaused)
  | served k packet env o hpacket hreceiver hturn => exact genuine_serve h hpacket hturn
  | queued i playerState outgoingState =>
    exact genuine_proceed h (moved_of_same h (fun _ hmem => absurd hmem List.not_mem_nil) rfl rfl
      ⟨rfl, rfl, rfl, rfl⟩)
  | shown i playerStates incomingStates hpop =>
    exact genuine_proceed h (moved_of_same h (fun _ hmem => absurd hmem List.not_mem_nil) rfl rfl
      ⟨rfl, rfl, rfl, rfl⟩)
  | left i sendOk =>
    refine genuine_proceed h (moved_of_same h (fun message hmem => ?_) rfl rfl (hsame i))
    rw [mem_quitGame hmem, typeField_farewellDatagram]
  | stopped env =>
    refine ⟨fun packet hpacket salt hdata => ?_, fun packet hpacket htype => ?_, fun p hp => ?_,
      h.records, h.serverAddr, h.attempts, h.connected⟩
    · rcases List.mem_append.mp hpacket with hpacket | hpacket
      · obtain ⟨i, hsender, hrequested⟩ := h.requests packet hpacket salt hdata
        exact ⟨i, hsender, hrequested.mono (List.subset_append_left _ _)⟩
      · obtain ⟨player, -, heq⟩ := mem_serverQuitGame (mem_post.mp hpacket).2
        have htype := typeField_of_carries hdata
        rw [(Prod.mk.inj heq).2, typeField_farewellDatagram] at htype
        cases htype
    · rcases List.mem_append.mp hpacket with hpacket | hpacket
      · exact h.challenges packet hpacket htype
      · obtain ⟨player, -, heq⟩ := mem_serverQuitGame (mem_post.mp hpacket).2
        rw [(Prod.mk.inj heq).2, typeField_farewellDatagram] at htype
        cases htype
    · exact (h.issued p hp).mono d (List.subset_append_left _ _)

/-- The invariant of every run. -/
theorem genuine_run (h : run (step d) (start d) events = some s) : Genuine d events s :=
  run_history (J := fun events s => Genuine d events s) genuine_start
    (fun _ _ _ _ _ hgenuine hstep => genuine_of_change hgenuine (change_of_step d hstep)) h

/-- Every record of the server continues one it made for a request that the client at its
address sent, and a connected client holds the salts of a record that was made for it. -/
theorem sessions_genuine (h : run (step d) (start d) events = some s) :
    (∀ p ∈ s.server.players, Offered d events p ∧ ∃ q ∈ s.issued, SameIdentity q p) ∧
      ∀ i, (s.clients i).connectionState = .connected →
        ∃ p ∈ s.issued, Offered d events p ∧ p.address = d.clientAddr i ∧
          p.clientSalt = (s.clients i).clientSalt ∧ p.serverSalt = (s.clients i).serverSalt ∧
          p.connectionSalt = (s.clients i).connectionSalt := by
  have hgenuine := genuine_run h
  constructor
  · intro p hp
    obtain ⟨q, hq, hsame⟩ := hgenuine.records p hp
    exact ⟨(hgenuine.issued q hq).of_same d hsame, q, hq, hsame⟩
  · intro i hconnected
    obtain ⟨⟨p, hp, haddr, hclient, hserver⟩, hsalt⟩ := hgenuine.connected i hconnected
    have hoffered := hgenuine.issued p hp
    refine ⟨p, hp, hoffered, haddr, hclient, hserver, ?_⟩
    rw [hoffered.shared, hclient, hserver, hsalt]

section Witness

def oneClient : Deployment Unit where
  physics := .resting
  serverAddr := ⟨2, 9, 3501⟩
  clientAddr _ := ⟨2, 9, 4000⟩
  injective := Function.injective_of_subsingleton _
  apart _ := by decide

def handshake : List (GameSystem.Event Unit) :=
  [.act () (.establishConnection 5 {}), .toServer 0 { randomSalt := 6 }, .toClient () 1 {},
    .toServer 2 {}, .toClient () 3 {}]

theorem progress_request {c : Program} {result : ℤ} (clientSalt : UInt64)
    (hphase : c.phase = .returned result) (physics : PhysicsEngine) :
    progress physics c (.establishConnection clientSalt {}) =
      some { program :=
               { c with
                 toState := connecting c.toState
                 phase := .establishing (.awaitingChallenge clientSalt) }
             sent := [(c.serverAddr, paddedMessage .connectionRequest clientSalt)] } := by
  have hrequest := requestConnection_ok clientSalt c.toState
  simp only [progress, hphase, establishConnection, hrequest, ofHandshake]

theorem progress_challenge {c : Program} {clientSalt : UInt64} (serverSalt : UInt64)
    (hphase : c.phase = .establishing (.awaitingChallenge clientSalt)) (physics : PhysicsEngine) :
    progress physics c (.receive
        (.packet c.serverAddr (challengeDatagram clientSalt serverSalt)) {}) =
      some { program :=
               { c with phase := .establishing (.awaitingAccepted clientSalt serverSalt) }
             sent := [(c.serverAddr,
               paddedMessage .challengeResponse (clientSalt ^^^ serverSalt))] } := by
  have hreceive :=
    receiveChallenge_ok (readsChallenge_challengeDatagram clientSalt serverSalt) c.toState
  simp only [progress, hphase, hreceive, Option.map_some, ofHandshake]

theorem progress_accepted {c : Program} {clientSalt serverSalt : UInt64} (playerID : UInt8)
    (hphase : c.phase = .establishing (.awaitingAccepted clientSalt serverSalt))
    (physics : PhysicsEngine) :
    progress physics c (.receive (.packet c.serverAddr (acceptedDatagram playerID)) {}) =
      some { program :=
               { c with
                 toState := ConnectionExchange.connected clientSalt serverSalt 0 c.toState
                 phase := .returned 0 } } := by
  have hreceive := receiveAccepted_ok (readsAccepted_acceptedDatagram playerID) clientSalt
    serverSalt c.toState
  simp only [progress, hphase, hreceive, Option.map_some, ofHandshake]
  rfl

theorem run_handshake : ∃ s, run (GameSystem.step oneClient) (start oneClient) handshake = some s ∧
    s.server.players ≠ [] ∧ (s.clients ()).connectionState = .connected := by
  have hturn₁ : executeGameTurn { randomSalt := 6 } {} (paddedMessage .connectionRequest 5)
      (oneClient.clientAddr ()) = some _ :=
    executeGameTurn_connectionRequest (length_paddedMessage _ _) (carries_paddedMessage _ _)
  let player : Player := newPlayer { randomSalt := 6 } [] 5 (oneClient.clientAddr ())
  have hlocate : locate (fromAddress (oneClient.clientAddr ())) [player] =
      some ([], player, []) := by decide
  have hturn₂ : executeGameTurn {} ⟨[player]⟩ (paddedMessage .challengeResponse (5 ^^^ 6))
      (oneClient.clientAddr ()) = some _ :=
    (executeGameTurn_challengeResponse (length_paddedMessage _ _) (carries_paddedMessage _ _) rfl
      hlocate).trans (congrArg some (if_pos rfl))
  have hcall : GameSystem.step oneClient (start oneClient) (.act () (.establishConnection 5 {})) =
      some _ :=
    congrArg (Option.map ((start oneClient).proceed oneClient ()))
      (progress_request (c := (start oneClient).clients ()) 5 rfl oneClient.physics)
  have hrun : run (GameSystem.step oneClient) (start oneClient) handshake = some _ :=
    run_step hcall
      (run_step (step_toServer oneClient rfl rfl rfl hturn₁)
      (run_step (step_toClient oneClient rfl rfl (progress_challenge 6 rfl oneClient.physics))
      (run_step (step_toServer oneClient rfl rfl rfl hturn₂)
      (run_step (step_toClient oneClient rfl rfl (progress_accepted 1 rfl oneClient.physics))
        rfl))))
  exact ⟨_, hrun, List.cons_ne_nil _ _, rfl⟩

/-- After the handshake the client holds the salts of the record. -/
theorem sessions_genuine_handshake : ∃ s,
    run (GameSystem.step oneClient) (start oneClient) handshake = some s ∧
      s.server.players ≠ [] ∧ (s.clients ()).connectionState = .connected ∧
      ((∀ p ∈ s.server.players,
          Offered oneClient handshake p ∧ ∃ q ∈ s.issued, SameIdentity q p) ∧
        ∀ i, (s.clients i).connectionState = .connected →
          ∃ p ∈ s.issued, Offered oneClient handshake p ∧ p.address = oneClient.clientAddr i ∧
            p.clientSalt = (s.clients i).clientSalt ∧ p.serverSalt = (s.clients i).serverSalt ∧
            p.connectionSalt = (s.clients i).connectionSalt) := by
  obtain ⟨s, hrun, hplayers, hconnected⟩ := run_handshake
  exact ⟨s, hrun, hplayers, hconnected, sessions_genuine hrun⟩

end Witness

end RocketGame.GenuineSessions
