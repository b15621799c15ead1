import RocketGame.ClientIsolation
import RocketGame.ConnectionOutcome
import RocketGame.HandshakeNetwork

/-!
Does a connected client have the agreement of the server? The challenge is matched
to the call by the salt it repeats, the acceptance by nothing. In the runs in which
an acceptance arrives only during the call it answers, a connected client's salt
has been accepted by the server; one delayed acceptance is enough to break that.
-/
namespace RocketGame.HandshakeAgreement

open Client (Attempt Handshake Received disconnected receiveAccepted receiveChallenge
  requestConnection)
open ClientIsolation ConnectionExchange DatagramSafety FirstMatch GameMessages HandshakeMessages
open ConnectionOutcome (receiveAccepted_outcome receiveChallenge_outcome)
open HandshakeNetwork NetworkUtilities Packets PlayerTable Runs Turns
open Server hiding Event step
open NetworkPacket (ofBytes sealed)

structure Accepts (addr : Address) (salt : UInt64) (turn : ServerTurn) : Prop where
  response : Carries turn.data .challengeResponse salt
  connected : ∃ p ∈ turn.outcome.state.players, p.address = addr ∧ p.connectionSalt = salt ∧
    p.connectionState = .connected
  answered : ∃ playerID, (addr, acceptedDatagram playerID) ∈ turn.outcome.sent

/-- A connected client has a salt that the server has accepted. -/
def Agreed (addr : Address) (s : System) : Prop :=
  s.client.connectionState = .connected →
    ∃ turn ∈ s.turns, Accepts addr s.client.connectionSalt turn

/-- An acceptance handed to a client that waits for one answers the call it waits in. -/
def AcceptanceIsCurrent (s : System) : Event → Prop
  | .toClient k _ => ∀ sent, s.toClient[k]? = some sent →
      typeField sent.data = some .connectionAccepted →
      (∃ clientSalt serverSalt, s.attempt = .awaitingAccepted clientSalt serverSalt) →
      sent.call = s.call
  | _ => True

section Client

variable {c : Client.State} {h : Handshake}

/-- The first Receive ends the call or sends the response to the challenge. -/
theorem receiveChallenge_cases {clientSalt : UInt64} {sendOk : Bool} {received : Received}
    (hreceive : receiveChallenge clientSalt sendOk received c = some h) :
    (h.sent = [] ∧ h.attempt = .returned 1 ∧
        (h.state = c ∨ h.state.connectionState = .disconnected)) ∨
      ∃ serverSalt, h =
        { state := c
          sent := [(c.serverAddr, paddedMessage .challengeResponse (clientSalt ^^^ serverSalt))]
          attempt := .awaitingAccepted clientSalt serverSalt } := by
  rcases receiveChallenge_outcome hreceive with (rfl | rfl) | ⟨data, serverSalt, -, -, rfl⟩
  · exact Or.inl ⟨rfl, rfl, Or.inl rfl⟩
  · exact Or.inl ⟨rfl, rfl, Or.inr rfl⟩
  · exact Or.inr ⟨serverSalt, rfl⟩

/-- The second Receive ends the call, connected only by an acceptance. -/
theorem receiveAccepted_cases {clientSalt serverSalt : UInt64} {received : Received}
    (hreceive : receiveAccepted clientSalt serverSalt received c = some h) :
    h = disconnected c ∨ ∃ sender data playerID, received = .packet sender data ∧
      typeField data = some .connectionAccepted ∧
      h = { state := connected clientSalt serverSalt playerID c, attempt := .returned 0 } := by
  rcases receiveAccepted_outcome hreceive with rfl | ⟨data, playerID, hreply, rfl⟩
  · exact Or.inl rfl
  · exact Or.inr ⟨c.serverAddr, data, playerID, hreply.received, hreply.type, rfl⟩

end Client

section ServerTurn

variable {env : Env} {s : State} {data reply : Datagram} {addr addr' : Address} {o : Outcome}

theorem mem_answer (h : (addr', reply) ∈ answer env addr data) : addr' = addr ∧ reply = data := by
  unfold answer at h
  split at h
  · exact Prod.mk.inj (List.mem_singleton.mp h)
  · cases h

/-- A turn that answers with an acceptance has accepted a response. -/
theorem accepts_of_turn (h : Turn env s data addr o) (hmem : (addr', reply) ∈ o.sent)
    (hreply : typeField reply = some .connectionAccepted) :
    ∃ salt, Accepts addr salt ⟨data, o⟩ := by
  have hother : ∀ {t : NetworkPacketType} {rest : List UInt8} {a : Address},
      (addr', reply) ∈ answer env a (sealed (t.toInt8.toUInt8 :: rest)) →
      t = .connectionAccepted := by
    intro t rest a hanswer
    obtain ⟨_, rfl⟩ := mem_answer hanswer
    rw [typeField_sealed, Option.some.injEq] at hreply
    exact hreply
  cases h with
  | dropped => cases hmem
  | requested clientSalt hsize hdata => cases hother hmem
  | unknown t salt hdata => cases hmem
  | accepted salt before after player hsize hdata hlocate hsalt =>
    obtain ⟨rfl, rfl⟩ := mem_answer hmem
    obtain ⟨_, haddr, _⟩ := locate_eq_some.mp hlocate
    refine ⟨salt, hdata, ⟨{ player with connectionState := .connected }, ?_, ?_⟩, _, hmem⟩
    · exact List.mem_append_right _ List.mem_cons_self
    · exact ⟨fromAddress_iff.mp haddr, hsalt, rfl⟩
  | denied salt before after player hsize hdata hlocate hsalt => cases hother hmem
  | synced salt clientTime before after player hdata hlocate => cases hother hmem
  | played h keyboard before after player hdata hlocate => cases hother hmem
  | ended salt hdata => cases hmem

end ServerTurn

/-- The salt of a response sent in a call that stands here: one is sent after the
challenge, and it carries the salt the client will take over. -/
def ResponseOf : Attempt → UInt64 → Prop
  | .awaitingChallenge _, _ => False
  | .awaitingAccepted clientSalt serverSalt, salt => salt = clientSalt ^^^ serverSalt
  | .returned _, _ => True

structure Inv (addr : Address) (s : System) : Prop where
  agreed : Agreed addr s
  calls : ∀ sent ∈ s.toServer, sent.call ≤ s.call
  responses : ∀ sent ∈ s.toServer, sent.call = s.call →
    ∀ salt, Carries sent.data .challengeResponse salt → ResponseOf s.attempt salt
  answers : ∀ reply ∈ s.toClient, typeField reply.data = some .connectionAccepted →
    ∃ salt, (∃ turn ∈ s.turns, Accepts addr salt turn) ∧
      ∃ sent ∈ s.toServer, sent.call = reply.call ∧ Carries sent.data .challengeResponse salt

section Invariant

variable {addr : Address} {s s' : System}

theorem inv_initial (h : Initial s) : Inv addr s := by
  constructor
  · exact fun hconnected => absurd hconnected h.disconnected
  · rw [h.toServer]
    exact List.forall_mem_nil _
  · rw [h.toServer]
    exact List.forall_mem_nil _
  · rw [h.toClient]
    exact List.forall_mem_nil _

theorem mem_requestConnection {clientSalt : UInt64} {sendOk : Bool} {c : Client.State}
    {message : Address × Datagram}
    (h : message ∈ (requestConnection clientSalt sendOk c).sent) :
    message.2 = paddedMessage .connectionRequest clientSalt := by
  simp only [requestConnection, Client.send, toDatagram_connectionRequestPacket] at h
  split at h
  · rw [List.mem_singleton.mp h]
  · cases h

/-- A request is no response. -/
theorem not_response {data : Datagram} {clientSalt salt : UInt64}
    (h : data = paddedMessage .connectionRequest clientSalt) :
    ¬ Carries data .challengeResponse salt := by
  intro hdata
  have htype := typeField_of_carries hdata
  rw [h, typeField_of_carries (carries_paddedMessage .connectionRequest clientSalt)] at htype
  cases htype

/-- A new call makes all earlier datagrams those of earlier calls. -/
theorem inv_establishConnection (hI : Inv addr s) (clientSalt : UInt64) (sendOk : Bool) :
    Inv addr (System.proceed { s with clientSalts := s.clientSalts ++ [clientSalt] }
      (requestConnection clientSalt sendOk s.client)) := by
  have hcall : (s.clientSalts ++ [clientSalt]).length = s.call + 1 := List.length_append
  constructor
  · intro hconnected
    cases hconnected
  · intro sent hsent
    rcases List.mem_append.mp hsent with hold | hnew
    · have hle := hI.calls sent hold
      change sent.call ≤ (s.clientSalts ++ [clientSalt]).length
      omega
    · obtain ⟨message, _, rfl⟩ := List.mem_map.mp hnew
      exact Nat.le_refl _
  · intro sent hsent hcurrent salt hdata
    rcases List.mem_append.mp hsent with hold | hnew
    · have hle := hI.calls sent hold
      have hcurrent' : sent.call = s.call + 1 := hcurrent.trans hcall
      omega
    · obtain ⟨message, hmessage, rfl⟩ := List.mem_map.mp hnew
      exact absurd hdata (not_response (mem_requestConnection hmessage))
  · intro reply hreply htype
    obtain ⟨salt, hturn, sent, hsent, hrest⟩ := hI.answers reply hreply htype
    exact ⟨salt, hturn, sent, List.mem_append_left _ hsent, hrest⟩

/-- A call that returns sends nothing more. -/
theorem inv_return {h : Handshake} {result : ℤ} (hI : Inv addr s) (hsent : h.sent = [])
    (hattempt : h.attempt = .returned result) (hagreed : Agreed addr (s.proceed h)) :
    Inv addr (s.proceed h) := by
  have htoServer : (s.proceed h).toServer = s.toServer := by
    rw [System.proceed, hsent, List.map_nil, List.append_nil]
  constructor
  · exact hagreed
  · rw [htoServer]
    exact hI.calls
  · intro sent _ _ salt _
    change ResponseOf h.attempt salt
    rw [hattempt]
    exact True.intro
  · rw [htoServer]
    exact hI.answers

theorem inv_receiveChallenge {clientSalt : UInt64} {sendOk : Bool} {received : Received}
    {h : Handshake} (hI : Inv addr s) (hattempt : s.attempt = .awaitingChallenge clientSalt)
    (hreceive : receiveChallenge clientSalt sendOk received s.client = some h) :
    Inv addr (s.proceed h) := by
  rcases receiveChallenge_cases hreceive with ⟨hsent, hreturned, hstate⟩ | ⟨serverSalt, rfl⟩
  · refine inv_return hI hsent hreturned fun hconnected => ?_
    change h.state.connectionState = .connected at hconnected
    change ∃ turn ∈ s.turns, Accepts addr h.state.connectionSalt turn
    rcases hstate with hsame | hdisconnected
    · rw [hsame] at hconnected ⊢
      exact hI.agreed hconnected
    · rw [hdisconnected] at hconnected
      cases hconnected
  · constructor
    · exact hI.agreed
    · intro sent hsent
      rcases List.mem_append.mp hsent with hold | hnew
      · exact hI.calls sent hold
      · obtain rfl := List.mem_singleton.mp hnew
        exact Nat.le_refl _
    · intro sent hsent hcurrent salt hdata
      rcases List.mem_append.mp hsent with hold | hnew
      · have hearlier := hI.responses sent hold hcurrent salt hdata
        rw [hattempt] at hearlier
        exact hearlier.elim
      · obtain rfl := List.mem_singleton.mp hnew
        exact (saltField_of_carries hdata).symm.trans
          (saltField_of_carries (carries_paddedMessage _ _))
    · intro reply hreply htype
      obtain ⟨salt, hturn, sent, hsent, hrest⟩ := hI.answers reply hreply htype
      exact ⟨salt, hturn, sent, List.mem_append_left _ hsent, hrest⟩

/-- The client takes over the salt of its own response, and a current acceptance
answers that response. -/
theorem inv_receiveAccepted {clientSalt serverSalt : UInt64} {received : Received}
    {h : Handshake} (hI : Inv addr s)
    (hattempt : s.attempt = .awaitingAccepted clientSalt serverSalt)
    (hcurrent : ∀ sender data, received = .packet sender data →
      typeField data = some .connectionAccepted →
      ∃ reply ∈ s.toClient, reply.data = data ∧ reply.call = s.call)
    (hreceive : receiveAccepted clientSalt serverSalt received s.client = some h) :
    Inv addr (s.proceed h) := by
  rcases receiveAccepted_cases hreceive with rfl | ⟨sender, data, playerID, rfl, htype, rfl⟩
  · refine inv_return hI rfl rfl fun hconnected => ?_
    cases hconnected
  · refine inv_return hI rfl rfl fun _ => ?_
    obtain ⟨reply, hreply, rfl, hcall⟩ := hcurrent sender data rfl htype
    obtain ⟨salt, hturn, sent, hsent, hsame, hdata⟩ := hI.answers reply hreply htype
    have hsalt := hI.responses sent hsent (hsame.trans hcall) salt hdata
    rw [hattempt] at hsalt
    obtain rfl : salt = clientSalt ^^^ serverSalt := hsalt
    exact hturn

theorem inv_serve {sent : Sent} {env : Env} {o : Outcome} (hI : Inv addr s)
    (hsent : sent ∈ s.toServer)
    (h : executeGameTurn env s.server sent.data addr = some o) :
    Inv addr (s.serve addr sent o) := by
  constructor
  · intro hconnected
    obtain ⟨turn, hturn, haccepts⟩ := hI.agreed hconnected
    exact ⟨turn, List.mem_append_left _ hturn, haccepts⟩
  · exact hI.calls
  · exact hI.responses
  · intro reply hreply htype
    rcases List.mem_append.mp hreply with hold | hnew
    · obtain ⟨salt, ⟨turn, hturn, haccepts⟩, hrest⟩ := hI.answers reply hold htype
      exact ⟨salt, ⟨turn, List.mem_append_left _ hturn, haccepts⟩, hrest⟩
    · obtain ⟨message, hmessage, rfl⟩ := List.mem_map.mp hnew
      have hmem := (List.mem_filter.mp hmessage).1
      obtain ⟨salt, haccepts⟩ := accepts_of_turn (turn_of_executeGameTurn h) hmem htype
      refine ⟨salt, ⟨⟨sent.data, o⟩, ?_, haccepts⟩, sent, hsent, rfl, haccepts.response⟩
      exact List.mem_append_right _ (List.mem_singleton_self _)

theorem inv_receive {sendOk : Bool} {received : Received} (hI : Inv addr s)
    (hcurrent : ∀ sender data, received = .packet sender data →
      typeField data = some .connectionAccepted →
      (∃ clientSalt serverSalt, s.attempt = .awaitingAccepted clientSalt serverSalt) →
      ∃ reply ∈ s.toClient, reply.data = data ∧ reply.call = s.call)
    (h : s.receive sendOk received = some s') : Inv addr s' := by
  unfold System.receive at h
  split at h
  · rename_i clientSalt hattempt
    obtain ⟨handshake, hreceive, rfl⟩ := Option.map_eq_some_iff.mp h
    exact inv_receiveChallenge hI hattempt hreceive
  · rename_i clientSalt serverSalt hattempt
    obtain ⟨handshake, hreceive, rfl⟩ := Option.map_eq_some_iff.mp h
    refine inv_receiveAccepted hI hattempt (fun sender data hpacket htype => ?_) hreceive
    exact hcurrent sender data hpacket htype ⟨clientSalt, serverSalt, hattempt⟩
  · cases h

theorem inv_step {e : Event} (hI : Inv addr s) (hC : AcceptanceIsCurrent s e)
    (h : step addr s e = some s') : Inv addr s' := by
  cases e with
  | establishConnection clientSalt sendOk =>
    simp only [step] at h
    split at h
    · split at h
      · cases h
      · obtain rfl := Option.some.inj h
        exact inv_establishConnection hI clientSalt sendOk
    · cases h
  | toServer k env =>
    obtain ⟨sent, hsent, h⟩ := Option.bind_eq_some_iff.mp h
    obtain ⟨o, ho, h⟩ := Option.bind_eq_some_iff.mp h
    obtain rfl := Option.some.inj h
    exact inv_serve hI (List.mem_of_getElem? hsent) ho
  | toClient k sendOk =>
    obtain ⟨reply, hreply, h⟩ := Option.bind_eq_some_iff.mp h
    refine inv_receive hI ?_ h
    intro sender data hpacket htype hawaiting
    obtain ⟨rfl, rfl⟩ := Received.packet.inj hpacket
    exact ⟨reply, List.mem_of_getElem? hreply, rfl, hC reply hreply htype hawaiting⟩
  | timeout =>
    refine inv_receive hI (fun sender data hpacket => ?_) h
    cases hpacket
  | failure =>
    refine inv_receive hI (fun sender data hpacket => ?_) h
    cases hpacket

end Invariant

/-- In every run in which the acceptances handed to a waiting client are current, a
connected client has a salt that the server has accepted from its address. -/
theorem always_agreed_of_current {addr : Address} {s : System} {events : List Event}
    (hinit : Initial s) (hC : Throughout (step addr) AcceptanceIsCurrent s events) :
    Always (step addr) (Agreed addr) s events := by
  have hI : Always (step addr) (Inv addr) s events :=
    always_of_step (inv_initial hinit) (fun _ _ _ hI hC h => inv_step hI hC h) hC
  exact hI.mono fun _ hI => hI.agreed

section Steps

variable {addr : Address} {s : System} {k call : ℕ} {env : Env} {clientSalt serverSalt : UInt64}
  {data : Datagram}

theorem step_establishConnection {result : ℤ} (hattempt : s.attempt = .returned result)
    (hfresh : clientSalt ∉ s.clientSalts)
    (hdata : paddedMessage .connectionRequest clientSalt = data) :
    step addr s (.establishConnection clientSalt true) = some
      (System.proceed { s with clientSalts := s.clientSalts ++ [clientSalt] }
        { state := connecting s.client
          sent := [(s.client.serverAddr, data)]
          attempt := .awaitingChallenge clientSalt }) := by
  simp only [step, hattempt, hfresh, if_false, requestConnection_ok, hdata]

theorem step_request (hk : s.toServer[k]? = some ⟨data, call⟩) (hsize : data.length = 1000)
    (hdata : Carries data .connectionRequest clientSalt) (hsend : env.sendOk = true) :
    step addr s (.toServer k env) = some
      (s.serve addr ⟨data, call⟩
        { state := ⟨s.server.players ++ [newPlayer env s.server.players clientSalt addr]⟩
          sent := [(addr, challengeDatagram clientSalt env.randomSalt)]
          result := 0 }) := by
  simp only [step, hk, executeGameTurn_connectionRequest hsize hdata, hsend, if_true,
    Option.bind_eq_bind, Option.bind_some, Option.pure_def]

theorem step_challenge (hk : s.toClient[k]? = some ⟨challengeDatagram clientSalt serverSalt, call⟩)
    (hattempt : s.attempt = .awaitingChallenge clientSalt)
    (hdata : paddedMessage .challengeResponse (clientSalt ^^^ serverSalt) = data) :
    step addr s (.toClient k true) = some
      (s.proceed
        { state := s.client
          sent := [(s.client.serverAddr, data)]
          attempt := .awaitingAccepted clientSalt serverSalt }) := by
  have hchallenge := readsChallenge_challengeDatagram clientSalt serverSalt
  simp only [step, hk, System.receive, hattempt, receiveChallenge_ok hchallenge, hdata,
    Option.bind_eq_bind, Option.bind_some, Option.map_some]

theorem step_response {salt : UInt64} {before after : List Player} {player : Player}
    (hk : s.toServer[k]? = some ⟨data, call⟩) (hsize : data.length = 1000)
    (hdata : Carries data .challengeResponse salt) (hsend : env.sendOk = true)
    (hlocate : locate (fromAddress addr) s.server.players = some (before, player, after))
    (hsalt : player.connectionSalt = salt) :
    step addr s (.toServer k env) = some
      (s.serve addr ⟨data, call⟩
        { state := ⟨before ++ { player with connectionState := .connected } :: after⟩
          sent := [(addr, acceptedDatagram player.playerID)]
          result := 0 }) := by
  simp only [step, hk, executeGameTurn_challengeResponse hsize hdata hsend hlocate, hsalt, if_true,
    Option.bind_eq_bind, Option.bind_some, Option.pure_def]

theorem step_accepted {playerID : UInt8}
    (hk : s.toClient[k]? = some ⟨acceptedDatagram playerID, call⟩)
    (hattempt : s.attempt = .awaitingAccepted clientSalt serverSalt) :
    step addr s (.toClient k true) = some
      (s.proceed
        { state := connected clientSalt serverSalt 0 s.client
          attempt := .returned 0 }) := by
  have haccepted := readsAccepted_acceptedDatagram playerID
  simp only [step, hk, System.receive, hattempt, receiveAccepted_ok haccepted,
    Option.bind_eq_bind, Option.bind_some, Option.map_some]
  rfl

theorem step_timeout (hattempt : s.attempt = .awaitingAccepted clientSalt serverSalt) :
    step addr s .timeout = some (s.proceed (disconnected s.client)) := by
  simp only [step, System.receive, hattempt, receiveAccepted, Option.map_some]

end Steps

/-- One call, with every datagram handed over once and in order. -/
theorem always_agreed_of_current_handshake :
    Always (step ⟨2, 1, 1⟩) (Agreed ⟨2, 1, 1⟩) { client := { serverAddr := ⟨2, 9, 3501⟩ } }
      [.establishConnection 1 true, .toServer 0 {}, .toClient 0 true, .toServer 1 {},
        .toClient 1 true] := by
  obtain ⟨request, hrequest, hsize, hdata⟩ := exists_paddedMessage .connectionRequest 1
  obtain ⟨response, hresponse, hsize', hdata'⟩ := exists_paddedMessage .challengeResponse 1
  apply always_agreed_of_current ⟨by decide, ⟨1, rfl⟩, rfl, rfl, rfl, rfl⟩
  apply throughout_cons (step_establishConnection rfl List.not_mem_nil hrequest) True.intro
  apply throughout_cons (step_request rfl hsize hdata rfl) True.intro
  refine throughout_cons (step_challenge rfl rfl hresponse) ?_ ?_
  · rintro sent _ _ ⟨clientSalt, serverSalt, hattempt⟩
    cases hattempt
  apply throughout_cons (step_response rfl hsize' hdata' rfl rfl rfl) True.intro
  refine throughout_cons (step_accepted rfl rfl) ?_ True.intro
  intro sent hsent _ _
  obtain rfl := Option.some.inj hsent
  rfl

/-- The acceptance of the first call arrives in the second, whose response the server
has not even received. -/
theorem stale_acceptance_connects :
    ¬ ∀ (addr : Address) (s : System) (events : List Event), Initial s →
      Always (step addr) (Agreed addr) s events := by
  intro h
  obtain ⟨request₁, hrequest₁, hsize₁, hdata₁⟩ := exists_paddedMessage .connectionRequest 1
  obtain ⟨response₁, hresponse₁, hsize₁', hdata₁'⟩ := exists_paddedMessage .challengeResponse 1
  obtain ⟨request₂, hrequest₂, hsize₂, hdata₂⟩ := exists_paddedMessage .connectionRequest 2
  obtain ⟨response₂, hresponse₂, _, _⟩ := exists_paddedMessage .challengeResponse 2
  let addr : Address := ⟨2, 1, 1⟩
  let s : System := { client := { serverAddr := ⟨2, 9, 3501⟩ } }
  have hinit : Initial s := ⟨by decide, ⟨1, rfl⟩, rfl, rfl, rfl, rfl⟩
  have hfresh : (2 : UInt64) ∉ [1] := by decide
  obtain ⟨t, hrun, hconnected, hsalt, hturns⟩ : ∃ t, run (step addr) s
      [.establishConnection 1 true, .toServer 0 {}, .toClient 0 true, .toServer 1 {}, .timeout,
        .establishConnection 2 true, .toServer 2 {}, .toClient 2 true, .toClient 1 true] =
        some t ∧ t.client.connectionState = .connected ∧ t.client.connectionSalt = 2 ∧
      t.turns.map ServerTurn.data = [request₁, response₁, request₂] := by
    -- the acceptance is sent in the fourth step and stays in the network until the last
    exact ⟨_,
      run_step (step_establishConnection rfl List.not_mem_nil hrequest₁) <|
      run_step (step_request rfl hsize₁ hdata₁ rfl) <|
      run_step (step_challenge rfl rfl hresponse₁) <|
      run_step (step_response rfl hsize₁' hdata₁' rfl rfl rfl) <|
      run_step (step_timeout rfl) <|
      run_step (step_establishConnection rfl hfresh hrequest₂) <|
      run_step (step_request rfl hsize₂ hdata₂ rfl) <|
      run_step (step_challenge rfl rfl hresponse₂) <|
      run_step (step_accepted rfl rfl) rfl, rfl, rfl, rfl⟩
  obtain ⟨turn, hturn, haccepts⟩ := ((h addr s _ hinit).last hrun) hconnected
  have hdata := haccepts.response
  rw [hsalt] at hdata
  have hmem : turn.data ∈ [request₁, response₁, request₂] := by
    rw [← hturns]
    exact List.mem_map_of_mem hturn
  simp only [List.mem_cons, List.not_mem_nil, or_false] at hmem
  rcases hmem with heq | heq | heq
  · exact not_response (heq.trans hrequest₁.symm) hdata
  · rw [heq] at hdata
    have hone := (saltField_of_carries hdata).symm.trans (saltField_of_carries hdata₁')
    exact absurd hone (by decide)
  · exact not_response (heq.trans hrequest₂.symm) hdata

end RocketGame.HandshakeAgreement
