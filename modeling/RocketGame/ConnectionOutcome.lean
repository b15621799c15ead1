import RocketGame.ClientSafety
import RocketGame.HandshakeMessages

/-!
The outcome of a whole call of EstablishConnection, over every behaviour of the
network and from every earlier state. The salts are cleared before the first
message and written only after the last check, so the failures leave them clear.
-/
namespace RocketGame.ConnectionOutcome

open Client ClientSafety DatagramSafety HandshakeMessages NetworkUtilities Packets PlayerTable
open NetworkPacket (ofBytes reads_readAndValidateCRC reads_readNetworkPacketType
  reads_readUInt64)

/-- What the network does in one call: two sends and two receives. -/
structure Exchange where
  requestSent : Bool
  challenge : Received
  responseSent : Bool
  accepted : Received

def establishConnection (clientSalt : UInt64) (x : Exchange) (c : State) : Option Handshake := do
  let request := requestConnection clientSalt x.requestSent c
  match request.attempt with
  | .awaitingChallenge clientSalt =>
    let response ← receiveChallenge clientSalt x.responseSent x.challenge request.state
    let sent := request.sent ++ response.sent
    match response.attempt with
    | .awaitingAccepted clientSalt serverSalt =>
      let accepted ← receiveAccepted clientSalt serverSalt x.accepted response.state
      return { accepted with sent := sent ++ accepted.sent }
    | _ => return { response with sent }
  | _ => return request

/-- Both datagrams, if the server sends them, are as long as the fields read of them. -/
structure LongEnough (x : Exchange) (c : State) : Prop where
  challenge : ∀ data, x.challenge = .packet c.serverAddr data →
    messageBytes data .challenge 16 ≤ data.length
  accepted : ∀ data, x.accepted = .packet c.serverAddr data →
    messageBytes data .connectionAccepted 1 ≤ data.length

structure NotConnected (c : State) : Prop where
  connectionState : c.connectionState ≠ .connected
  clientSalt : c.clientSalt = 0
  serverSalt : c.serverSalt = 0
  connectionSalt : c.connectionSalt = 0
  playerID : c.playerID = 0

structure Reply (addr : Address) (t : NetworkPacketType) (received : Received)
    (data : Datagram) : Prop where
  received : received = .packet addr data
  crc : ValidCRC data
  type : typeField data = some t

structure Connected (clientSalt : UInt64) (x : Exchange) (serverAddr : Address)
    (h : Handshake) : Prop where
  state : h.state.connectionState = .connected
  ownSalt : h.state.clientSalt = clientSalt
  sharedSalt : h.state.connectionSalt = h.state.clientSalt ^^^ h.state.serverSalt
  challenged : ∃ data, Reply serverAddr .challenge x.challenge data ∧ saltField data = clientSalt
  accepted : ∃ data, Reply serverAddr .connectionAccepted x.accepted data
  responded : ∃ data, (serverAddr, data) ∈ h.sent ∧ data.length = 1000 ∧
    Carries data .challengeResponse h.state.connectionSalt

theorem five_le_of_typeField {data : Datagram} {t : NetworkPacketType}
    (h : typeField data = some t) : 5 ≤ data.length := by
  by_contra hlt
  rw [typeField, List.getElem?_eq_none (by omega)] at h
  cases h

section Receivers

variable {c : State} {h : Handshake} {sender : Address} {data : Datagram}

/-- The first Receive ends the call with the salts untouched, or it brought the
server's challenge for this call, and the response is sent. -/
theorem receiveChallenge_outcome {clientSalt : UInt64} {sendOk : Bool} {received : Received}
    (hreceive : receiveChallenge clientSalt sendOk received c = some h) :
    (h = { state := c, attempt := .returned 1 } ∨ h = disconnected c) ∨
      ∃ data serverSalt, Reply c.serverAddr .challenge received data ∧
        saltField data = clientSalt ∧ h =
          { state := c
            sent := [(c.serverAddr,
              paddedMessage .challengeResponse (clientSalt ^^^ serverSalt))]
            attempt := .awaitingAccepted clientSalt serverSalt } := by
  cases received with
  | timeout => exact Or.inl (Or.inl (Option.some.inj hreceive).symm)
  | failure => exact Or.inl (Or.inl (Option.some.inj hreceive).symm)
  | packet sender data =>
    simp only [receiveChallenge, Option.bind_eq_bind, Option.pure_def] at hreceive
    rcases expected_cases hreceive with hgone | ⟨⟨rfl, hcrc, htype⟩, hfields⟩
    · exact Or.inl (Or.inr hgone)
    obtain ⟨⟨receivedClientSalt, p⟩, hsalt, hfields⟩ := Option.bind_eq_some_iff.mp hfields
    obtain ⟨⟨serverSalt, p⟩, -, hfields⟩ := Option.bind_eq_some_iff.mp hfields
    dsimp only at hfields
    split at hfields
    · exact Or.inl (Or.inr (Option.some.inj hfields).symm)
    rename_i hecho
    split at hfields
    · exact Or.inl (Or.inr (Option.some.inj hfields).symm)
    rename_i hsend
    rw [Bool.not_eq_true, Bool.not_eq_false'] at hsend
    obtain rfl := Option.some.inj hfields
    refine Or.inr ⟨data, serverSalt, ⟨rfl, hcrc, htype⟩, ?_, ?_⟩
    · obtain ⟨hlen, -⟩ := reads_readUInt64.eq_advance (five_le_of_typeField htype) hsalt
      have hread := (readUInt64_saltField hlen).symm.trans hsalt
      exact (Prod.mk.inj (Option.some.inj hread)).1.trans (not_not.mp hecho)
    · rw [Client.send, if_pos hsend, toDatagram_challengeResponsePacket]

/-- The second Receive disconnects, or it brought the server's acceptance. -/
theorem receiveAccepted_outcome {clientSalt serverSalt : UInt64} {received : Received}
    (hreceive : receiveAccepted clientSalt serverSalt received c = some h) :
    h = disconnected c ∨ ∃ data playerID, Reply c.serverAddr .connectionAccepted received data ∧
      h =
        { state := { c with
            connectionState := .connected
            clientSalt := clientSalt
            serverSalt := serverSalt
            connectionSalt := clientSalt ^^^ serverSalt
            playerID := playerID }
          attempt := .returned 0 } := by
  cases received with
  | timeout => exact Or.inl (Option.some.inj hreceive).symm
  | failure => exact Or.inl (Option.some.inj hreceive).symm
  | packet sender data =>
    simp only [receiveAccepted, Option.bind_eq_bind, Option.pure_def] at hreceive
    rcases expected_cases hreceive with hgone | ⟨⟨rfl, hcrc, htype⟩, hfields⟩
    · exact Or.inl hgone
    obtain ⟨⟨playerID, p⟩, -, hfields⟩ := Option.bind_eq_some_iff.mp hfields
    exact Or.inr ⟨data, playerID.toUInt8, ⟨rfl, hcrc, htype⟩, (Option.some.inj hfields).symm⟩

end Receivers

section Call

variable {clientSalt : UInt64} {x : Exchange} {c : State} {h : Handshake}

def cleared (c : State) : State :=
  { c with clientSalt := 0, serverSalt := 0, connectionSalt := 0, playerID := 0,
           connectionState := .connecting }

theorem notConnected_cleared (c : State) : NotConnected (cleared c) :=
  ⟨nofun, rfl, rfl, rfl, rfl⟩

theorem notConnected_disconnected (c : State) : NotConnected (disconnected (cleared c)).state :=
  ⟨nofun, rfl, rfl, rfl, rfl⟩

theorem requestConnection_true (clientSalt : UInt64) (c : State) :
    requestConnection clientSalt true c =
      { state := cleared c
        sent := [(c.serverAddr, paddedMessage .connectionRequest clientSalt)]
        attempt := .awaitingChallenge clientSalt } := by
  rw [← toDatagram_connectionRequestPacket]
  rfl

/-- What the call returns says how it went. -/
structure ReturnTells (clientSalt : UInt64) (x : Exchange) (serverAddr : Address)
    (h : Handshake) (result : ℤ) : Prop where
  returned : h.attempt = .returned result
  failure : result ≠ 0 → NotConnected h.state
  success : result = 0 → Connected clientSalt x serverAddr h

theorem returnTells_one (hattempt : h.attempt = .returned 1) (hstate : NotConnected h.state) :
    ∃ result, ReturnTells clientSalt x c.serverAddr h result :=
  ⟨1, hattempt, fun _ => hstate, nofun⟩

theorem establishConnection_returnTells (hcall : establishConnection clientSalt x c = some h) :
    ∃ result, ReturnTells clientSalt x c.serverAddr h result := by
  cases hrequest : x.requestSent with
  | false =>
    simp only [establishConnection, requestConnection, hrequest, Bool.false_eq_true, if_false,
      Option.pure_def, Option.some.injEq] at hcall
    subst hcall
    exact returnTells_one rfl (notConnected_cleared c)
  | true =>
    simp only [establishConnection, hrequest, requestConnection_true,
      Option.bind_eq_bind] at hcall
    obtain ⟨response, hresponse, hcall⟩ := Option.bind_eq_some_iff.mp hcall
    rcases receiveChallenge_outcome hresponse with
      (rfl | rfl) | ⟨data, serverSalt, hreply, hecho, rfl⟩
    · obtain rfl := Option.some.inj hcall
      exact returnTells_one rfl (notConnected_cleared c)
    · obtain rfl := Option.some.inj hcall
      exact returnTells_one rfl (notConnected_disconnected c)
    · dsimp only at hcall
      obtain ⟨accepted, haccepted, hcall⟩ := Option.bind_eq_some_iff.mp hcall
      obtain rfl := Option.some.inj hcall
      rcases receiveAccepted_outcome haccepted with rfl | ⟨data', playerID, hreply', rfl⟩
      · exact returnTells_one rfl (notConnected_disconnected c)
      · obtain ⟨response, heq, hlen, hcarries⟩ :=
          exists_paddedMessage .challengeResponse (clientSalt ^^^ serverSalt)
        refine ⟨0, rfl, nofun, fun _ => ⟨rfl, rfl, rfl, ⟨data, hreply, hecho⟩, ⟨data', hreply'⟩,
          response, ?_, hlen, hcarries⟩⟩
        rw [heq]
        exact List.mem_append_left _ (List.mem_append_right _ List.mem_cons_self)

theorem receiveChallenge_isSome_of {sendOk : Bool} {received : Received}
    (hlong : ∀ data, received = .packet c.serverAddr data →
      messageBytes data .challenge 16 ≤ data.length) :
    (receiveChallenge clientSalt sendOk received c).isSome = true := by
  cases received with
  | timeout => rfl
  | failure => rfl
  | packet sender data =>
    cases hsender : isSameAddress sender c.serverAddr with
    | false => simp [receiveChallenge, hsender]
    | true =>
      obtain rfl := (isSameAddress_iff _ _).mp hsender
      exact (receiveChallenge_isSome clientSalt sendOk hsender).mpr (hlong data rfl)

theorem receiveAccepted_isSome_of {serverSalt : UInt64} {received : Received}
    (hlong : ∀ data, received = .packet c.serverAddr data →
      messageBytes data .connectionAccepted 1 ≤ data.length) :
    (receiveAccepted clientSalt serverSalt received c).isSome = true := by
  cases received with
  | timeout => rfl
  | failure => rfl
  | packet sender data =>
    cases hsender : isSameAddress sender c.serverAddr with
    | false => simp [receiveAccepted, hsender]
    | true =>
      obtain rfl := (isSameAddress_iff _ _).mp hsender
      exact (receiveAccepted_isSome clientSalt serverSalt hsender).mpr (hlong data rfl)

theorem establishConnection_isSome (hlong : LongEnough x c) :
    (establishConnection clientSalt x c).isSome = true := by
  cases hrequest : x.requestSent with
  | false =>
    simp only [establishConnection, requestConnection, hrequest, Bool.false_eq_true, if_false,
      Option.pure_def, Option.isSome_some]
  | true =>
    obtain ⟨response, hresponse⟩ : ∃ response,
        receiveChallenge clientSalt x.responseSent x.challenge (cleared c) = some response :=
      Option.isSome_iff_exists.mp (receiveChallenge_isSome_of hlong.challenge)
    simp only [establishConnection, hrequest, requestConnection_true, Option.bind_eq_bind,
      hresponse, Option.bind_some]
    rcases receiveChallenge_outcome hresponse with (rfl | rfl) | ⟨data, serverSalt, -, -, rfl⟩
    · rfl
    · rfl
    · obtain ⟨accepted, haccepted⟩ : ∃ accepted,
          receiveAccepted clientSalt serverSalt x.accepted (cleared c) = some accepted :=
        Option.isSome_iff_exists.mp (receiveAccepted_isSome_of hlong.accepted)
      dsimp only
      rw [haccepted]
      rfl

/-- With datagrams long enough the call returns, and what it returns says which of
the two ends it came to. -/
theorem establishConnection_outcome (clientSalt : UInt64) (x : Exchange) (c : State) :
    (LongEnough x c → (establishConnection clientSalt x c).isSome = true) ∧
      ∀ h, establishConnection clientSalt x c = some h →
        ∃ result, ReturnTells clientSalt x c.serverAddr h result :=
  ⟨establishConnection_isSome, fun _ => establishConnection_returnTells⟩

def retrying : State where
  serverAddr := ⟨2, 9, 3501⟩
  clientSalt := 3
  serverSalt := 4
  connectionSalt := 7
  playerID := 1
  connectionState := .connected

def answered : Exchange where
  requestSent := true
  challenge := .packet ⟨2, 9, 3501⟩ (challengeDatagram 5 6)
  responseSent := true
  accepted := .packet ⟨2, 9, 3501⟩ (acceptedDatagram 2)

theorem longEnough_answered : LongEnough answered retrying where
  challenge data h := by
    obtain ⟨-, rfl⟩ := Received.packet.inj h
    rw [length_challengeDatagram]
    decide +kernel
  accepted data h := by
    obtain ⟨-, rfl⟩ := Received.packet.inj h
    rw [length_acceptedDatagram]
    decide +kernel

theorem establishConnection_outcome_answered :
    ∃ h, establishConnection 5 answered retrying = some h ∧ h.attempt = .returned 0 ∧
      Connected 5 answered retrying.serverAddr h := by
  obtain ⟨hreturns, htells⟩ := establishConnection_outcome 5 answered retrying
  obtain ⟨h, hcall⟩ := Option.isSome_iff_exists.mp (hreturns longEnough_answered)
  have hzero : (establishConnection 5 answered retrying).map Handshake.attempt =
      some (.returned 0) := by
    decide +kernel
  rw [hcall, Option.map_some, Option.some.injEq] at hzero
  obtain ⟨result, htold⟩ := htells h hcall
  have hresult : result = 0 := Attempt.returned.inj (htold.returned.symm.trans hzero)
  exact ⟨h, hcall, hzero, htold.success hresult⟩

end Call

section Program

open ClientProgram (Program ofHandshake)
open Runs

variable {physics : PhysicsEngine} {clientSalt : UInt64} {x : Exchange} {c : Program}
  {h : Handshake}

def callEvents (clientSalt : UInt64) (x : Exchange) : List ClientProgram.Event :=
  [.establishConnection clientSalt { sendOk := x.requestSent },
    .receive x.challenge { sendOk := x.responseSent }, .receive x.accepted {}]

section Steps

variable {received : Received}

theorem step_receive_of_returned {result : ℤ} (hphase : c.phase = .returned result) (env : Env) :
    ClientProgram.step physics c (.receive received env) = some c := by
  simp only [ClientProgram.step, ClientProgram.progress, hphase, Option.map_some]

theorem step_receive_challenge {sendOk : Bool}
    (hphase : c.phase = .establishing (.awaitingChallenge clientSalt))
    (hreceive : receiveChallenge clientSalt sendOk received c.toState = some h) :
    ClientProgram.step physics c (.receive received { sendOk := sendOk }) =
      some (ofHandshake c h).program := by
  simp only [ClientProgram.step, ClientProgram.progress, hphase, hreceive, Option.map_some]

theorem step_receive_accepted {serverSalt : UInt64}
    (hphase : c.phase = .establishing (.awaitingAccepted clientSalt serverSalt))
    (hreceive : receiveAccepted clientSalt serverSalt received c.toState = some h) (env : Env) :
    ClientProgram.step physics c (.receive received env) = some (ofHandshake c h).program := by
  simp only [ClientProgram.step, ClientProgram.progress, hphase, hreceive, Option.map_some]

end Steps

/-- A Receive after the return is not one of this call. -/
theorem run_receives_of_returned {result : ℤ} (hphase : c.phase = .returned result)
    (received : List (Received × Env)) :
    run (ClientProgram.step physics) c (received.map fun r => .receive r.1 r.2) = some c := by
  induction received with
  | nil => rfl
  | cons r rest ih => exact run_step (step_receive_of_returned hphase r.2) ih

/-- The program ends the call in the state that the call as a whole ends in. -/
theorem run_callEvents {last : ℤ} (hphase : c.phase = .returned last)
    (hcall : establishConnection clientSalt x c.toState = some h) :
    ∃ c', run (ClientProgram.step physics) c (callEvents clientSalt x) = some c' ∧
      c'.toState = h.state := by
  let requested := (ofHandshake c (requestConnection clientSalt x.requestSent c.toState)).program
  have hbegin : ClientProgram.step physics c
      (.establishConnection clientSalt { sendOk := x.requestSent }) = some requested := by
    simp only [ClientProgram.step, ClientProgram.progress, hphase,
      ClientProgram.establishConnection, Option.map_some, requested]
  cases hrequest : x.requestSent with
  | false =>
    have hreturned : requested.phase = .returned 1 := by
      simp only [requested, ofHandshake, requestConnection, hrequest, Bool.false_eq_true, if_false]
    refine ⟨requested, run_step hbegin (run_receives_of_returned hreturned
      [(x.challenge, { sendOk := x.responseSent }), (x.accepted, {})]), ?_⟩
    simp only [establishConnection, requestConnection, hrequest, Bool.false_eq_true, if_false,
      Option.pure_def, Option.some.injEq] at hcall
    rw [← hcall]
    rfl
  | true =>
    simp only [establishConnection, hrequest, requestConnection_true,
      Option.bind_eq_bind] at hcall
    obtain ⟨response, hresponse, hcall⟩ := Option.bind_eq_some_iff.mp hcall
    have hstate : requested.toState = cleared c.toState := rfl
    have hwaiting : requested.phase = .establishing (.awaitingChallenge clientSalt) := by
      simp only [requested, hrequest, requestConnection_true, ofHandshake]
    rw [← hstate] at hresponse
    have hnext : ClientProgram.step physics requested (.receive x.challenge
        { sendOk := x.responseSent }) = some (ofHandshake requested response).program :=
      step_receive_challenge hwaiting hresponse
    rcases receiveChallenge_outcome hresponse with
      (rfl | rfl) | ⟨data, serverSalt, hreply, hecho, rfl⟩
    · obtain rfl := Option.some.inj hcall
      exact ⟨_, run_step hbegin (run_step hnext (run_receives_of_returned rfl
        [(x.accepted, {})])), rfl⟩
    · obtain rfl := Option.some.inj hcall
      exact ⟨_, run_step hbegin (run_step hnext (run_receives_of_returned rfl
        [(x.accepted, {})])), rfl⟩
    · dsimp only at hcall
      obtain ⟨accepted, haccepted, hcall⟩ := Option.bind_eq_some_iff.mp hcall
      obtain rfl := Option.some.inj hcall
      let responded : Program :=
        { requested with phase := .establishing (.awaitingAccepted clientSalt serverSalt) }
      have hanswer : receiveAccepted clientSalt serverSalt x.accepted responded.toState =
          some accepted := haccepted
      have hlast : ClientProgram.step physics responded (.receive x.accepted {}) =
          some (ofHandshake responded accepted).program := step_receive_accepted rfl hanswer {}
      exact ⟨_, run_step hbegin (run_step hnext (run_step hlast rfl)), rfl⟩

end Program

end RocketGame.ConnectionOutcome
