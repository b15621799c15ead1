import RocketGame.PlayerIdentity

/-!
The connection handshake of the two programs joined, with no message lost. Both
sides end connected with one salt. The player ID does not survive: the server
writes it as eight bytes, most significant first, and the client reads one byte.
-/
namespace RocketGame.ConnectionExchange

open Client (Handshake receiveAccepted receiveChallenge requestConnection)
open BigEndian FirstMatch HandshakeMessages NetworkUtilities Packets PlayerIdentity PlayerTable
open Server
open NetworkPacket (ofBytes sealed)

/-- EstablishConnection against the server, each message handed to the other side. -/
def exchange (clientSalt : UInt64) (env₁ env₂ : Server.Env) (clientAddr : Address)
    (c : Client.State) (s : Server.State) : Option (Handshake × Server.State) := do
  let requested := requestConnection clientSalt true c
  let (_, request) ← requested.sent.head?
  let o₁ ← executeGameTurn env₁ s request clientAddr
  let (_, challenge) ← o₁.sent.head?
  let challenged ←
    receiveChallenge clientSalt true (.packet c.serverAddr challenge) requested.state
  match challenged.attempt with
  | .awaitingAccepted clientSalt serverSalt => do
      let (_, response) ← challenged.sent.head?
      let o₂ ← executeGameTurn env₂ o₁.state response clientAddr
      let (_, answer) ← o₂.sent.head?
      let accepted ←
        receiveAccepted clientSalt serverSalt (.packet c.serverAddr answer) challenged.state
      return (accepted, o₂.state)
  | _ => none

/-- Both sides are connected with one salt, through this record of the server. -/
structure ConnectedThrough (h : Handshake) (s : Server.State) (addr : Address) (p : Player) :
    Prop where
  mem : p ∈ s.players
  address : p.address = addr
  server : p.connectionState = .connected
  client : h.state.connectionState = .connected
  salt : h.state.connectionSalt = p.connectionSalt

/-- The two sides also agree on the player ID. -/
def Agree (h : Handshake) (s : Server.State) (addr : Address) : Prop :=
  ∃ p, ConnectedThrough h s addr p ∧ h.state.playerID = p.playerID

def connecting (c : Client.State) : Client.State :=
  { c with clientSalt := 0, serverSalt := 0, connectionSalt := 0, playerID := 0,
           connectionState := .connecting }

theorem requestConnection_ok (clientSalt : UInt64) (c : Client.State) :
    requestConnection clientSalt true c =
      { state := connecting c
        sent := [(c.serverAddr, paddedMessage .connectionRequest clientSalt)]
        attempt := .awaitingChallenge clientSalt } := by
  simp only [requestConnection, connecting, Client.send, if_true,
    toDatagram_connectionRequestPacket]

structure ReadsChallenge (data : Datagram) (clientSalt serverSalt : UInt64) : Prop where
  crc : (ofBytes data).readAndValidateCRC = some (0, (ofBytes data).advance 4)
  type : ((ofBytes data).advance 4).readNetworkPacketType =
    some (some .challenge, (ofBytes data).advance 5)
  client : ((ofBytes data).advance 5).readUInt64 = some (clientSalt, (ofBytes data).advance 13)
  server : ((ofBytes data).advance 13).readUInt64 = some (serverSalt, (ofBytes data).advance 21)

theorem readsChallenge_challengeDatagram (clientSalt serverSalt : UInt64) :
    ReadsChallenge (challengeDatagram clientSalt serverSalt) clientSalt serverSalt := by
  have htype := NetworkPacket.unread_sealed
    (NetworkPacketType.challenge.toInt8.toUInt8 :: (bytes64 clientSalt ++ bytes64 serverSalt))
  have hclient := NetworkPacket.unread_advance_one htype
  have hserver := (NetworkPacket.unread_advance_of hclient (length_bytes64 _)).trans
    (List.append_nil _).symm
  exact ⟨NetworkPacket.readAndValidateCRC_sealed _,
    NetworkPacket.readNetworkPacketType_of_unread htype,
    NetworkPacket.readUInt64_of_unread hclient, NetworkPacket.readUInt64_of_unread hserver⟩

/-- The client answers the challenge of its own request with the combined salt. -/
theorem receiveChallenge_ok {data : Datagram} {clientSalt serverSalt : UInt64}
    (hdata : ReadsChallenge data clientSalt serverSalt) (c : Client.State) :
    receiveChallenge clientSalt true (.packet c.serverAddr data) c =
      some { state := c
             sent := [(c.serverAddr,
               paddedMessage .challengeResponse (clientSalt ^^^ serverSalt))]
             attempt := .awaitingAccepted clientSalt serverSalt } := by
  have hsame : isSameAddress c.serverAddr c.serverAddr = true := (isSameAddress_iff _ _).mpr rfl
  rw [← toDatagram_challengeResponsePacket (Client.connectionRequestPacket clientSalt)]
  generalize hpacket : Client.challengeResponsePacket (Client.connectionRequestPacket clientSalt)
    (clientSalt ^^^ serverSalt) = packet
  simp only [receiveChallenge, hsame, hdata.crc, hdata.type, hdata.client, hdata.server, hpacket,
    Client.send, Option.bind_eq_bind, Option.bind_some, Option.pure_def, Bool.not_true,
    Bool.false_eq_true, if_false, if_true, ne_eq, not_true_eq_false]

structure ReadsAccepted (data : Datagram) (playerID : Int8) : Prop where
  crc : (ofBytes data).readAndValidateCRC = some (0, (ofBytes data).advance 4)
  type : ((ofBytes data).advance 4).readNetworkPacketType =
    some (some .connectionAccepted, (ofBytes data).advance 5)
  playerID : ((ofBytes data).advance 5).readInt8 = some (playerID, (ofBytes data).advance 6)

/-- The most significant byte of a player ID sent as 64 bits is zero. -/
theorem bytes64_playerID (playerID : UInt8) :
    bytes64 playerID.toUInt64.toInt64.toUInt64 =
      (0 : Int8).toUInt8 :: encode 7 playerID.toNat := by
  have hid : playerID.toUInt64.toInt64.toUInt64.toNat = playerID.toNat := by simp
  have hdigit : playerID.toNat / 256 ^ 7 = 0 :=
    Nat.div_eq_of_lt (lt_trans playerID.toNat_lt (by decide))
  rw [bytes64, hid, encode, hdigit]
  rfl

/-- The single byte the client reads is the most significant one of the player ID. -/
theorem readsAccepted_acceptedDatagram (playerID : UInt8) :
    ReadsAccepted (acceptedDatagram playerID) 0 := by
  have htype := NetworkPacket.unread_sealed
    (NetworkPacketType.connectionAccepted.toInt8.toUInt8 ::
      bytes64 playerID.toUInt64.toInt64.toUInt64)
  have hid := (NetworkPacket.unread_advance_one htype).trans (bytes64_playerID playerID)
  exact ⟨NetworkPacket.readAndValidateCRC_sealed _,
    NetworkPacket.readNetworkPacketType_of_unread htype, NetworkPacket.readInt8_of_unread hid⟩

def connected (clientSalt serverSalt : UInt64) (playerID : UInt8) (c : Client.State) :
    Client.State :=
  { c with connectionState := .connected, clientSalt := clientSalt, serverSalt := serverSalt,
           connectionSalt := clientSalt ^^^ serverSalt, playerID := playerID }

theorem receiveAccepted_ok {data : Datagram} {playerID : Int8}
    (hdata : ReadsAccepted data playerID) (clientSalt serverSalt : UInt64) (c : Client.State) :
    receiveAccepted clientSalt serverSalt (.packet c.serverAddr data) c =
      some { state := connected clientSalt serverSalt playerID.toUInt8 c
             attempt := .returned 0 } := by
  have hsame : isSameAddress c.serverAddr c.serverAddr = true := (isSameAddress_iff _ _).mpr rfl
  simp only [receiveAccepted, hsame, hdata.crc, hdata.type, hdata.playerID, connected,
    Option.bind_eq_bind, Option.bind_some, Option.pure_def, Bool.not_true, Bool.false_eq_true,
    if_false, ne_eq, not_true_eq_false]

/-- The messages of a successful exchange in order, and the states they leave. -/
theorem exchange_of_messages {clientSalt serverSalt : UInt64} {env₁ env₂ : Server.Env}
    {clientAddr : Address} {c : Client.State} {s : Server.State} {o₁ o₂ : Outcome}
    {request challenge response answer : Datagram} {playerID : Int8}
    (hrequest : request = paddedMessage .connectionRequest clientSalt)
    (ho₁ : executeGameTurn env₁ s request clientAddr = some o₁)
    (hsent₁ : o₁.sent = [(clientAddr, challenge)])
    (hchallenge : ReadsChallenge challenge clientSalt serverSalt)
    (hresponse : response = paddedMessage .challengeResponse (clientSalt ^^^ serverSalt))
    (ho₂ : executeGameTurn env₂ o₁.state response clientAddr = some o₂)
    (hsent₂ : o₂.sent = [(clientAddr, answer)]) (hanswer : ReadsAccepted answer playerID) :
    exchange clientSalt env₁ env₂ clientAddr c s =
      some ({ state := connected clientSalt serverSalt playerID.toUInt8 (connecting c)
              attempt := .returned 0 }, o₂.state) := by
  have hrequested := requestConnection_ok clientSalt c
  have hchallenged := receiveChallenge_ok hchallenge (connecting c)
  have haccepted := receiveAccepted_ok hanswer clientSalt serverSalt (connecting c)
  have haddr : (connecting c).serverAddr = c.serverAddr := rfl
  rw [← hrequest] at hrequested
  rw [← hresponse, haddr] at hchallenged
  rw [haddr] at haccepted
  simp only [exchange, hrequested, List.head?_cons, Option.bind_eq_bind, Option.bind_some, ho₁,
    hsent₁, hchallenged, ho₂, hsent₂, haccepted, Option.pure_def]

section Run

variable {clientSalt : UInt64} {env₁ env₂ : Server.Env} {clientAddr : Address}
  {c : Client.State} {s : Server.State}

/-- The final states of both sides, for a client without a record. -/
theorem exchange_eq (hnew : ∀ p ∈ s.players, p.address ≠ clientAddr)
    (h₁ : env₁.sendOk = true) (h₂ : env₂.sendOk = true) :
    exchange clientSalt env₁ env₂ clientAddr c s =
      some ({ state := connected clientSalt env₁.randomSalt 0 (connecting c)
              attempt := .returned 0 },
        ⟨s.players ++ [{ newPlayer env₁ s.players clientSalt clientAddr with
            connectionState := .connected }]⟩) := by
  have hlocate : locate (fromAddress clientAddr)
      (s.players ++ [newPlayer env₁ s.players clientSalt clientAddr]) =
      some (s.players, newPlayer env₁ s.players clientSalt clientAddr, []) := by
    refine locate_eq_some.mpr ⟨rfl, fromAddress_iff.mpr rfl, fun q hq => ?_⟩
    rw [Bool.eq_false_iff]
    exact fun h => hnew q hq (fromAddress_iff.mp h)
  have hanswer := executeGameTurn_challengeResponse
    (s := ⟨s.players ++ [newPlayer env₁ s.players clientSalt clientAddr]⟩)
    (length_paddedMessage .challengeResponse (clientSalt ^^^ env₁.randomSalt))
    (carries_paddedMessage _ _) h₂ hlocate
  have hsalt : (newPlayer env₁ s.players clientSalt clientAddr).connectionSalt =
      clientSalt ^^^ env₁.randomSalt := rfl
  rw [if_pos hsalt] at hanswer
  exact exchange_of_messages rfl
    (executeGameTurn_connectionRequest (length_paddedMessage .connectionRequest clientSalt)
      (carries_paddedMessage _ _))
    (if_pos h₁) (readsChallenge_challengeDatagram clientSalt env₁.randomSalt) rfl hanswer rfl
    (readsAccepted_acceptedDatagram _)

/-- Everything but the player ID is agreed on. -/
theorem exchange_connects (hnew : ∀ p ∈ s.players, p.address ≠ clientAddr)
    (h₁ : env₁.sendOk = true) (h₂ : env₂.sendOk = true) :
    ∃ h s' p, exchange clientSalt env₁ env₂ clientAddr c s = some (h, s') ∧
      ConnectedThrough h s' clientAddr p := by
  refine ⟨_, _, _, exchange_eq hnew h₁ h₂, List.mem_append_right _ (List.mem_singleton_self _),
    rfl, rfl, rfl, rfl⟩

/-- The client never learns the player ID its record has. -/
theorem exchange_never_agrees (hnew : ∀ p ∈ s.players, p.address ≠ clientAddr)
    (h₁ : env₁.sendOk = true) (h₂ : env₂.sendOk = true) :
    ∃ h s', exchange clientSalt env₁ env₂ clientAddr c s = some (h, s') ∧
      ¬ Agree h s' clientAddr := by
  refine ⟨_, _, exchange_eq hnew h₁ h₂, ?_⟩
  rintro ⟨p, hconnected, hid⟩
  rcases List.mem_append.mp hconnected.mem with hold | hp
  · exact hnew p hold hconnected.address
  · rw [List.mem_singleton] at hp
    subst hp
    exact newPlayer_playerID_ne_zero env₁ clientSalt hnew hid.symm

end Run

/-- The first client of an empty server. -/
theorem exchange_never_agrees_first :
    ∃ h s', exchange 5 {} {} ⟨2, 1, 1⟩ { serverAddr := ⟨2, 9, 3501⟩ } {} = some (h, s') ∧
      ¬ Agree h s' ⟨2, 1, 1⟩ :=
  exchange_never_agrees (by simp) rfl rfl

/-- It is told player ID 0 while its record has player ID 1. -/
theorem first_client_learns_wrong_id :
    ¬ ∀ (clientSalt : UInt64) (env₁ env₂ : Server.Env) (clientAddr : Address)
      (c : Client.State) (s : Server.State), (∀ p ∈ s.players, p.address ≠ clientAddr) →
      env₁.sendOk = true → env₂.sendOk = true →
      ∃ h s', exchange clientSalt env₁ env₂ clientAddr c s = some (h, s') ∧
        Agree h s' clientAddr := by
  intro h
  obtain ⟨h, s', hexchange, p, hconnected, hid⟩ :=
    h 5 {} {} ⟨2, 1, 1⟩ { serverAddr := ⟨2, 9, 3501⟩ } {} (by simp) rfl rfl
  rw [exchange_eq (by simp) rfl rfl, Option.some.injEq, Prod.mk.injEq] at hexchange
  obtain ⟨rfl, rfl⟩ := hexchange
  have hp := List.mem_singleton.mp hconnected.mem
  subst hp
  exact absurd hid (by decide)

end RocketGame.ConnectionExchange
