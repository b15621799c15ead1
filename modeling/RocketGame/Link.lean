import RocketGame.AckExchange
import RocketGame.Turns

/-!
A client and its record on the server, joined by the network. The histories hold
the datagrams that were really sent, and a delivery hands one of them to the
HandleGameState function of the other side, with the whole state of that side.
Datagrams of other clients run through the server in between. Forgetting bytes
and table gives a step of the acknowledgment protocol.
-/
namespace RocketGame.Link

open AckExchange (End EndChange Message Side markedNumbers)
open Channels FirstMatch GameMessages NetworkUtilities Packets PlayerStates PlayerTable
open NetworkPacket (ofBytes)
open Runs Turns

/-- A datagram in the history of its sender, under its 64-bit number. -/
structure Packet where
  number : UInt64
  data : Datagram
  deriving DecidableEq, Repr

structure State where
  client : Client.State
  server : Server.State := {}
  clientAddr : Address
  toServer : List Packet := []
  toClient : List Packet := []
  serverGot : List UInt64 := []
  clientGot : List UInt64 := []
  serverMarked : List UInt64 := []
  clientMarked : List UInt64 := []
  deriving DecidableEq, Repr

inductive Event
  | input (playerState : PlayerState)
  | send (env : Client.Env)
  | toServer (k : ℕ) (env : Server.Env)
  | toClient (k : ℕ) (env : Client.Env)
  | other (e : Server.Event)

def State.record (s : State) : Option Server.Player :=
  s.server.players.find? (Server.authenticates s.client.connectionSalt s.clientAddr)

def packets (number : UInt64) (sent : List (Address × Datagram)) : List Packet :=
  sent.map fun message => ⟨number, message.2⟩

def step (physics : Client.PhysicsEngine) (s : State) : Event → Option State
  | .input playerState =>
      some { s with
        client := { s.client with
          outgoingState := (s.client.outgoingState.push playerState).2 } }
  | .send env =>
      let o := Client.sendGameState physics env s.client
      some { s with
        client := o.state
        toServer := s.toServer ++ packets o.state.localSequenceNumberLarge o.sent }
  | .toServer k env => do
      let packet ← s.toServer[k]?
      let o ← Server.handleGameState env s.server ((ofBytes packet.data).advance 5) s.clientAddr
      let record := ({ s with server := o.state } : State).record
      let number := (record.map fun p => p.localSequenceNumberLarge).getD 0
      return { s with
        server := o.state
        toClient := s.toClient ++ packets number o.sent
        serverGot := packet.number :: s.serverGot
        serverMarked := s.serverMarked ++ markedNumbers o.verified }
  | .toClient k env => do
      let packet ← s.toClient[k]?
      let o ← Client.handleGameState env s.client ((ofBytes packet.data).advance 5)
      return { s with
        client := o.state
        clientGot := packet.number :: s.clientGot
        clientMarked := s.clientMarked ++ markedNumbers o.verified }
  | .other e =>
      if e.clientAddr = s.clientAddr then none
      else (Server.step s.server e).map fun server => { s with server := server }

def header (data : Datagram) : Header :=
  ((readHeader ((ofBytes data).advance 5)).map Prod.fst).getD ⟨0, 0, 0, 0⟩

theorem header_gameMessage (t : NetworkPacketType) (h : Header) (rest : List UInt8) :
    header (gameMessage t h rest) = h := by
  rw [header, readHeader_gameMessage, Option.map_some, Option.getD_some]

def Packet.message (packet : Packet) : Message := ⟨packet.number, header packet.data⟩

/-- The state of the acknowledgment protocol behind a state of the link. -/
def State.abstract (s : State) : AckExchange.State where
  salt := s.client.connectionSalt
  client := ⟨s.client.toChannel, s.toServer.map Packet.message, s.clientGot, s.clientMarked⟩
  server := ⟨(s.record.map Server.Player.toChannel).getD {}, s.toClient.map Packet.message,
    s.serverGot, s.serverMarked⟩

def State.abstractEvent (s : State) : Event → Option AckExchange.Event
  | .send env =>
      if s.client.outgoingState.items.isEmpty then none else some (.send (env.clock 0) env.sendOk)
  | .toServer k env => some (.toServer k env.clock env.sendOk)
  | .toClient k env => some (.toClient k env.clock)
  | _ => none

def IsInput (salt : UInt64) (data : Datagram) : Prop :=
  ∃ h playerState, data = gameMessage .inputFrame h (playerStateBytes playerState) ∧
    h.connectionSalt = salt

def IsReply (salt : UInt64) (data : Datagram) : Prop :=
  ∃ h players, data = gameMessage .gameState h (tableBytes players) ∧ h.connectionSalt = salt

structure WellFormed (s : State) : Prop where
  record : ∃ player, s.record = some player
  toServer : ∀ packet ∈ s.toServer, IsInput s.client.connectionSalt packet.data
  toClient : ∀ packet ∈ s.toClient, IsReply s.client.connectionSalt packet.data

/-- The step of the link is a step of the protocol, or no step of it at all. -/
def Simulates (s : State) (e : Event) (s' : State) : Prop :=
  match s.abstractEvent e with
  | none => s'.abstract = s.abstract
  | some e' => AckExchange.step s.abstract e' = some s'.abstract

theorem mem_packets {number : UInt64} {sent : List (Address × Datagram)} {packet : Packet} :
    packet ∈ packets number sent ↔ ∃ message ∈ sent, packet = ⟨number, message.2⟩ := by
  simp only [packets, List.mem_map, eq_comm]

theorem map_message_packets_ite (number : UInt64) (ok : Bool) (addr : Address)
    (data : Datagram) :
    (packets number (if ok then [(addr, data)] else [])).map Packet.message =
      if ok then [⟨number, header data⟩] else [] := by
  split <;> rfl

section Steps

variable {physics : Client.PhysicsEngine} {s s' : State}

theorem step_input (hwf : WellFormed s) (playerState : PlayerState)
    (h : step physics s (.input playerState) = some s') :
    WellFormed s' ∧ Simulates s (.input playerState) s' := by
  obtain rfl := Option.some.inj h
  exact ⟨⟨hwf.record, hwf.toServer, hwf.toClient⟩, rfl⟩

theorem step_send (hwf : WellFormed s) (env : Client.Env)
    (h : step physics s (.send env) = some s') : WellFormed s' ∧ Simulates s (.send env) s' := by
  obtain rfl := Option.some.inj h
  cases hitems : s.client.outgoingState.items with
  | nil =>
    simp only [Simulates, State.abstractEvent, hitems, sendGameState_of_empty physics env hitems,
      List.isEmpty_nil, if_true]
    refine ⟨⟨hwf.record, ?_, hwf.toClient⟩, ?_⟩
    · simpa [packets] using hwf.toServer
    · simp [State.abstract, packets, State.record]
  | cons playerState rest =>
    have hpop : s.client.outgoingState.pop = some (playerState, ⟨rest⟩) := by
      rw [Client.NetworkQueue.pop, hitems]
    obtain ⟨hchannel, hsalt, _, hsent⟩ := sendGameState_of_pop physics env hpop
    generalize Client.sendGameState physics env s.client = o at *
    have hinput : IsInput s.client.connectionSalt (nextDatagram s.client playerState) :=
      ⟨_, _, rfl, rfl⟩
    refine ⟨⟨?_, ?_, ?_⟩, ?_⟩
    · simpa only [State.record, hsalt] using hwf.record
    · intro packet hmem
      dsimp only at hmem ⊢
      rw [hsalt]
      rcases List.mem_append.mp hmem with hold | hnew
      · exact hwf.toServer packet hold
      · rw [hsent] at hnew
        obtain ⟨message, hmessage, rfl⟩ := mem_packets.mp hnew
        split at hmessage
        · obtain rfl := List.mem_singleton.mp hmessage
          exact hinput
        · cases hmessage
    · simpa only [hsalt] using hwf.toClient
    · have hevent : s.abstractEvent (.send env) = some (.send (env.clock 0) env.sendOk) := by
        simp only [State.abstractEvent, hitems, List.isEmpty_cons, Bool.false_eq_true, if_false]
      have hnew : ∀ number, (packets number o.sent).map Packet.message =
          if env.sendOk then [⟨number, nextHeader s.client⟩] else [] := by
        intro number
        rw [hsent, map_message_packets_ite, nextDatagram, header_gameMessage]
      simp only [Simulates, hevent, AckExchange.step, State.abstract, State.record, hchannel, hsalt,
        List.map_append, hnew]
      rfl

/-- The record a delivery leaves is found where the old one was. -/
theorem record_of_locate {before after : List Server.Player} {player : Server.Player}
    (player' : Server.Player)
    (hlocate : locate (Server.authenticates s.client.connectionSalt s.clientAddr) s.server.players =
      some (before, player, after))
    (hsalt : player'.connectionSalt = player.connectionSalt)
    (haddr : player'.address = player.address) :
    ({ s with server := ⟨before ++ player' :: after⟩ } : State).record = some player' := by
  obtain ⟨_, hauth, _⟩ := locate_eq_some.mp hlocate
  rw [authenticates_iff, ← hsalt, ← haddr, ← authenticates_iff] at hauth
  exact find?_of_locate (locate_replace hlocate hauth)

/-- What HandleGameState of the server does with a datagram from the client's history. -/
theorem server_delivery (hwf : WellFormed s) {packet : Packet} (hmem : packet ∈ s.toServer)
    (env : Server.Env) :
    ∃ h keyboard before player after, packet.message = ⟨packet.number, h⟩ ∧
      player.connectionSalt = s.client.connectionSalt ∧ s.record = some player ∧
      locate (Server.authenticates s.client.connectionSalt s.clientAddr) s.server.players =
        some (before, player, after) ∧
      Server.handleGameState env s.server ((ofBytes packet.data).advance 5) s.clientAddr = some
        { state := ⟨before ++ serverRecord env.clock player h keyboard :: after⟩
          sent := Server.send env
            (Server.gameStatePacket (serverReply env.clock player h keyboard)
              (serverAckBits env.clock player.toChannel h)
              (before ++ serverReply env.clock player h keyboard :: after)) player.address
          verified := (receive env.clock player.toChannel h).sendPackets
          result := 0 } := by
  obtain ⟨h, playerState, hdata, hsalt⟩ := hwf.toServer packet hmem
  obtain ⟨player, hrecord⟩ := hwf.record
  obtain ⟨before, after, hlocate⟩ := locate_of_find? hrecord
  obtain ⟨_, hauth, _⟩ := locate_eq_some.mp hlocate
  have hheader := readHeader_gameMessage .inputFrame h (playerStateBytes playerState)
  have hstate := deserializePlayerState_gameMessage .inputFrame h playerState
  rw [← hdata] at hheader hstate
  have hlocate' := hlocate
  rw [← hsalt] at hlocate'
  refine ⟨h, _, before, player, after, ?_, (authenticates_iff.mp hauth).1, hrecord, hlocate,
    server_handleGameState_eq hheader hstate hlocate'⟩
  rw [Packet.message, hdata, header_gameMessage]

theorem step_toServer (hwf : WellFormed s) (k : ℕ) (env : Server.Env)
    (h : step physics s (.toServer k env) = some s') :
    WellFormed s' ∧ Simulates s (.toServer k env) s' := by
  obtain ⟨packet, hpacket, h⟩ := Option.bind_eq_some_iff.mp h
  obtain ⟨hd, keyboard, before, player, after, hmessage, hsalt, hrecord, hlocate, ho⟩ :=
    server_delivery hwf (List.mem_of_getElem? hpacket) env
  obtain ⟨o, ho', h⟩ := Option.bind_eq_some_iff.mp h
  obtain rfl := Option.some.inj (ho.symm.trans ho')
  obtain rfl := Option.some.inj h
  have hrecord' :=
    record_of_locate (serverRecord env.clock player hd keyboard) hlocate rfl rfl
  refine ⟨⟨⟨_, hrecord'⟩, hwf.toServer, ?_⟩, ?_⟩
  · intro reply hmem
    rcases List.mem_append.mp hmem with hold | hnew
    · exact hwf.toClient reply hold
    · obtain ⟨message, hmessage, rfl⟩ := mem_packets.mp hnew
      dsimp only [Server.send] at hmessage
      split at hmessage
      · obtain rfl := List.mem_singleton.mp hmessage
        exact ⟨_, _, toDatagram_gameStatePacket _ _ _, hsalt⟩
      · cases hmessage
  · have hnew : ∀ number (players : List Server.Player), (packets number (Server.send env
          (Server.gameStatePacket (serverReply env.clock player hd keyboard)
            (serverAckBits env.clock player.toChannel hd) players) player.address)).map
          Packet.message =
        if env.sendOk then
          [⟨number, channelHeader s.client.connectionSalt
            (serverReceive env.clock player.toChannel hd).nextSequenceNumber
            (serverAckBits env.clock player.toChannel hd)⟩]
        else [] := by
      intro number players
      rw [Server.send, map_message_packets_ite, toDatagram_gameStatePacket, header_gameMessage,
        ← hsalt]
      rfl
    simp only [State.record] at hrecord hrecord'
    simp only [Simulates, State.abstractEvent, AckExchange.step, State.abstract, State.record,
      List.getElem?_map, hpacket, Option.map_some, hmessage, hrecord, hrecord', Option.getD_some,
      List.map_append, hnew]
    rfl

/-- What HandleGameState of the client does with a datagram from the server's history. -/
theorem client_delivery (hwf : WellFormed s) {packet : Packet} (hmem : packet ∈ s.toClient)
    (env : Client.Env) :
    ∃ h playerStates o, packet.message = ⟨packet.number, h⟩ ∧
      Client.handleGameState env s.client ((ofBytes packet.data).advance 5) = some o ∧
      o.state.toChannel = clientReceive env.clock s.client.toChannel h ∧
      o.state.connectionSalt = s.client.connectionSalt ∧
      o.verified = (receive env.clock s.client.toChannel h).sendPackets ∧
      o.state.incomingStates = (s.client.incomingStates.push playerStates).2 := by
  obtain ⟨h, players, hdata, hsalt⟩ := hwf.toClient packet hmem
  obtain ⟨playerStates, p, hstates⟩ := deserializePlayerStates_gameMessage .gameState h players
  have hheader := readHeader_gameMessage .gameState h (tableBytes players)
  rw [← hdata] at hheader hstates
  obtain ⟨o, ho, hchannel, hsalt', hverified, hincoming, -⟩ :=
    client_handleGameState_eq env hheader hsalt.symm hstates
  refine ⟨h, playerStates, o, ?_, ho, hchannel, hsalt', hverified, hincoming⟩
  rw [Packet.message, hdata, header_gameMessage]

theorem step_toClient (hwf : WellFormed s) (k : ℕ) (env : Client.Env)
    (h : step physics s (.toClient k env) = some s') :
    WellFormed s' ∧ Simulates s (.toClient k env) s' := by
  obtain ⟨packet, hpacket, h⟩ := Option.bind_eq_some_iff.mp h
  obtain ⟨hd, playerStates, o, hmessage, ho, hchannel, hsalt', hverified, _⟩ :=
    client_delivery hwf (List.mem_of_getElem? hpacket) env
  obtain ⟨o', ho', h⟩ := Option.bind_eq_some_iff.mp h
  obtain rfl := Option.some.inj (ho.symm.trans ho')
  obtain rfl := Option.some.inj h
  refine ⟨⟨?_, ?_, ?_⟩, ?_⟩
  · simpa only [State.record, hsalt'] using hwf.record
  · simpa only [hsalt'] using hwf.toServer
  · simpa only [hsalt'] using hwf.toClient
  · simp only [Simulates, State.abstractEvent, AckExchange.step, State.abstract, State.record,
      List.getElem?_map, hpacket, Option.map_some, hmessage, hchannel, hsalt', hverified]
    rfl

theorem find?_authenticates_of_filter {players players' : List Server.Player} {salt : UInt64}
    {addr : Address} (h : players'.filter (Server.fromAddress addr) =
      players.filter (Server.fromAddress addr)) :
    players'.find? (Server.authenticates salt addr) =
      players.find? (Server.authenticates salt addr) := by
  have hsplit : ∀ l : List Server.Player, l.find? (Server.authenticates salt addr) =
      (l.filter (Server.fromAddress addr)).find? fun p => p.connectionSalt == salt := by
    intro l
    rw [List.find?_filter]
    congr 1
    funext p
    rw [Bool.eq_iff_iff, decide_eq_true_eq, Server.authenticates, Bool.and_eq_true, and_comm]
    rfl
  rw [hsplit, hsplit, h]

theorem step_other (hwf : WellFormed s) (e : Server.Event)
    (h : step physics s (.other e) = some s') : WellFormed s' ∧ Simulates s (.other e) s' := by
  simp only [step] at h
  split at h
  · cases h
  · rename_i hne
    obtain ⟨server, hserver, rfl⟩ := Option.map_eq_some_iff.mp h
    have hrecord : ({ s with server := server } : State).record = s.record :=
      find?_authenticates_of_filter (step_others hserver (Ne.symm hne))
    refine ⟨⟨hrecord ▸ hwf.record, hwf.toServer, hwf.toClient⟩, ?_⟩
    simp only [Simulates, State.abstractEvent, State.abstract, hrecord]

/-- Datagrams once sent keep their place in the history. -/
theorem step_toClient_append {e : Event} (h : step physics s e = some s') :
    ∃ sent, s'.toClient = s.toClient ++ sent := by
  cases e with
  | toServer k env =>
    obtain ⟨packet, _, h⟩ := Option.bind_eq_some_iff.mp h
    obtain ⟨o, _, h⟩ := Option.bind_eq_some_iff.mp h
    obtain rfl := Option.some.inj h
    exact ⟨_, rfl⟩
  | toClient k env =>
    obtain ⟨packet, _, h⟩ := Option.bind_eq_some_iff.mp h
    obtain ⟨o, _, h⟩ := Option.bind_eq_some_iff.mp h
    obtain rfl := Option.some.inj h
    exact ⟨[], (List.append_nil _).symm⟩
  | other e =>
    simp only [step] at h
    split at h
    · cases h
    · obtain ⟨server, _, rfl⟩ := Option.map_eq_some_iff.mp h
      exact ⟨[], (List.append_nil _).symm⟩
  | _ =>
    obtain rfl := Option.some.inj h
    exact ⟨[], (List.append_nil _).symm⟩

/-- A delivery is never stuck: every datagram of the history is handled. -/
theorem exists_step_toServer (physics : Client.PhysicsEngine) (hwf : WellFormed s) {k : ℕ}
    {packet : Packet} (hpacket : s.toServer[k]? = some packet) (env : Server.Env) :
    ∃ s', step physics s (.toServer k env) = some s' ∧ s'.toServer = s.toServer ∧
      s'.serverGot = packet.number :: s.serverGot := by
  obtain ⟨h, keyboard, before, player, after, _, _, _, _, ho⟩ :=
    server_delivery hwf (List.mem_of_getElem? hpacket) env
  simp only [step, hpacket, ho, Option.bind_eq_bind, Option.bind_some, Option.pure_def,
    Option.some.injEq, exists_eq_left', and_self]

/-- Every step of the link keeps it well formed and is a step of the protocol,
or leaves the protocol where it is. -/
theorem step_simulates (hwf : WellFormed s) {e : Event} (h : step physics s e = some s') :
    WellFormed s' ∧ Simulates s e s' := by
  cases e with
  | input playerState => exact step_input hwf playerState h
  | send env => exact step_send hwf env h
  | toServer k env => exact step_toServer hwf k env h
  | toClient k env => exact step_toClient hwf k env h
  | other e => exact step_other hwf e h

end Steps

def Event.delivery : Event → Option (Side × ℕ)
  | toServer k _ => some (.server, k)
  | toClient k _ => some (.client, k)
  | _ => none

def State.incoming (s : State) : Side → List Packet
  | .client => s.toClient
  | .server => s.toServer

def State.got (s : State) : Side → List UInt64
  | .client => s.clientGot
  | .server => s.serverGot

def State.marked (s : State) : Side → List UInt64
  | .client => s.clientMarked
  | .server => s.serverMarked

def State.channel (s : State) : Side → Option Channel
  | .client => some s.client.toChannel
  | .server => s.record.map Server.Player.toChannel

theorem at_abstract_got (s : State) (side : Side) : (s.abstract.at side).got = s.got side := by
  cases side <;> rfl

theorem at_abstract_marked (s : State) (side : Side) :
    (s.abstract.at side).marked = s.marked side := by
  cases side <;> rfl

theorem at_abstract_sent (s : State) (side : Side) :
    (s.abstract.at side.other).sent = (s.incoming side).map Packet.message := by
  cases side <;> rfl

theorem at_abstract_channel {s : State} {side : Side} {ch : Channel}
    (h : s.channel side = some ch) : (s.abstract.at side).channel = ch := by
  cases side with
  | client => exact Option.some.inj h
  | server =>
    change (s.record.map Server.Player.toChannel).getD {} = ch
    rw [show s.record.map Server.Player.toChannel = some ch from h, Option.getD_some]

theorem abstractEvent_delivery {s : State} {e : Event} {e' : AckExchange.Event}
    (h : s.abstractEvent e = some e') : e'.delivery = e.delivery := by
  cases e with
  | send env =>
    simp only [State.abstractEvent] at h
    split at h
    · cases h
    · obtain rfl := Option.some.inj h
      rfl
  | toServer k env =>
    obtain rfl := Option.some.inj h
    rfl
  | toClient k env =>
    obtain rfl := Option.some.inj h
    rfl
  | _ => cases h

/-- An invariant of the protocol survives a step of the link, when it survives
every change of an end that the delivery allows. -/
theorem step_protocol {physics : Client.PhysicsEngine} {s s' : State} {e : Event}
    {J : AckExchange.State → Prop} {D : Side → Message → Prop} (hwf : WellFormed s)
    (hJ : J s.abstract) (hs : step physics s e = some s')
    (hD : ∀ side k packet, e.delivery = some (side, k) → (s.incoming side)[k]? = some packet →
      D side packet.message)
    (hstep : ∀ a', (∀ side, EndChange (D side) (s.abstract.at side) (s.abstract.at side.other)
      (a'.at side)) → J a') :
    WellFormed s' ∧ J s'.abstract := by
  obtain ⟨hwf', hsim⟩ := step_simulates hwf hs
  refine ⟨hwf', ?_⟩
  unfold Simulates at hsim
  split at hsim
  · rwa [hsim]
  · rename_i e' hevent
    refine hstep _ fun side => AckExchange.step_change hsim side fun k m hdelivery hm => ?_
    rw [abstractEvent_delivery hevent] at hdelivery
    rw [at_abstract_sent, List.getElem?_map, Option.map_eq_some_iff] at hm
    obtain ⟨packet, hpacket, rfl⟩ := hm
    exact hD side k packet hdelivery hpacket

/-- Invariants of the protocol hold along runs of the link. -/
theorem always_protocol {physics : Client.PhysicsEngine} {s : State} {events : List Event}
    {J Q : AckExchange.State → Prop} {C : State → Event → Prop}
    {D : AckExchange.State → Side → Message → Prop} (hwf : WellFormed s) (hJ : J s.abstract)
    (hD : ∀ s e side k packet, C s e → e.delivery = some (side, k) →
      (s.incoming side)[k]? = some packet → D s.abstract side packet.message)
    (hstep : ∀ a a', J a →
      (∀ side, EndChange (D a side) (a.at side) (a.at side.other) (a'.at side)) → Q a' → J a')
    (hQ : Always (step physics) (fun t => Q t.abstract) s events)
    (hC : Throughout (step physics) C s events) :
    Always (step physics) (fun t => WellFormed t ∧ J t.abstract) s events := by
  refine always_of_invariant ⟨hwf, hJ⟩ ?_ hQ hC
  rintro s e s' ⟨hwf, hJ⟩ hC hs hQ'
  have hnext := step_protocol (J := fun a => Q a → J a) hwf (fun _ => hJ) hs
    (fun side k packet => hD s e side k packet hC) (fun a' hchange => hstep _ a' hJ hchange)
  exact ⟨hnext.1, hnext.2 hQ'⟩

/-- The connection has just been made: both ends are fresh and nothing is in flight. -/
structure Initial (s : State) : Prop where
  record : ∃ player, s.record = some player ∧ player.toChannel = {}
  client : s.client.toChannel = {}
  toServer : s.toServer = []
  toClient : s.toClient = []
  serverGot : s.serverGot = []
  clientGot : s.clientGot = []
  serverMarked : s.serverMarked = []
  clientMarked : s.clientMarked = []

theorem Initial.wellFormed {s : State} (h : Initial s) : WellFormed s where
  record := by
    obtain ⟨player, hrecord, _⟩ := h.record
    exact ⟨player, hrecord⟩
  toServer := by simp [h.toServer]
  toClient := by simp [h.toClient]

theorem Initial.abstract {s : State} (h : Initial s) :
    s.abstract = { salt := s.client.connectionSalt } := by
  obtain ⟨player, hrecord, hchannel⟩ := h.record
  simp only [State.abstract, h.client, h.toServer, h.toClient, h.serverGot, h.clientGot,
    h.serverMarked, h.clientMarked, hrecord, Option.map_some, Option.getD_some, hchannel,
    List.map_nil]

def paired (inputs : List PlayerState) : State where
  client := { serverAddr := ⟨2, 9, 3501⟩, connectionSalt := 7, connectionState := .connected,
              outgoingState := ⟨inputs⟩ }
  server := ⟨[{ address := ⟨2, 1, 1⟩, connectionSalt := 7, connectionState := .connected }]⟩
  clientAddr := ⟨2, 1, 1⟩

theorem initial_paired (inputs : List PlayerState) : Initial (paired inputs) :=
  ⟨⟨_, rfl, rfl⟩, rfl, rfl, rfl, rfl, rfl, rfl, rfl⟩

end RocketGame.Link
