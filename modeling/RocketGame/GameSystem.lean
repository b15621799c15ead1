import RocketGame.ClientTurns
import Mathlib.Logic.Function.Basic

/-!
The whole game: any number of clients, the server, the queues between each client's
network thread and its game, and the network. The network keeps every datagram ever
sent and hands over any of them at any time, any number of times or never, to the
address it was sent to. The records the server makes are kept as a history.
-/
namespace RocketGame.GameSystem

open Client ClientProgram ClientTurns DatagramSafety GameMessages HandshakeMessages
open NetworkUtilities Packets PlayerStates PlayerTable Server Turns

/-- The parts of a deployment that no step changes: each client has an address of
its own, and they all know the server's. -/
structure Deployment (ι : Type) where
  physics : PhysicsEngine
  serverAddr : Address
  clientAddr : ι → Address
  injective : Function.Injective clientAddr
  apart : ∀ i, clientAddr i ≠ serverAddr

structure Packet where
  sender : Address
  receiver : Address
  data : Datagram
  deriving DecidableEq, Repr

structure System (ι : Type) where
  clients : ι → Program
  server : Server.State := {}
  serverRunning : Bool := true
  network : List Packet := []
  issued : List Player := []

/-- What a client does without a datagram: a call, an empty or failed Receive, or the
signal that clears running. -/
inductive Action
  | establishConnection (clientSalt : UInt64) (env : Client.Env)
  | syncClock (env : Client.Env)
  | executeGame (env : Client.Env)
  | timeout (env : Client.Env)
  | failure (env : Client.Env)
  | interrupt

def Action.event : Action → ClientProgram.Event
  | .establishConnection clientSalt env => .establishConnection clientSalt env
  | .syncClock env => .syncClock env
  | .executeGame env => .executeGame env
  | .timeout env => .receive .timeout env
  | .failure env => .receive .failure env
  | .interrupt => .interrupt

/-- One step of a client, one datagram handed over, one frame of a client's game, or an end. -/
inductive Event (ι : Type)
  | act (i : ι) (a : Action)
  | toClient (i : ι) (k : ℕ) (env : Client.Env)
  | toServer (k : ℕ) (env : Server.Env)
  | input (i : ι) (playerState : PlayerState)
  | update (i : ι)
  | quitGame (i : ι) (sendOk : Bool)
  | stop (env : Server.Env)

variable {ι : Type} (d : Deployment ι)

def start : System ι where
  clients _ := { serverAddr := d.serverAddr }

def post (sender : Address) (sent : List (Address × Datagram)) : List Packet :=
  sent.map fun message => ⟨sender, message.1, message.2⟩

def System.serve (s : System ι) (o : Server.Outcome) : System ι :=
  { s with
    server := o.state
    network := s.network ++ post d.serverAddr o.sent
    issued := s.issued ++ o.state.players.drop s.server.players.length }

structure Caused (s : System ι) (i : ι) (e : Event ι) (cause : ClientProgram.Event) : Prop where
  delivered : ∀ sender data env, cause = .receive (.packet sender data) env →
    ⟨sender, d.clientAddr i, data⟩ ∈ s.network
  called : ∀ clientSalt env, cause = .establishConnection clientSalt env →
    e = .act i (.establishConnection clientSalt env)

theorem caused_of_act (s : System ι) (i : ι) (a : Action) : Caused d s i (.act i a) a.event where
  delivered := by
    rintro sender data env h
    cases a <;> cases h
  called := by
    rintro clientSalt env h
    cases a with
    | establishConnection => cases h; rfl
    | _ => cases h

theorem caused_of_receive {s : System ι} {i : ι} {packet : Packet} (e : Event ι) (env : Client.Env)
    (hpacket : packet ∈ s.network) (hreceiver : packet.receiver = d.clientAddr i) :
    Caused d s i e (.receive (.packet packet.sender packet.data) env) where
  delivered := by
    rintro sender data env h
    cases h
    rw [← hreceiver]
    exact hpacket
  called := by
    rintro clientSalt env h
    cases h

variable [DecidableEq ι]

def System.proceed (s : System ι) (i : ι) (p : Progress) : System ι :=
  { s with
    clients := Function.update s.clients i p.program
    network := s.network ++ post (d.clientAddr i) p.sent }

def step (s : System ι) : Event ι → Option (System ι)
  | .act i a => (progress d.physics (s.clients i) a.event).map (s.proceed d i)
  | .toClient i k env => do
      let packet ← s.network[k]?
      if packet.receiver ≠ d.clientAddr i then none
      else (progress d.physics (s.clients i)
        (.receive (.packet packet.sender packet.data) env)).map (s.proceed d i)
  | .toServer k env => do
      let packet ← s.network[k]?
      if packet.receiver ≠ d.serverAddr ∨ s.serverRunning = false then none
      else (executeGameTurn env s.server packet.data packet.sender).map (s.serve d)
  | .input i playerState =>
      let c := s.clients i
      some (s.proceed d i
        { program := { c with outgoingState := (c.outgoingState.push playerState).2 } })
  | .update i =>
      let c := s.clients i
      match c.incomingStates.pop with
      | none => some s
      | some (_, incomingStates) =>
          some (s.proceed d i { program := { c with incomingStates := incomingStates } })
  | .quitGame i sendOk =>
      let c := s.clients i
      match c.phase with
      | .returned _ =>
        some (s.proceed d i { program := c, sent := Client.quitGame sendOk c.toState })
      | _ => none
  | .stop env =>
      if s.serverRunning then
        some { s with
          serverRunning := false
          network := s.network ++ post d.serverAddr (Server.quitGame env s.server) }
      else none

theorem step_toServer {s : System ι} {k : ℕ} {packet : Packet} {env : Server.Env}
    {o : Server.Outcome} (hpacket : s.network[k]? = some packet)
    (hreceiver : packet.receiver = d.serverAddr) (hrunning : s.serverRunning = true)
    (hserver : executeGameTurn env s.server packet.data packet.sender = some o) :
    step d s (.toServer k env) = some (s.serve d o) := by
  simp only [step, hpacket, hreceiver, hrunning, hserver, Option.bind_eq_bind, Option.bind_some,
    ne_eq, not_true_eq_false, Bool.true_eq_false, or_self, if_false, Option.map_some]

theorem step_toClient {s : System ι} {i : ι} {k : ℕ} {packet : Packet} {env : Client.Env}
    {p : Progress} (hpacket : s.network[k]? = some packet)
    (hreceiver : packet.receiver = d.clientAddr i)
    (hclient : progress d.physics (s.clients i)
      (.receive (.packet packet.sender packet.data) env) = some p) :
    step d s (.toClient i k env) = some (s.proceed d i p) := by
  simp only [step, hpacket, hreceiver, hclient, Option.bind_eq_bind, Option.bind_some, ne_eq,
    not_true_eq_false, if_false, Option.map_some]

inductive Change (s : System ι) : Event ι → System ι → Prop
  | idle (e : Event ι) : Change s e s
  | moved (i : ι) (e : Event ι) (cause : ClientProgram.Event) (p : Progress)
      (hmove : Move d.physics (s.clients i) cause p) (hcaused : Caused d s i e cause) :
      Change s e (s.proceed d i p)
  | served (k : ℕ) (packet : Packet) (env : Server.Env) (o : Server.Outcome)
      (hpacket : packet ∈ s.network) (hreceiver : packet.receiver = d.serverAddr)
      (hturn : Turn env s.server packet.data packet.sender o) :
      Change s (.toServer k env) (s.serve d o)
  | queued (i : ι) (playerState : PlayerState) (outgoingState : NetworkQueue PlayerState) :
      Change s (.input i playerState) (s.proceed d i
        { program := { s.clients i with outgoingState := outgoingState } })
  | shown (i : ι) (playerStates : List PlayerState)
      (incomingStates : NetworkQueue (List PlayerState))
      (hpop : (s.clients i).incomingStates.pop = some (playerStates, incomingStates)) :
      Change s (.update i) (s.proceed d i
        { program := { s.clients i with incomingStates := incomingStates } })
  | left (i : ι) (sendOk : Bool) :
      Change s (.quitGame i sendOk) (s.proceed d i
        { program := s.clients i, sent := Client.quitGame sendOk (s.clients i).toState })
  | stopped (env : Server.Env) :
      Change s (.stop env) { s with
        serverRunning := false
        network := s.network ++ post d.serverAddr (Server.quitGame env s.server) }

theorem change_of_step {s s' : System ι} {e : Event ι} (h : step d s e = some s') :
    Change d s e s' := by
  cases e with
  | act i a =>
    obtain ⟨p, hp, rfl⟩ := Option.map_eq_some_iff.mp h
    exact .moved i _ _ p (move_of_progress d.physics hp) (caused_of_act d s i a)
  | toClient i k env =>
    obtain ⟨packet, hpacket, h⟩ := Option.bind_eq_some_iff.mp h
    split at h
    · cases h
    · rename_i hreceiver
      obtain ⟨p, hp, rfl⟩ := Option.map_eq_some_iff.mp h
      exact .moved i _ _ p (move_of_progress d.physics hp)
        (caused_of_receive d _ env (List.mem_of_getElem? hpacket) (not_not.mp hreceiver))
  | toServer k env =>
    obtain ⟨packet, hpacket, h⟩ := Option.bind_eq_some_iff.mp h
    split at h
    · cases h
    · rename_i hreceiver
      obtain ⟨o, ho, rfl⟩ := Option.map_eq_some_iff.mp h
      exact .served k packet env o (List.mem_of_getElem? hpacket)
        (not_not.mp (not_or.mp hreceiver).1) (turn_of_executeGameTurn ho)
  | input i playerState =>
    obtain rfl := Option.some.inj h
    exact .queued i playerState _
  | update i =>
    dsimp only [step] at h
    split at h
    · obtain rfl := Option.some.inj h
      exact .idle _
    · rename_i playerStates incomingStates hpop
      obtain rfl := Option.some.inj h
      exact .shown i playerStates incomingStates hpop
  | quitGame i sendOk =>
    dsimp only [step] at h
    split at h
    · obtain rfl := Option.some.inj h
      exact .left i sendOk
    · cases h
  | stop env =>
    dsimp only [step] at h
    split at h
    · obtain rfl := Option.some.inj h
      exact .stopped env
    · cases h

section Lemmas

variable {s : System ι} {i j : ι} {p : Progress} {packet : Packet}

@[simp] theorem proceed_server : (s.proceed d i p).server = s.server := rfl

@[simp] theorem proceed_issued : (s.proceed d i p).issued = s.issued := rfl

theorem proceed_clients_same : (s.proceed d i p).clients i = p.program :=
  Function.update_self ..

theorem proceed_clients_ne (h : j ≠ i) : (s.proceed d i p).clients j = s.clients j :=
  Function.update_of_ne h ..

/-- A property of every client survives when it holds of the one that moved. -/
theorem proceed_clients {P : ι → Program → Prop} (hs : ∀ j, P j (s.clients j))
    (hi : P i p.program) (j : ι) : P j ((s.proceed d i p).clients j) := by
  by_cases h : j = i
  · subst h
    rwa [proceed_clients_same]
  · rw [proceed_clients_ne d h]
    exact hs j

theorem mem_post {sender : Address} {sent : List (Address × Datagram)} :
    packet ∈ post sender sent ↔
      packet.sender = sender ∧ (packet.receiver, packet.data) ∈ sent := by
  constructor
  · intro h
    obtain ⟨message, hmessage, rfl⟩ := List.mem_map.mp h
    exact ⟨rfl, hmessage⟩
  · rintro ⟨rfl, h⟩
    exact List.mem_map.mpr ⟨_, h, rfl⟩

end Lemmas

section Answers

variable {env : Server.Env} {s : Server.State} {data : Datagram} {addr : Address}
  {o : Server.Outcome} {message : Address × Datagram}

inductive Answer (data : Datagram) (appended : List Player) : Address × Datagram → Prop
  | challenge (p : Player) (hp : p ∈ appended) :
      Answer data appended (p.address, challengeDatagram p.clientSalt p.serverSalt)
  | accepted (addr : Address) (playerID : UInt8) :
      Answer data appended (addr, acceptedDatagram playerID)
  | denied (addr : Address) : Answer data appended (addr, deniedDatagram)
  | clockResponse (addr : Address) (now : Int64) :
      Answer data appended (addr, clockResponseDatagram now)
  | gameState (addr : Address) (h : Header) (rest : List UInt8)
      (hdata : typeField data = some .gameState) :
      Answer data appended (addr, gameMessage .gameState h rest)

theorem mem_answer (h : message ∈ answer env addr data) : message = (addr, data) := by
  unfold answer at h
  split at h
  · exact List.mem_singleton.mp h
  · exact absurd h List.not_mem_nil

theorem answer_of_turn (h : Turn env s data addr o) (hmem : message ∈ o.sent) :
    Answer data (o.state.players.drop s.players.length) message := by
  cases h with
  | dropped | unknown | ended => exact absurd hmem List.not_mem_nil
  | requested clientSalt hsize hdata =>
    obtain rfl := mem_answer hmem
    refine .challenge (newPlayer env s.players clientSalt addr) ?_
    rw [List.drop_left]
    exact List.mem_singleton_self _
  | accepted salt before after player hsize hdata hlocate hsalt =>
    obtain rfl := mem_answer hmem
    exact .accepted addr player.playerID
  | denied salt before after player hsize hdata hlocate hsalt =>
    obtain rfl := mem_answer hmem
    exact .denied addr
  | synced salt clientTime before after player hdata hlocate =>
    obtain rfl := mem_answer hmem
    exact .clockResponse player.address _
  | played header keyboard before after player hdata hlocate =>
    obtain rfl := mem_answer hmem
    exact .gameState player.address _ _ (typeField_of_carries hdata)

/-- The type of an answer; a GAME_STATE answers a GAME_STATE alone. -/
theorem Answer.type {appended : List Player} (h : Answer data appended message) :
    typeField message.2 = some .challenge ∨ typeField message.2 = some .connectionAccepted ∨
      typeField message.2 = some .connectionDenied ∨ typeField message.2 = some .clockResponse ∨
      typeField message.2 = some .gameState ∧ typeField data = some .gameState := by
  cases h with
  | challenge p hp => exact Or.inl (typeField_sealed .challenge _)
  | accepted addr playerID => exact Or.inr (Or.inl (typeField_sealed .connectionAccepted _))
  | denied addr => exact Or.inr (Or.inr (Or.inl (typeField_sealed .connectionDenied _)))
  | clockResponse addr now =>
    exact Or.inr (Or.inr (Or.inr (Or.inl (typeField_sealed .clockResponse _))))
  | gameState addr header rest hdata =>
    exact Or.inr (Or.inr (Or.inr (Or.inr ⟨typeField_sealed .gameState _, hdata⟩)))

theorem challenge_of_answer {appended : List Player} (h : Answer data appended message)
    (htype : typeField message.2 = some .challenge) :
    ∃ p ∈ appended, message.1 = p.address ∧
      message.2 = challengeDatagram p.clientSalt p.serverSalt := by
  cases h with
  | challenge p hp => exact ⟨p, hp, rfl, rfl⟩
  | accepted addr playerID => cases (typeField_sealed .connectionAccepted _).symm.trans htype
  | denied addr => cases (typeField_sealed .connectionDenied _).symm.trans htype
  | clockResponse addr now => cases (typeField_sealed .clockResponse _).symm.trans htype
  | gameState addr header rest hdata => cases (typeField_sealed .gameState _).symm.trans htype

/-- A turn appends nothing, or the record of the request it answers. -/
theorem appended_of_turn (h : Turn env s data addr o) :
    o.state.players.drop s.players.length = [] ∨
      ∃ clientSalt, Carries data .connectionRequest clientSalt ∧
        o.state.players.drop s.players.length = [newPlayer env s.players clientSalt addr] := by
  have hshort : ∀ players : List Player, players.length ≤ s.players.length →
      players.drop s.players.length = [] := fun _ => List.drop_eq_nil_of_le
  have hchange := tableChange_of_turn h
  generalize o.state.players = players at hchange ⊢
  cases hchange with
  | same => exact Or.inl (hshort _ le_rfl)
  | added clientSalt hsize hdata => exact Or.inr ⟨clientSalt, hdata, List.drop_left⟩
  | changed before after player player' hplayers haddr hsame =>
    refine Or.inl (hshort _ ?_)
    simp only [hplayers, List.length_append, List.length_cons, le_refl]
  | erased before after player hplayers haddr =>
    refine Or.inl (hshort _ ?_)
    simp only [hplayers, List.length_append, List.length_cons]
    omega
  | removed salt => exact Or.inl (hshort _ (List.length_filter_le _ _))

theorem sameIdentity_refl (p : Player) : SameIdentity p p := ⟨rfl, rfl, rfl, rfl, rfl⟩

theorem sameIdentity_trans {p q r : Player} (h : SameIdentity p q) (h' : SameIdentity q r) :
    SameIdentity p r :=
  ⟨h'.playerID.trans h.playerID, h'.address.trans h.address, h'.clientSalt.trans h.clientSalt,
    h'.serverSalt.trans h.serverSalt, h'.connectionSalt.trans h.connectionSalt⟩

/-- A record after a turn continues one before it, or the turn appended it. -/
theorem record_of_turn {p : Player} (h : Turn env s data addr o) (hp : p ∈ o.state.players) :
    (∃ q ∈ s.players, SameIdentity q p) ∨ p ∈ o.state.players.drop s.players.length := by
  have hkept : ∀ q ∈ s.players, ∃ q' ∈ s.players, SameIdentity q' q :=
    fun q hq => ⟨q, hq, sameIdentity_refl q⟩
  have hchange := tableChange_of_turn h
  generalize o.state.players = players at hchange hp ⊢
  cases hchange with
  | same => exact Or.inl (hkept p hp)
  | added clientSalt hsize hdata =>
    rw [List.drop_left]
    exact (List.mem_append.mp hp).imp_left (hkept p)
  | changed before after player player' hplayers haddr hsame =>
    rw [hplayers] at hkept ⊢
    rcases List.mem_append.mp hp with hp | hp
    · exact Or.inl (hkept p (List.mem_append_left _ hp))
    · rcases List.mem_cons.mp hp with rfl | hp
      · exact Or.inl ⟨player, List.mem_append_right _ List.mem_cons_self, hsame⟩
      · exact Or.inl (hkept p (List.mem_append_right _ (List.mem_cons_of_mem _ hp)))
  | erased before after player hplayers haddr =>
    rw [hplayers] at hkept ⊢
    rcases List.mem_append.mp hp with hp | hp
    · exact Or.inl (hkept p (List.mem_append_left _ hp))
    · exact Or.inl (hkept p (List.mem_append_right _ (List.mem_cons_of_mem _ hp)))
  | removed salt => exact Or.inl (hkept p (List.mem_of_mem_filter hp))

end Answers

end RocketGame.GameSystem
