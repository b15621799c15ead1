import Mathlib.Logic.Function.Basic
import RocketGame.GameNetwork
import RocketGame.OtherRocketUpdate
import RocketGame.RelayRegistry

/-!
The whole .NET game: any number of clients, each with its two threads, the server, and
the network. The network keeps every datagram ever sent and hands over any of them at
any time, any number of times or never. What each client has sent, with the stamps, and
what its other rocket has accepted are kept as histories.
-/
namespace RocketGame.RelaySystem

open GameNetwork OtherRocketUpdate PacketRoundTrip RocketMotion RocketServer RocketShared
open RunningMaxima ShotReceiving Runs
open NetworkPacket (fromBytes getBytes)

structure Deployment (ι F : Type) where
  arithmetic : Arithmetic F
  content : Content
  settings : GameSettings
  crc32 : Crc32
  address : ι → IPEndPoint

structure Client (F : Type) where
  game : GameThread F
  network : GameNetwork.State := { status := .connected }
  other : Other F
  sent : List NetworkPacket := []
  taken : List NetworkPacket := []

structure System (ι F : Type) where
  clients : ι → Client F
  server : Server := {}
  toServer : List Sent := []
  toClients : List Sent := []

/-- A step of a client's game thread, a turn of its network thread, a frame of its other
rocket or its end; or a turn of the server. -/
inductive Event (ι F : Type)
  | update (i : ι) (keyboardState : KeyboardState) (deltaTime : F)
  | game (i : ι)
  | network (i : ι) (utcNow : Int64) (receptions : List GameNetwork.Reception)
  | updateOther (i : ι) (deltaTime : F) (utcNow : ℕ → Int64)
  | unload (i : ι)
  | serve (k : ℕ) (now : DateTime) (checkedAt restartedAt : ℕ)

variable {ι F : Type} (d : Deployment ι F)

section Client

variable (c : Client F)

def Client.outgoing : List NetworkPacket :=
  c.game.handOver.outgoing.map RocketUpdate.Queued.packet

def Client.stamped (utcNow : Int64) : List NetworkPacket :=
  (c.outgoing.take 1).map fun packet => { packet with ticks := utcNow }

def Client.turn (utcNow : Int64) (receptions : List GameNetwork.Reception) :
    Except ApplicationException (Client F × List Datagram) :=
  (GameNetwork.turn d.crc32 { c.network with outgoing := c.outgoing } ⟨utcNow, receptions⟩).map
    fun (network, data) =>
      ({ c with
          game := { c.game with handOver := RocketUpdate.dequeueToSend c.game.handOver }
          network
          sent := c.sent ++ c.stamped utcNow }, data)

def Client.updateOther (deltaTime : F) (utcNow : ℕ → Int64) : Client F :=
  let incoming := c.network.incoming
  { c with
    network := { c.network with incoming := [] }
    other := c.other.update d.arithmetic d.content d.settings ⟨deltaTime, incoming, utcNow⟩
    taken := c.taken ++ accepted c.other.next.ticks incoming }

def Client.unload : Client F := { c with network := { c.network with status := .disconnected } }

end Client

def start (negPiOver2 : F) : System ι F where
  clients _ :=
    { game := { rocket := initializeRocket d.arithmetic d.settings negPiOver2 }
      other := initializeOther d.arithmetic d.settings negPiOver2 }

/-- What a client can receive now: a datagram sent to it, or an exception of its socket. -/
def System.Receivable (s : System ι F) (i : ι) : GameNetwork.Reception → Prop
  | .socketException => True
  | .receivedBytes data => (d.address i, data) ∈ s.toClients

instance (s : System ι F) (i : ι) : DecidablePred (s.Receivable d i)
  | .socketException => isTrue True.intro
  | .receivedBytes data => inferInstanceAs (Decidable ((d.address i, data) ∈ s.toClients))

def System.reception (m : Sent) (now : DateTime) (checkedAt restartedAt : ℕ) :
    RocketServer.Reception where
  remoteEndpoint := m.1
  receivedBytes := m.2
  now
  checkedAt
  restartedAt

def System.serve (s : System ι F) (out : Server × List Sent) : System ι F :=
  { s with server := out.1, toClients := s.toClients ++ out.2 }

variable [DecidableEq ι]

def System.proceed (s : System ι F) (i : ι) (c : Client F) (data : List Datagram) : System ι F :=
  { s with
    clients := Function.update s.clients i c
    toServer := s.toServer ++ data.map fun data => (d.address i, data) }

def step (s : System ι F) : Event ι F → Option (System ι F)
  | .update i keyboardState deltaTime =>
      let c := s.clients i
      (RocketMotion.step d.arithmetic d.content d.settings c.game
        (.update keyboardState deltaTime)).map fun game => s.proceed d i { c with game } []
  | .game i =>
      let c := s.clients i
      (RocketMotion.step d.arithmetic d.content d.settings c.game .game).map
        fun game => s.proceed d i { c with game } []
  | .network i utcNow receptions =>
      let c := s.clients i
      if c.network.status ≠ .disconnected ∧ ∀ r ∈ receptions, s.Receivable d i r then
        (c.turn d utcNow receptions).toOption.map fun out => s.proceed d i out.1 out.2
      else none
  | .updateOther i deltaTime utcNow =>
      some (s.proceed d i ((s.clients i).updateOther d deltaTime utcNow) [])
  | .unload i => some (s.proceed d i (s.clients i).unload [])
  | .serve k now checkedAt restartedAt =>
      s.toServer[k]?.bind fun m =>
        (RocketServer.turn d.crc32 s.server
          (.received (System.reception m now checkedAt restartedAt))).toOption.map s.serve

section Lemmas

omit [DecidableEq ι] in
theorem toOption_eq_some {ε α : Type*} {x : Except ε α} {y : α} :
    x.toOption = some y ↔ x = .ok y := by
  cases x with
  | error e => exact iff_of_false nofun nofun
  | ok z => exact ⟨fun h => congrArg _ (Option.some.inj h), fun h => by rw [h]; rfl⟩

variable {s : System ι F} {i j : ι} {c : Client F} {data : List Datagram}

theorem proceed_clients_same : (s.proceed d i c data).clients i = c := Function.update_self ..

theorem proceed_clients_ne (h : j ≠ i) : (s.proceed d i c data).clients j = s.clients j :=
  Function.update_of_ne h ..

/-- A property of every client survives when it holds of the one that moved. -/
theorem proceed_clients {P : ι → Client F → Prop} (hs : ∀ j, P j (s.clients j)) (hi : P i c)
    (j : ι) : P j ((s.proceed d i c data).clients j) := by
  by_cases h : j = i
  · subst h
    rwa [proceed_clients_same]
  · rw [proceed_clients_ne d h]
    exact hs j

end Lemmas

end RocketGame.RelaySystem
