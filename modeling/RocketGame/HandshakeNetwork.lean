import RocketGame.ConnectionExchange
import RocketGame.Turns

/-!
One client that calls EstablishConnection again and again, one server, and the
datagrams between them. The network keeps every datagram ever sent and hands over
any of them at any time, any number of times or never. A datagram of the client is
kept with the number of the call that sent it, an answer of the server with the
number of the datagram it answers. The turns of the server are kept as a history.
-/
namespace RocketGame.HandshakeNetwork

open Client (Attempt Handshake Received receiveAccepted receiveChallenge requestConnection)
open NetworkUtilities Packets PlayerTable Server

/-- A datagram in the network and the call of EstablishConnection it belongs to. -/
structure Sent where
  data : Datagram
  call : ℕ
  deriving DecidableEq, Repr

structure ServerTurn where
  data : Datagram
  outcome : Outcome

structure System where
  client : Client.State
  attempt : Attempt := .returned 1
  server : State := {}
  clientSalts : List UInt64 := []
  toServer : List Sent := []
  toClient : List Sent := []
  turns : List ServerTurn := []

def System.call (s : System) : ℕ := s.clientSalts.length

def System.proceed (s : System) (h : Handshake) : System :=
  { s with
    client := h.state
    attempt := h.attempt
    toServer := s.toServer ++ h.sent.map fun message => ⟨message.2, s.call⟩ }

def System.receive (s : System) (sendOk : Bool) (received : Received) : Option System :=
  match s.attempt with
  | .awaitingChallenge clientSalt =>
      (receiveChallenge clientSalt sendOk received s.client).map s.proceed
  | .awaitingAccepted clientSalt serverSalt =>
      (receiveAccepted clientSalt serverSalt received s.client).map s.proceed
  | .returned _ => none

/-- A call with a fresh salt, or one datagram handed over, or a Receive without one. -/
inductive Event
  | establishConnection (clientSalt : UInt64) (sendOk : Bool)
  | toServer (k : ℕ) (env : Env)
  | toClient (k : ℕ) (sendOk : Bool)
  | timeout
  | failure

variable (clientAddr : Address)

def System.serve (s : System) (sent : Sent) (o : Outcome) : System :=
  { s with
    server := o.state
    toClient := s.toClient ++
      (o.sent.filter fun message => message.1 = clientAddr).map fun message =>
        ⟨message.2, sent.call⟩
    turns := s.turns ++ [⟨sent.data, o⟩] }

def step (s : System) : Event → Option System
  | .establishConnection clientSalt sendOk =>
      match s.attempt with
      | .returned _ =>
          if clientSalt ∈ s.clientSalts then none
          else
            let s := { s with clientSalts := s.clientSalts ++ [clientSalt] }
            some (s.proceed (requestConnection clientSalt sendOk s.client))
      | _ => none
  | .toServer k env => do
      let sent ← s.toServer[k]?
      let o ← executeGameTurn env s.server sent.data clientAddr
      return s.serve clientAddr sent o
  | .toClient k sendOk => do
      let sent ← s.toClient[k]?
      s.receive sendOk (.packet s.client.serverAddr sent.data)
  | .timeout => s.receive true .timeout
  | .failure => s.receive true .failure

structure Initial (s : System) : Prop where
  disconnected : s.client.connectionState ≠ .connected
  attempt : ∃ result, s.attempt = .returned result
  clientSalts : s.clientSalts = []
  toServer : s.toServer = []
  toClient : s.toClient = []
  turns : s.turns = []

end RocketGame.HandshakeNetwork
