import RocketGame.ClientProgram
import RocketGame.HandshakeGating

/-!
SyncClock and the server, joined by the network. The network keeps every CLOCK and
every CLOCK_RESPONSE and hands over any of them at any time, any number of times or
never; each is kept with the instant of its step, a response also with the CLOCK it
answers. A Receive of SyncClock may also return without a datagram or with one that
is no CLOCK_RESPONSE.
-/
namespace RocketGame.ClockNetwork

open Client ClientProgram DatagramSafety FirstMatch HandshakeGating NetworkUtilities
open Packets PlayerTable Turns
open NetworkPacket (ofBytes)

/-- A CLOCK of the client in the network, and when it was sent. -/
structure Request where
  data : Datagram
  sentAt : ℕ
  deriving DecidableEq, Repr

/-- A CLOCK_RESPONSE in the network, the place of the CLOCK it answers in the history
of the client, and when the server handled that one. -/
structure Response where
  data : Datagram
  request : ℕ
  stampedAt : ℕ
  deriving DecidableEq, Repr

/-- What SyncClock measured with: its send time and the CLOCK it was taken for, the
response, and when that arrived. -/
structure Sample where
  sendNowEpoch : Int64
  request : ℕ
  response : Response
  receivedAt : ℕ
  deriving DecidableEq, Repr

structure System where
  client : Program
  server : Server.State := {}
  instant : ℕ := 0
  toServer : List Request := []
  toClient : List Response := []
  samples : List Sample := []

/-- A call of SyncClock, a datagram handed over, a Receive that returns anything but a
CLOCK_RESPONSE, or a datagram of somebody else handled by the server. -/
inductive Event
  | syncClock (env : Client.Env)
  | toServer (k : ℕ) (env : Server.Env)
  | toClient (k : ℕ) (env : Client.Env)
  | receive (received : Received) (env : Client.Env)
  | other (e : Server.Event)

def System.proceed (s : System) (p : Progress) : System :=
  { s with
    client := p.program
    toServer := s.toServer ++ p.sent.map fun message => ⟨message.2, s.instant⟩ }

/-- SyncClock takes a sample from every CLOCK_RESPONSE it gets while it waits. -/
def System.sampled (s : System) (sync : ClockSync) (response : Response) : List Sample :=
  if typeField response.data = some .clockResponse then
    [⟨sync.sendNowEpoch, s.toServer.length - 1, response, s.instant⟩]
  else []

def IsResponse (serverAddr : Address) : Received → Prop
  | .packet sender data => sender = serverAddr ∧ typeField data = some .clockResponse
  | _ => False

instance (serverAddr : Address) (received : Received) :
    Decidable (IsResponse serverAddr received) := by
  unfold IsResponse
  split <;> infer_instance

variable (clientAddr : Address)

def System.serve (s : System) (k : ℕ) (o : Server.Outcome) : System :=
  { s with
    server := o.state
    toClient := s.toClient ++
      (o.sent.filter fun message => message.1 = clientAddr).map fun message =>
        ⟨message.2, k, s.instant⟩ }

def act (s : System) : Event → Option System
  | .syncClock env =>
      match s.client.phase with
      | .returned _ => some (s.proceed (syncClock env s.client))
      | _ => none
  | .toServer k env => do
      let request ← s.toServer[k]?
      let o ← Server.executeGameTurn env s.server request.data clientAddr
      return s.serve clientAddr k o
  | .toClient k env =>
      match s.client.phase with
      | .syncing sync => do
          let response ← s.toClient[k]?
          let p ← receiveClockResponse env sync (.packet s.client.serverAddr response.data) s.client
          return { s.proceed p with samples := s.samples ++ s.sampled sync response }
      | _ => none
  | .receive received env =>
      match s.client.phase with
      | .syncing sync =>
          if IsResponse s.client.serverAddr received then none
          else (receiveClockResponse env sync received s.client).map s.proceed
      | _ => none
  | .other e =>
      if e.clientAddr = clientAddr then none
      else (Server.step s.server e).map fun server => { s with server := server }

/-- Every step takes one instant. -/
def step (s : System) (e : Event) : Option System :=
  (act clientAddr s e).map fun s' => { s' with instant := s.instant + 1 }

structure Initial (s : System) : Prop where
  phase : ∃ result, s.client.phase = .returned result
  toServer : s.toServer = []
  toClient : s.toClient = []
  samples : s.samples = []

section Client

variable {env : Client.Env} {c : Program} {p : Progress}

structure GoesOn (c : Program) (p : Progress) : Prop where
  salt : p.program.connectionSalt = c.connectionSalt
  phase : ((∃ result, p.program.phase = .returned result) ∧ p.sent = []) ∨
    ∃ sync, p.program.phase = .syncing sync ∧
      p.sent = [(c.serverAddr, clockDatagram c.connectionSalt sync.sendNowEpoch.toUInt64)]

theorem goesOn_finish (result : ℤ) (c : Program) : GoesOn c (finish result c) :=
  ⟨rfl, Or.inl ⟨⟨result, rfl⟩, rfl⟩⟩

theorem toDatagram_clockPacket (salt : UInt64) (sendNowEpoch : Int64) :
    (clockPacket salt sendNowEpoch).toDatagram = clockDatagram salt sendNowEpoch.toUInt64 := by
  rw [NetworkPacket.toDatagram_eq_sealed]
  simp only [clockPacket, NetworkPacket.empty, NetworkPacket.clear, NetworkPacket.writeInt8,
    NetworkPacket.writeInt64, NetworkPacket.write, clockDatagram, UInt64.toUInt64_toInt64,
    List.append_assoc]
  rfl

theorem goesOn_startExchange (env : Client.Env) (exchanges : ℕ)
    (clockOffsets roundTripTimes : List Int64) (c : Program) :
    GoesOn c (startExchange env exchanges clockOffsets roundTripTimes c) := by
  unfold startExchange
  split
  · unfold averageOffsets
    split
    · exact goesOn_finish 1 c
    · exact ⟨rfl, Or.inl ⟨⟨0, rfl⟩, rfl⟩⟩
  · dsimp only
    split
    · exact ⟨rfl, Or.inl ⟨⟨1, rfl⟩, rfl⟩⟩
    · rename_i hsend
      rw [Bool.not_eq_true, Bool.not_eq_false'] at hsend
      refine ⟨rfl, Or.inr ⟨_, rfl, ?_⟩⟩
      rw [Client.send, if_pos hsend, toDatagram_clockPacket]

theorem goesOn_syncClock (env : Client.Env) (c : Program) : GoesOn c (syncClock env c) := by
  unfold syncClock
  split
  · exact goesOn_finish 1 c
  · split
    · exact goesOn_finish 1 c
    · exact goesOn_startExchange ..

/-- The sample of one exchange: the mean of two estimates of the server's offset. -/
def sampleOffset (sendNowEpoch receiveNowEpoch serverTimeMs : Int64) : Int64 :=
  let roundTripTime := receiveNowEpoch - sendNowEpoch
  let serverClockOffset1 := serverTimeMs - sendNowEpoch - roundTripTime / 2
  let serverClockOffset2 := serverTimeMs - receiveNowEpoch - roundTripTime / 2
  (serverClockOffset1 + serverClockOffset2) / 2

def continueWith (env : Client.Env) (sync : ClockSync) (offset : Int64) (c : Program) : Progress :=
  startExchange (later env 1) (sync.exchanges + 1) (sync.clockOffsets ++ [offset])
    (sync.roundTripTimes ++ [milliseconds (env.clock 0) - sync.sendNowEpoch])
    { c with serverClockOffset := offset }

theorem receiveClockResponse_clockResponse (env : Client.Env) (sync : ClockSync) (now : Int64)
    (c : Program) :
    receiveClockResponse env sync (.packet c.serverAddr (clockResponseDatagram now)) c =
      some (continueWith env sync
        (sampleOffset sync.sendNowEpoch (milliseconds (env.clock 0)) now) c) := by
  have htype := NetworkPacket.unread_sealed
    (NetworkPacketType.clockResponse.toInt8.toUInt8 :: bytes64 now.toUInt64)
  have htime := (NetworkPacket.unread_advance_one htype).trans (List.append_nil _).symm
  have hsame : isSameAddress c.serverAddr c.serverAddr = true := (isSameAddress_iff _ _).mpr rfl
  simp only [receiveClockResponse, hsame, clockResponseDatagram,
    NetworkPacket.readAndValidateCRC_sealed, NetworkPacket.readNetworkPacketType_of_unread htype,
    NetworkPacket.readUInt64_of_unread htime, Option.bind_eq_bind, Option.bind_some,
    Option.pure_def, Bool.not_true, Bool.false_eq_true, if_false, ne_eq, not_true_eq_false]
  rfl

theorem goesOn_continueWith (env : Client.Env) (sync : ClockSync) (offset : Int64) (c : Program) :
    GoesOn c (continueWith env sync offset c) := by
  have hgoes := goesOn_startExchange (later env 1) (sync.exchanges + 1)
    (sync.clockOffsets ++ [offset])
    (sync.roundTripTimes ++ [milliseconds (env.clock 0) - sync.sendNowEpoch])
    { c with serverClockOffset := offset }
  exact ⟨hgoes.salt, hgoes.phase⟩

/-- Anything else ends the call, or after the timeout the exchange, without a sample. -/
theorem receiveClockResponse_other {sync : ClockSync} {received : Received}
    (hother : ¬ IsResponse c.serverAddr received)
    (h : receiveClockResponse env sync received c = some p) :
    p = finish 1 c ∨ p = startExchange (later env 1) (sync.exchanges + 1) sync.clockOffsets
      sync.roundTripTimes c := by
  have hwait : (if env.clock 0 - sync.startTime ≥ clockTimeout then
      some (startExchange (later env 1) (sync.exchanges + 1) sync.clockOffsets
        sync.roundTripTimes c) else some (finish 1 c)) = some p →
      p = finish 1 c ∨ p = startExchange (later env 1) (sync.exchanges + 1) sync.clockOffsets
        sync.roundTripTimes c := by
    intro hp
    split at hp
    · exact Or.inr (Option.some.inj hp).symm
    · exact Or.inl (Option.some.inj hp).symm
  cases received with
  | timeout => exact hwait h
  | failure => exact hwait h
  | packet sender data =>
    left
    simp only [receiveClockResponse, Option.bind_eq_bind, Option.pure_def] at h
    rcases expected_cases h with hgone | ⟨⟨hsame, -, htype⟩, -⟩
    · exact hgone
    · exact absurd ⟨hsame, htype⟩ hother

end Client

section Server

variable {env : Server.Env} {s : Server.State} {addr : Address} {o : Server.Outcome}

/-- A CLOCK is answered with a CLOCK_RESPONSE or not at all. -/
theorem sent_of_clock {salt time : UInt64}
    (ho : Server.executeGameTurn env s (clockDatagram salt time) addr = some o) :
    ∀ message ∈ o.sent, message.2 = clockResponseDatagram (milliseconds (env.clock 0)) := by
  have hdata := carries_clockDatagram salt time
  intro message hmessage
  cases hlocate : locate (Server.authenticates salt addr) s.players with
  | none =>
    rw [executeGameTurn_of_carries hdata] at ho
    simp only [Server.dispatch, Server.handleClockSync, hdata.salt, readUInt64_clockDatagram,
      hlocate, Option.bind_eq_bind, Option.bind_some, Option.pure_def] at ho
    obtain rfl := Option.some.inj ho
    cases hmessage
  | some found =>
    obtain ⟨before, player, after⟩ := found
    rw [executeGameTurn_clock hdata (readUInt64_clockDatagram salt time) hlocate] at ho
    obtain rfl := Option.some.inj ho
    dsimp only [answer] at hmessage
    split at hmessage
    · obtain rfl := List.mem_singleton.mp hmessage
      rfl
    · cases hmessage

end Server

end RocketGame.ClockNetwork
