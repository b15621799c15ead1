import RocketGame.Client

/-!
The client program between its Receive calls. Its caller calls EstablishConnection,
SyncClock and ExecuteGame one at a time and in any order; each call is cut where
it receives. A step returns none when a read runs past the received bytes. Clock
readings of one step are numbered in the order they are taken.
-/
namespace RocketGame.ClientProgram

open Channels Client NetworkUtilities Packets PlayerStates

/-- The local variables of SyncClock while it waits for a response. -/
structure ClockSync where
  exchanges : ℕ
  sendNowEpoch : Int64
  startTime : Int64
  clockOffsets : List Int64
  roundTripTimes : List Int64
  deriving DecidableEq, Repr

structure GameLoop where
  gameUpdateTime : Int64
  idleTime : ℕ := 0
  idle : Int64
  deriving DecidableEq, Repr

/-- The call in progress, or the result of the last one. -/
inductive Phase
  | returned (result : ℤ)
  | establishing (attempt : Attempt)
  | syncing (sync : ClockSync)
  | playing (loop : GameLoop)
  deriving DecidableEq, Repr

structure Program extends Client.State where
  serverClockOffset : Int64 := 0
  phase : Phase := .returned 0
  deriving DecidableEq, Repr

/-- What one step does: the program after it and the datagrams handed to the network. -/
structure Progress where
  program : Program
  sent : List (Address × Datagram) := []

def finish (result : ℤ) (c : Program) : Progress where
  program := { c with phase := .returned result }

def later (env : Env) (n : ℕ) : Env := { env with clock := fun i => env.clock (n + i) }

def ofHandshake (c : Program) (h : Handshake) : Progress where
  program :=
    { c with
      toState := h.state
      phase := match h.attempt with
        | .returned result => .returned result
        | attempt => .establishing attempt }
  sent := h.sent

def establishConnection (clientSalt : UInt64) (env : Env) (c : Program) : Progress :=
  ofHandshake c (requestConnection clientSalt env.sendOk c.toState)

section SyncClock

def clockExchanges : ℕ := 5

def clockTimeout : Int64 := 1000000000

def clockPacket (connectionSalt : UInt64) (sendNowEpoch : Int64) : NetworkPacket :=
  NetworkPacket.empty.writeInt8 NetworkPacketType.clock.toInt8
    |>.writeInt64 connectionSalt.toInt64 |>.writeInt64 sendNowEpoch

def average (values : List Int64) : Int64 :=
  values.foldl (fun sum value => sum + value) 0 / Int64.ofNat values.length

def averageOffsets (clockOffsets roundTripTimes : List Int64) (c : Program) : Progress :=
  if clockOffsets.isEmpty then finish 1 c
  else finish 0 { c with
    serverClockOffset := average clockOffsets
    roundTripTimeMs := (average roundTripTimes).toUInt64 }

/-- The loop of SyncClock from its head to the next Receive. -/
def startExchange (env : Env) (exchanges : ℕ) (clockOffsets roundTripTimes : List Int64)
    (c : Program) : Progress :=
  if exchanges = clockExchanges then averageOffsets clockOffsets roundTripTimes c
  else
    let c := { c with serverClockOffset := 0 }
    let sendNowEpoch := milliseconds (env.clock 0)
    if !env.sendOk then finish 1 { c with connectionState := .disconnected }
    else
      let sync : ClockSync :=
        { exchanges := exchanges
          sendNowEpoch := sendNowEpoch
          startTime := env.clock 1
          clockOffsets := clockOffsets
          roundTripTimes := roundTripTimes }
      { program := { c with phase := .syncing sync }
        sent := send env.sendOk (clockPacket c.connectionSalt sendNowEpoch) c.toState }

def syncClock (env : Env) (c : Program) : Progress :=
  if c.connectionState ≠ .connected then finish 1 c
  else if c.connectionSalt = 0 then finish 1 c
  else startExchange env 0 [] [] c

/-- From a Receive of SyncClock to the next one or to the return. -/
def receiveClockResponse (env : Env) (sync : ClockSync) (received : Received) (c : Program) :
    Option Progress :=
  match received with
  | .timeout | .failure =>
      if env.clock 0 - sync.startTime ≥ clockTimeout then
        some (startExchange (later env 1) (sync.exchanges + 1) sync.clockOffsets
          sync.roundTripTimes c)
      else some (finish 1 c)
  | .packet sender data => do
      if !isSameAddress sender c.serverAddr then
        return finish 1 c
      let (invalid, responsePacket) ← (NetworkPacket.ofBytes data).readAndValidateCRC
      if invalid ≠ 0 then
        return finish 1 c
      let (packetType, responsePacket) ← responsePacket.readNetworkPacketType
      if packetType ≠ some .clockResponse then
        return finish 1 c
      let receiveNowEpoch := milliseconds (env.clock 0)
      let roundTripTime := receiveNowEpoch - sync.sendNowEpoch
      let (serverTimeMs, _) ← responsePacket.readUInt64
      let serverClockOffset1 := serverTimeMs.toInt64 - sync.sendNowEpoch - roundTripTime / 2
      let serverClockOffset2 := serverTimeMs.toInt64 - receiveNowEpoch - roundTripTime / 2
      let serverClockOffset := (serverClockOffset1 + serverClockOffset2) / 2
      return startExchange (later env 1) (sync.exchanges + 1)
        (sync.clockOffsets ++ [serverClockOffset]) (sync.roundTripTimes ++ [roundTripTime])
        { c with serverClockOffset := serverClockOffset }

end SyncClock

section ExecuteGame

/-- 1/60 second: the least whole number of nanoseconds that is not below it. -/
def gameUpdateInterval : Int64 := 16666667

def executeGame (env : Env) (c : Program) : Progress where
  program := { c with phase := .playing { gameUpdateTime := env.clock 0, idle := env.clock 1 } }

variable (physics : PhysicsEngine)

/-- The part of one turn of the loop before its Receive. -/
def updateGame (env : Env) (loop : GameLoop) (c : Program) : Progress × GameLoop :=
  let current := env.clock 0
  if current - loop.gameUpdateTime ≥ gameUpdateInterval then
    let o := sendGameState physics (later env 1) c.toState
    ({ program := { c with toState := o.state }, sent := o.sent },
      { loop with gameUpdateTime := current })
  else ({ program := c }, loop)

def keepPlaying (loop : GameLoop) (c : Program) : Program := { c with phase := .playing loop }

/-- The part of one turn of the loop after its Receive. -/
def receiveGame (env : Env) (loop : GameLoop) (received : Received) (c : Program) :
    Option Program :=
  match received with
  | .timeout =>
      let now := env.clock 0
      if milliseconds (now - loop.idle) ≥ 5000 then
        let loop := { loop with idle := now, idleTime := loop.idleTime + 1 }
        if loop.idleTime > 20 then some { c with phase := .returned 0 }
        else some (keepPlaying loop c)
      else some (keepPlaying loop c)
  | .failure => some (keepPlaying loop c)
  | .packet sender data => do
      if !isSameAddress sender c.serverAddr then
        return keepPlaying loop c
      let networkPacket := NetworkPacket.ofBytes data
      if networkPacket.size < Crc32.crcSize then
        return keepPlaying loop c
      let (invalid, networkPacket) ← networkPacket.readAndValidateCRC
      if invalid ≠ 0 then
        return keepPlaying loop c
      let loop := { loop with idleTime := 0 }
      let (packetType, networkPacket) ← networkPacket.readNetworkPacketType
      match packetType with
      | some .gameState =>
          let o ← handleGameState env c.toState networkPacket
          return keepPlaying loop { c with toState := o.state }
      | some .disconnect => return { c with phase := .returned 0 }
      | _ => return keepPlaying loop c

def gameTurn (env : Env) (loop : GameLoop) (received : Received) (c : Program) :
    Option Progress :=
  let (update, loop) := updateGame physics env loop c
  (receiveGame (later env 2) loop received update.program).map fun program =>
    { program := program, sent := update.sent }

end ExecuteGame

/-- The calls of the caller, what Receive returns, and the signal that clears running. -/
inductive Event
  | establishConnection (clientSalt : UInt64) (env : Env)
  | syncClock (env : Env)
  | executeGame (env : Env)
  | receive (received : Received) (env : Env)
  | interrupt

variable (physics : PhysicsEngine)

/-- A call waits for the one in progress, and a Receive belongs to it. -/
def progress (c : Program) : Event → Option Progress
  | .establishConnection clientSalt env => match c.phase with
    | .returned _ => some (establishConnection clientSalt env c)
    | _ => some { program := c }
  | .syncClock env => match c.phase with
    | .returned _ => some (syncClock env c)
    | _ => some { program := c }
  | .executeGame env => match c.phase with
    | .returned _ => some (executeGame env c)
    | _ => some { program := c }
  | .receive received env => match c.phase with
    | .returned _ | .establishing (.returned _) => some { program := c }
    | .establishing (.awaitingChallenge clientSalt) =>
        (receiveChallenge clientSalt env.sendOk received c.toState).map (ofHandshake c)
    | .establishing (.awaitingAccepted clientSalt serverSalt) =>
        (receiveAccepted clientSalt serverSalt received c.toState).map (ofHandshake c)
    | .syncing sync => receiveClockResponse env sync received c
    | .playing loop => gameTurn physics env loop received c
  | .interrupt => match c.phase with
    | .playing _ => some (finish 0 c)
    | _ => some { program := c }

def step (c : Program) (e : Event) : Option Program :=
  (progress physics c e).map Progress.program

end RocketGame.ClientProgram
