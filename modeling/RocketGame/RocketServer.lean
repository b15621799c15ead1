import RocketGame.LabelledTables
import RocketGame.RocketShared

/-!
The loop of the .NET server. A turn receives one datagram or fails to; FromBytes
may throw, which ends the program. The dictionary of players is a table with one
entry for each endpoint, the order of its entries is not specified. The clocks
are inputs of the turn, and the sends succeed.
-/
namespace RocketGame.RocketServer

open LabelledTables RocketShared

structure IPEndPoint where
  address : UInt32
  port : UInt16
  deriving DecidableEq, Repr

/-- Ticks of 100 nanoseconds. -/
abbrev DateTime := ℤ

def addSeconds (t : DateTime) (seconds : ℤ) : DateTime := t + seconds * 10000000

structure Stopwatch where
  startTimestamp : ℕ := 0
  deriving DecidableEq, Repr

def Stopwatch.elapsedMilliseconds (w : Stopwatch) (timestamp : ℕ) : ℕ :=
  (timestamp - w.startTimestamp) / 10000

structure RocketPlayer where
  playerID : UInt8
  address : IPEndPoint
  created : DateTime
  lastUpdated : DateTime := 0
  messages : Int32 := 0
  ticks : Int64 := 0
  positionX : Thousandths := 0
  positionY : Thousandths := 0
  velocityX : Thousandths := 0
  velocityY : Thousandths := 0
  rotation : Thousandths := 0
  speed : Thousandths := 0
  delta : Thousandths := 0
  isFiring : UInt8 := 0
  deriving DecidableEq, Repr

abbrev Players := Table IPEndPoint RocketPlayer

structure Server where
  players : Players := ∅
  stopwatch : Stopwatch := {}

/-- The PlayerID of a new player: the size of the table, cast to a byte. -/
def nextPlayerID (players : Players) : UInt8 := UInt8.ofNat (players.keys.length + 1)

def register (players : Players) (remoteEndpoint : IPEndPoint) (now : DateTime) :
    RocketPlayer × Players :=
  match players.lookup remoteEndpoint with
  | some rocketPlayer => (rocketPlayer, players)
  | none =>
    let rocketPlayer : RocketPlayer :=
      { playerID := nextPlayerID players, address := remoteEndpoint, created := now }
    (rocketPlayer, players.insert remoteEndpoint rocketPlayer)

/-- What a packet writes into its player. Delta takes the speed. -/
def RocketPlayer.store (rocketPlayer : RocketPlayer) (packet : NetworkPacket) (now : DateTime) :
    RocketPlayer :=
  { rocketPlayer with
    ticks := packet.ticks
    positionX := packet.positionX
    positionY := packet.positionY
    velocityX := packet.velocityX
    velocityY := packet.velocityY
    rotation := packet.rotation
    speed := packet.speed
    delta := packet.speed
    isFiring := packet.isFiring
    lastUpdated := now }

def RocketPlayer.countMessage (rocketPlayer : RocketPlayer) : RocketPlayer :=
  { rocketPlayer with messages := rocketPlayer.messages + 1 }

def RocketPlayer.clearMessages (rocketPlayer : RocketPlayer) : RocketPlayer :=
  { rocketPlayer with messages := 0 }

abbrev Sent := IPEndPoint × Datagram

/-- The foreach that relays: it skips by PlayerID. -/
def relay (players : Players) (rocketPlayer : RocketPlayer) (receivedBytes : Datagram) :
    List Sent :=
  (players.entries.filter fun b => b.2.playerID ≠ rocketPlayer.playerID).map
    fun b => (b.1, receivedBytes)

def toRemove (players : Players) (now : DateTime) : List IPEndPoint :=
  let lastUpdateThreshold := addSeconds now (-5)
  (players.entries.filter fun b => b.2.lastUpdated < lastUpdateThreshold).map Sigma.fst

def checkPlayers (players : Players) (now : DateTime) : Players :=
  (players.mapValues RocketPlayer.clearMessages).eraseAll (toRemove players now)

structure Reception where
  remoteEndpoint : IPEndPoint
  receivedBytes : Datagram
  now : DateTime
  checkedAt : ℕ
  restartedAt : ℕ

inductive Turn
  | socketException
  | received (r : Reception)

def enter (players : Players) (r : Reception) (packet : NetworkPacket) :
    RocketPlayer × Players :=
  let (rocketPlayer, players) := register players r.remoteEndpoint r.now
  let rocketPlayer := rocketPlayer.store packet r.now
  (rocketPlayer, players.insert r.remoteEndpoint rocketPlayer)

def handle (s : Server) (r : Reception) (packet : NetworkPacket) : Server × List Sent :=
  let (rocketPlayer, players) := enter s.players r packet
  let sent := relay players rocketPlayer r.receivedBytes
  let players := players.insert r.remoteEndpoint rocketPlayer.countMessage
  if s.stopwatch.elapsedMilliseconds r.checkedAt ≥ 1000 then
    ({ players := checkPlayers players r.now, stopwatch := ⟨r.restartedAt⟩ }, sent)
  else ({ s with players }, sent)

def turn (crc32 : Crc32) (s : Server) : Turn → Except ApplicationException (Server × List Sent)
  | .socketException => .ok (s, [])
  | .received r => (NetworkPacket.fromBytes crc32 r.receivedBytes).map (handle s r)

def step (crc32 : Crc32) (s : Server) (t : Turn) : Option Server :=
  (turn crc32 s t).toOption.map Prod.fst

def idOf (players : Players) : IPEndPoint → Option UInt8 := labelOf RocketPlayer.playerID players

def DistinctIDs (players : Players) : Prop := DistinctLabels RocketPlayer.playerID players

def idFor (players : Players) (remoteEndpoint : IPEndPoint) : UInt8 :=
  (idOf players remoteEndpoint).getD (nextPlayerID players)

theorem idOf_eq_none {players : Players} {e : IPEndPoint} :
    idOf players e = none ↔ e ∉ players := labelOf_eq_none

section Tables

variable (players : Players) (r : Reception) (packet : NetworkPacket)

theorem relay_eq (rocketPlayer : RocketPlayer) (receivedBytes : Datagram) :
    relay players rocketPlayer receivedBytes =
      (keysWithOther RocketPlayer.playerID rocketPlayer.playerID players).map
        fun b => (b, receivedBytes) := by
  rw [relay, keysWithOther, List.map_map]
  rfl

theorem playerID_register (e : IPEndPoint) (now : DateTime) :
    (register players e now).1.playerID = idFor players e := by
  rw [register, idFor, idOf, labelOf]
  cases players.lookup e <;> rfl

/-- Registration and update only decide the ID of the sender. -/
theorem idOf_enter : idOf (enter players r packet).2 =
    Function.update (idOf players) r.remoteEndpoint (some (idFor players r.remoteEndpoint)) := by
  have hID := playerID_register players r.remoteEndpoint r.now
  have hregister : Function.update (idOf (register players r.remoteEndpoint r.now).2)
      r.remoteEndpoint (some (idFor players r.remoteEndpoint)) =
      Function.update (idOf players) r.remoteEndpoint
        (some (idFor players r.remoteEndpoint)) := by
    rw [register]
    cases players.lookup r.remoteEndpoint with
    | some rocketPlayer => rfl
    | none =>
      dsimp only
      rw [idOf, labelOf_insert, Function.update_idem]
      rfl
  rw [← hregister, ← hID, enter, idOf, labelOf_insert]
  rfl

theorem playerID_enter : (enter players r packet).1.playerID = idFor players r.remoteEndpoint :=
  playerID_register players r.remoteEndpoint r.now

/-- The check of each second gives nobody another ID. -/
theorem idOf_checkPlayers {players : Players} {now : DateTime} {e : IPEndPoint} {l : UInt8}
    (h : idOf (checkPlayers players now) e = some l) : idOf players e = some l := by
  have hkept := labelOf_eraseAll h
  rwa [labelOf_mapValues (f := RocketPlayer.clearMessages) fun _ => rfl] at hkept

end Tables

section Turns

variable {crc32 : Crc32} {s s' : Server} {r : Reception} {packet : NetworkPacket}
  {out : Server × List Sent}

theorem handle_sent : (handle s r packet).2 =
    (keysWithOther RocketPlayer.playerID (idFor s.players r.remoteEndpoint)
      (enter s.players r packet).2).map fun b => (b, r.receivedBytes) := by
  rw [← playerID_enter s.players r packet, ← relay_eq]
  unfold handle
  dsimp only
  split <;> rfl

/-- Whoever is registered after the turn was so when the packet was relayed,
under the same ID. -/
theorem idOf_handle {e : IPEndPoint} {l : UInt8}
    (h : idOf (handle s r packet).1.players e = some l) :
    idOf (enter s.players r packet).2 e = some l := by
  have hcounted : idOf ((enter s.players r packet).2.insert r.remoteEndpoint
      (enter s.players r packet).1.countMessage) = idOf (enter s.players r packet).2 := by
    have hID : (enter s.players r packet).1.countMessage.playerID =
        idFor s.players r.remoteEndpoint := playerID_enter s.players r packet
    rw [idOf, labelOf_insert, hID, ← idOf, idOf_enter, Function.update_idem]
  unfold handle at h
  dsimp only at h
  rw [← hcounted]
  split at h
  · exact idOf_checkPlayers h
  · exact h

theorem turn_received_eq_ok : turn crc32 s (.received r) = .ok out ↔
    ∃ packet, NetworkPacket.fromBytes crc32 r.receivedBytes = .ok packet ∧
      handle s r packet = out := by
  simp only [turn]
  cases NetworkPacket.fromBytes crc32 r.receivedBytes with
  | error e => simp only [Except.map, reduceCtorEq, false_and, exists_false]
  | ok packet => simp only [Except.map, Except.ok.injEq, exists_eq_left']

theorem step_received_eq_some : step crc32 s (.received r) = some s' ↔
    ∃ packet, NetworkPacket.fromBytes crc32 r.receivedBytes = .ok packet ∧
      (handle s r packet).1 = s' := by
  simp only [step, turn]
  cases NetworkPacket.fromBytes crc32 r.receivedBytes with
  | error e => simp only [Except.map, Except.toOption, Option.map_none, reduceCtorEq, false_and,
      exists_false]
  | ok packet => simp only [Except.map, Except.toOption, Option.map_some, Option.some.injEq,
      Except.ok.injEq, exists_eq_left']

end Turns

end RocketGame.RocketServer
