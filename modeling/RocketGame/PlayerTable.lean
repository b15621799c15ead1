import RocketGame.Runs
import RocketGame.Server

/-!
How a datagram reaches its handler, and what it can do to the player table. Every
turn of ExecuteGame leaves the table alone, appends one record, changes or erases
one record of the sender, or removes the sender's records of one salt. All
invariants of the table are derived from this case list.
-/
namespace RocketGame.PlayerTable

open Channels FirstMatch NetworkUtilities Packets PlayerStates Server
open NetworkPacket (ofBytes)

/-- The datagram has a valid CRC, the given packet type, and the given salt field. -/
structure Carries (data : Datagram) (t : NetworkPacketType) (salt : UInt64) : Prop where
  crc : (ofBytes data).readAndValidateCRC = some (0, (ofBytes data).advance 4)
  type : ((ofBytes data).advance 4).readNetworkPacketType =
    some (some t, (ofBytes data).advance 5)
  salt : ((ofBytes data).advance 5).readUInt64 = some (salt, (ofBytes data).advance 13)

theorem carries_sealed (t : NetworkPacketType) (salt : UInt64) (rest : List UInt8) :
    Carries (NetworkPacket.sealed (t.toInt8.toUInt8 :: (bytes64 salt ++ rest))) t salt := by
  have htype := NetworkPacket.unread_sealed (t.toInt8.toUInt8 :: (bytes64 salt ++ rest))
  have hsalt := NetworkPacket.unread_advance_one htype
  exact ⟨NetworkPacket.readAndValidateCRC_sealed _,
    NetworkPacket.readNetworkPacketType_of_unread htype,
    NetworkPacket.readUInt64_of_unread hsalt⟩

def dropped (s : State) : Outcome := { state := s, result := 0 }

theorem executeGameTurn_of_crc {env : Env} {s : State} {data : Datagram} {addr : Address}
    {packetType : Option NetworkPacketType}
    (hcrc : (ofBytes data).readAndValidateCRC = some (0, (ofBytes data).advance 4))
    (htype : ((ofBytes data).advance 4).readNetworkPacketType =
      some (packetType, (ofBytes data).advance 5)) :
    executeGameTurn env s data addr =
      dispatch env s packetType ((ofBytes data).advance 5) addr := by
  have hsize : ¬ data.length < Crc32.crcSize :=
    Nat.not_lt.mpr (NetworkPacket.reads_readAndValidateCRC.eq_advance (Nat.zero_le _) hcrc).1
  simp only [executeGameTurn, NetworkPacket.size_ofBytes, hsize, if_false, hcrc, htype,
    Option.bind_eq_bind, Option.bind_some, ne_eq, not_true_eq_false]

theorem executeGameTurn_of_carries {env : Env} {s : State} {data : Datagram} {addr : Address}
    {t : NetworkPacketType} {salt : UInt64} (h : Carries data t salt) :
    executeGameTurn env s data addr =
      dispatch env s (some t) ((ofBytes data).advance 5) addr :=
  executeGameTurn_of_crc h.crc h.type

/-- A turn drops the datagram or dispatches it after its CRC and type are read. -/
theorem executeGameTurn_cases {env : Env} {s : State} {data : Datagram} {addr : Address}
    {o : Outcome} (h : executeGameTurn env s data addr = some o) :
    o = dropped s ∨ ∃ packetType,
      (ofBytes data).readAndValidateCRC = some (0, (ofBytes data).advance 4) ∧
      ((ofBytes data).advance 4).readNetworkPacketType =
        some (packetType, (ofBytes data).advance 5) ∧
      dispatch env s packetType ((ofBytes data).advance 5) addr = some o := by
  simp only [executeGameTurn, Option.bind_eq_bind] at h
  split at h
  · exact Or.inl (Option.some.inj h).symm
  · obtain ⟨⟨invalid, p⟩, hcrc, h⟩ := Option.bind_eq_some_iff.mp h
    obtain ⟨hfits, rfl⟩ := NetworkPacket.reads_readAndValidateCRC.eq_advance (Nat.zero_le _) hcrc
    dsimp only at h
    split at h
    · exact Or.inl (Option.some.inj h).symm
    · rename_i hvalid
      obtain rfl : invalid = 0 := not_not.mp hvalid
      obtain ⟨⟨packetType, p⟩, htype, h⟩ := Option.bind_eq_some_iff.mp h
      obtain ⟨_, rfl⟩ := NetworkPacket.reads_readNetworkPacketType.eq_advance hfits htype
      exact Or.inr ⟨packetType, hcrc, htype, h⟩

structure SameIdentity (player player' : Player) : Prop where
  playerID : player'.playerID = player.playerID
  address : player'.address = player.address
  clientSalt : player'.clientSalt = player.clientSalt
  serverSalt : player'.serverSalt = player.serverSalt
  connectionSalt : player'.connectionSalt = player.connectionSalt

/-- The player table after a turn for a datagram from the address. -/
inductive TableChange (env : Env) (data : Datagram) (addr : Address) (players : List Player) :
    List Player → Prop
  | same : TableChange env data addr players players
  | added (clientSalt : UInt64) (hsize : data.length = 1000)
      (hdata : Carries data .connectionRequest clientSalt) :
      TableChange env data addr players (players ++ [newPlayer env players clientSalt addr])
  | changed (before after : List Player) (player player' : Player)
      (hplayers : players = before ++ player :: after) (haddr : player.address = addr)
      (hsame : SameIdentity player player') :
      TableChange env data addr players (before ++ player' :: after)
  | erased (before after : List Player) (player : Player)
      (hplayers : players = before ++ player :: after) (haddr : player.address = addr) :
      TableChange env data addr players (before ++ after)
  | removed (connectionSalt : UInt64) :
      TableChange env data addr players
        (players.filter fun p => !authenticates connectionSalt addr p)

theorem fromAddress_iff {addr : Address} {player : Player} :
    fromAddress addr player = true ↔ player.address = addr :=
  isSameAddress_iff _ _

theorem authenticates_iff {salt : UInt64} {addr : Address} {player : Player} :
    authenticates salt addr player = true ↔
      player.connectionSalt = salt ∧ player.address = addr := by
  simp only [authenticates, Bool.and_eq_true, beq_iff_eq, isSameAddress_iff]

theorem fromAddress_of_authenticates {salt : UInt64} {addr : Address} {p : Player}
    (h : authenticates salt addr p = true) : fromAddress addr p = true :=
  fromAddress_iff.mpr (authenticates_iff.mp h).2

/-- Records of other addresses keep every field, their number and their order. -/
theorem TableChange.others {env : Env} {data : Datagram} {addr other : Address}
    {players players' : List Player} (h : TableChange env data addr players players')
    (hne : other ≠ addr) :
    players'.filter (fromAddress other) = players.filter (fromAddress other) := by
  have hskip : ∀ p : Player, p.address = addr → fromAddress other p = false := by
    intro p hp
    rw [Bool.eq_false_iff]
    exact fun h => hne ((fromAddress_iff.mp h).symm.trans hp)
  cases h with
  | same => rfl
  | added clientSalt hsize hdata =>
    simp only [List.filter_append, List.filter_cons, hskip _ (rfl : (newPlayer ..).address = addr),
      Bool.false_eq_true, if_false, List.filter_nil, List.append_nil]
  | changed before after player player' hplayers haddr hsame =>
    simp only [hplayers, List.filter_append, List.filter_cons, hskip player haddr,
      hskip player' (hsame.address.trans haddr), Bool.false_eq_true, if_false]
  | erased before after player hplayers haddr =>
    simp only [hplayers, List.filter_append, List.filter_cons, hskip player haddr,
      Bool.false_eq_true, if_false]
  | removed connectionSalt =>
    rw [List.filter_filter]
    apply List.filter_congr
    intro p _
    by_cases hp : p.address = addr
    · simp [hskip p hp]
    · have hauth : authenticates connectionSalt addr p = false := by
        rw [Bool.eq_false_iff]
        exact fun h => hp (authenticates_iff.mp h).2
      simp [hauth]

end RocketGame.PlayerTable
