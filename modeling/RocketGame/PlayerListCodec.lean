import RocketGame.GameMessages

/-!
The list of player states in a reply. The sender writes the number of players as
one byte and then every state; the receiver reads the byte back as a signed one
and runs its loop that often. Up to 127 players the two agree.
-/
namespace RocketGame

namespace Packets.NetworkPacket

open PlayerStates

def serializePlayerStates (p : NetworkPacket) (playerStates : List PlayerState) : NetworkPacket :=
  playerStates.foldl serializePlayerState
    (p.writeInt8 (UInt8.ofNat playerStates.length).toInt8)

end Packets.NetworkPacket

namespace PlayerListCodec

open BigEndian Packets PlayerStates
open NetworkPacket

/-- The reply of the server ends with the list of its players. -/
theorem gameStatePacket_eq_serializePlayerStates (player : Server.Player) (ackBits : UInt32)
    (players : List Server.Player) :
    Server.gameStatePacket player ackBits players =
      (NetworkPacket.empty.writeInt8 NetworkPacketType.gameState.toInt8
        |>.writeInt64 player.connectionSalt.toInt64
        |>.writeInt16 player.localSequenceNumberSmall.toInt16
        |>.writeInt16 player.remoteSequenceNumberSmall.toInt16
        |>.writeInt32 ackBits.toInt32).serializePlayerStates
          (players.map Server.Player.toPlayerState) := by
  rw [Server.gameStatePacket, serializePlayerStates, List.foldl_map, List.length_map]

def playerStatesBytes (playerStates : List PlayerState) : List UInt8 :=
  UInt8.ofNat playerStates.length :: playerStates.flatMap playerStateBytes

theorem serializePlayerStates_eq_write (p : NetworkPacket) (playerStates : List PlayerState) :
    p.serializePlayerStates playerStates = p.write (playerStatesBytes playerStates) := by
  rw [serializePlayerStates, foldl_serializePlayerState, playerStatesBytes]
  simp [writeInt8, NetworkPacket.write]

/-- Read from where it was written, the list is what comes next. -/
theorem unread_serializePlayerStates (p : NetworkPacket) (playerStates : List PlayerState) :
    (NetworkPacket.mk (p.serializePlayerStates playerStates).buffer p.size).unread =
      playerStatesBytes playerStates ++ [] := by
  rw [serializePlayerStates_eq_write, List.append_nil]
  exact List.drop_left

section List

variable {p : NetworkPacket} {playerStates : List PlayerState} {rest : List UInt8}

theorem deserializeLoop_of_unread
    (h : p.unread = playerStates.flatMap playerStateBytes ++ rest) :
    deserializeLoop playerStates.length p =
      some (playerStates.map received, p.advance (30 * playerStates.length)) := by
  induction playerStates generalizing p with
  | nil => rfl
  | cons playerState playerStates ih =>
    rw [List.flatMap_cons, List.append_assoc] at h
    have hrest := unread_advance_of h (length_playerStateBytes playerState)
    have hwidth : 30 + 30 * playerStates.length = 30 * (playerStates.length + 1) := by omega
    simp only [List.length_cons, deserializeLoop, deserializePlayerState_of_unread h, ih hrest,
      Option.bind_eq_bind, Option.bind_some, Option.pure_def, advance_advance, hwidth,
      List.map_cons]

theorem length_of_deserializeLoop {n : ℕ} {p' : NetworkPacket}
    (h : deserializeLoop n p = some (playerStates, p')) : playerStates.length = n := by
  induction n generalizing p playerStates with
  | zero =>
    cases h
    rfl
  | succ n ih =>
    obtain ⟨⟨playerState, p₁⟩, _, h⟩ := Option.bind_eq_some_iff.mp h
    obtain ⟨⟨playerStates', p₂⟩, hloop, h⟩ := Option.bind_eq_some_iff.mp h
    cases h
    rw [List.length_cons, ih hloop]

theorem toNat_toInt_toInt8_ofNat_iff (n : ℕ) :
    (UInt8.ofNat n).toInt8.toInt.toNat = n ↔ n ≤ 127 := by
  have hint : (UInt8.ofNat n).toInt8.toInt = (UInt8.ofNat n).toBitVec.toInt := rfl
  have hnat : (UInt8.ofNat n).toBitVec.toNat = n % 256 := UInt8.toNat_ofNat'
  rw [hint, BitVec.toInt_eq_toNat_cond, hnat]
  split <;> omega

/-- The list comes back exactly when its length fits a signed byte. -/
theorem deserializePlayerStates_iff (h : p.unread = playerStatesBytes playerStates ++ rest) :
    (∃ done, p.deserializePlayerStates = some (playerStates.map received, done)) ↔
      playerStates.length ≤ 127 := by
  have hcount : p.readInt8 = some ((UInt8.ofNat playerStates.length).toInt8, p.advance 1) := by
    apply readInt8_of_unread
    rw [h, UInt8.toUInt8_toInt8]
    rfl
  have hstates := unread_advance_one (show p.unread = _ :: _ from h)
  simp only [deserializePlayerStates, hcount, Option.bind_eq_bind, Option.bind_some]
  rw [← toNat_toInt_toInt8_ofNat_iff]
  constructor
  · rintro ⟨done, hdone⟩
    rw [← length_of_deserializeLoop hdone, List.length_map]
  · intro hfits
    rw [hfits]
    exact ⟨_, deserializeLoop_of_unread hstates⟩

end List

section Record

/-- Four bytes are the bytes of some 32-bit value. -/
theorem exists_bytes32 {l : List UInt8} {n : ℕ} (h : l.length = 4 + n) :
    ∃ value rest, l = bytes32 value ++ rest ∧ rest.length = n := by
  have hfour : (l.take 4).length = 4 := by
    rw [List.length_take]
    omega
  have hlt : decode (l.take 4) < 2 ^ 32 := by
    have hdecode := decode_lt (l.take 4)
    rwa [hfour] at hdecode
  refine ⟨UInt32.ofNat (decode (l.take 4)), l.drop 4, ?_, ?_⟩
  · have hencode := encode_decode (l.take 4)
    rw [hfour] at hencode
    rw [bytes32, UInt32.toNat_ofNat', Nat.mod_eq_of_lt hlt, hencode, List.take_append_drop]
  · rw [List.length_drop]
    omega

/-- Every record whose keyboard byte has no unused bit set is the record of a
state, and that state survives the trip. -/
theorem exists_playerStateBytes {fields : List UInt8} {keyboard : UInt8}
    (hlen : fields.length = 29) (hkeyboard : keyboard &&& 0xE0 = 0) :
    ∃ playerState, playerStateBytes playerState = fields ++ [keyboard] ∧
      received playerState = playerState := by
  obtain ⟨playerID, l, rfl⟩ := List.exists_cons_of_length_eq_add_one hlen
  have h0 : l.length = 4 + 24 := by simpa using hlen
  obtain ⟨posX, l, rfl, h1⟩ := exists_bytes32 h0
  obtain ⟨posY, l, rfl, h2⟩ := exists_bytes32 (show l.length = 4 + 20 from h1)
  obtain ⟨velX, l, rfl, h3⟩ := exists_bytes32 (show l.length = 4 + 16 from h2)
  obtain ⟨velY, l, rfl, h4⟩ := exists_bytes32 (show l.length = 4 + 12 from h3)
  obtain ⟨speed, l, rfl, h5⟩ := exists_bytes32 (show l.length = 4 + 8 from h4)
  obtain ⟨rotation, l, rfl, h6⟩ := exists_bytes32 (show l.length = 4 + 4 from h5)
  obtain ⟨health, l, rfl, h7⟩ := exists_bytes32 (show l.length = 4 + 0 from h6)
  obtain rfl := List.length_eq_zero_iff.mp h7
  let playerState : PlayerState :=
    { playerID := playerID
      pos := ⟨⟨posX⟩, ⟨posY⟩⟩
      vel := ⟨⟨velX⟩, ⟨velY⟩⟩
      speed := ⟨speed⟩
      rotation := ⟨rotation⟩
      health := ⟨health⟩
      keyboard := Keyboard.readFromByte keyboard }
  refine ⟨playerState, ?_, ?_⟩
  · simp only [playerStateBytes, playerState, Keyboard.toByte_readFromByte hkeyboard,
      List.append_assoc, List.cons_append, List.nil_append]
  · simp only [received, playerState, Keyboard.normalized_readFromByte]

end Record

/-- Written at the end of a packet and read from there, the list comes back: every
element in its place, as far as it is sent. -/
def ListReturns (p : NetworkPacket) (playerStates : List PlayerState) : Prop :=
  ∃ done, (NetworkPacket.mk (p.serializePlayerStates playerStates).buffer
    p.size).deserializePlayerStates = some (playerStates.map received, done)

/-- The record read from one packet is written unchanged to another. -/
def RecordReproduced (p q : NetworkPacket) (record : List UInt8) : Prop :=
  ∃ playerState done, p.deserializePlayerState = some (playerState, done) ∧
    q.serializePlayerState playerState = q.write record

/-- A list of states comes back exactly when it has at most 127 elements, and a
record of 30 bytes without unused keyboard bits is always reproduced. -/
theorem playerStates_roundTrip_iff (p : NetworkPacket) (playerStates : List PlayerState)
    (q q' : NetworkPacket) (fields : List UInt8) (keyboard : UInt8) (rest : List UInt8) :
    (playerStates.length ≤ 255 → (ListReturns p playerStates ↔ playerStates.length ≤ 127)) ∧
    (q.unread = fields ++ [keyboard] ++ rest → fields.length = 29 → keyboard &&& 0xE0 = 0 →
      RecordReproduced q q' (fields ++ [keyboard])) := by
  constructor
  · intro _
    exact deserializePlayerStates_iff (unread_serializePlayerStates p playerStates)
  · intro hunread hlen hkeyboard
    obtain ⟨playerState, hbytes, hreceived⟩ := exists_playerStateBytes hlen hkeyboard
    rw [← hbytes] at hunread
    have hread := deserializePlayerState_of_unread hunread
    rw [hreceived] at hread
    exact ⟨playerState, _, hread, by rw [serializePlayerState_eq_write, hbytes]⟩

/-- One state, and the record of zeros. -/
theorem playerStates_roundTrip_iff_one :
    (ListReturns .empty [{}] ↔ 1 ≤ 127) ∧
      RecordReproduced (.ofBytes (List.replicate 30 0)) .empty (List.replicate 30 0) := by
  have h := playerStates_roundTrip_iff .empty [{}] (.ofBytes (List.replicate 30 0)) .empty
    (List.replicate 29 0) 0 []
  exact ⟨h.1 (by decide), h.2 rfl rfl rfl⟩

/-- The count of 128 states is read back as -128, and no state is decoded. -/
theorem list_of_128_is_lost :
    ¬ ((∀ (p : NetworkPacket) (playerStates : List PlayerState), playerStates.length ≤ 255 →
        ListReturns p playerStates) ∧
      (∀ (p q : NetworkPacket) (fields : List UInt8) (keyboard : UInt8) (rest : List UInt8),
        p.unread = fields ++ [keyboard] ++ rest → fields.length = 29 → keyboard &&& 0xE0 = 0 →
        RecordReproduced p q (fields ++ [keyboard]))) := by
  rintro ⟨hlist, _⟩
  have hfits : (List.replicate 128 ({} : PlayerState)).length ≤ 255 := by
    rw [List.length_replicate]
    omega
  have hreturns := hlist .empty _ hfits
  have hunread := unread_serializePlayerStates .empty (List.replicate 128 {})
  have hshort := (deserializePlayerStates_iff hunread).mp hreturns
  rw [List.length_replicate] at hshort
  omega

end PlayerListCodec

end RocketGame
