import RocketGame.Packets

/-!
The player state that both directions of the game exchange, its keyboard, and
the codec of GamePacket. Floats travel as their bit patterns, so a FloatInt is
its intValue and a double is its 64 bits. deltaTime stays local: it is not sent.
-/
namespace RocketGame.PlayerStates

open Packets

structure Keyboard where
  up : UInt8 := 0
  down : UInt8 := 0
  left : UInt8 := 0
  right : UInt8 := 0
  space : UInt8 := 0
  deriving DecidableEq, Repr

namespace Keyboard

def readFromByte (byte : UInt8) : Keyboard where
  up := if byte &&& 0x01 ≠ 0 then 1 else 0
  down := if byte &&& 0x02 ≠ 0 then 1 else 0
  left := if byte &&& 0x04 ≠ 0 then 1 else 0
  right := if byte &&& 0x08 ≠ 0 then 1 else 0
  space := if byte &&& 0x10 ≠ 0 then 1 else 0

def toByte (k : Keyboard) : UInt8 :=
  let byte : UInt8 := 0
  let byte := if k.up ≠ 0 then byte ||| 0x01 else byte
  let byte := if k.down ≠ 0 then byte ||| 0x02 else byte
  let byte := if k.left ≠ 0 then byte ||| 0x04 else byte
  let byte := if k.right ≠ 0 then byte ||| 0x08 else byte
  if k.space ≠ 0 then byte ||| 0x10 else byte

/-- Every pressed key as 1 and every other key as 0. -/
def normalized (k : Keyboard) : Keyboard where
  up := if k.up ≠ 0 then 1 else 0
  down := if k.down ≠ 0 then 1 else 0
  left := if k.left ≠ 0 then 1 else 0
  right := if k.right ≠ 0 then 1 else 0
  space := if k.space ≠ 0 then 1 else 0

theorem readFromByte_toByte (k : Keyboard) : readFromByte k.toByte = k.normalized := by
  unfold toByte normalized
  by_cases hup : k.up = 0 <;> by_cases hdown : k.down = 0 <;> by_cases hleft : k.left = 0 <;>
    by_cases hright : k.right = 0 <;> by_cases hspace : k.space = 0 <;>
    simp only [hup, hdown, hleft, hright, hspace, ne_eq, not_true_eq_false, not_false_eq_true,
      if_true, if_false] <;> decide

/-- A byte without the three unused bits is the byte of the keyboard read from it. -/
theorem toByte_readFromByte {byte : UInt8} (h : byte &&& 0xE0 = 0) :
    (readFromByte byte).toByte = byte := by
  have hall : ∀ i : Fin 256, UInt8.ofFin i &&& 0xE0 = 0 →
      (readFromByte (UInt8.ofFin i)).toByte = UInt8.ofFin i := by decide +kernel
  exact hall byte.toFin h

theorem normalized_readFromByte (byte : UInt8) :
    (readFromByte byte).normalized = readFromByte byte := by
  have hall : ∀ i : Fin 256, (readFromByte (UInt8.ofFin i)).normalized =
      readFromByte (UInt8.ofFin i) := by decide +kernel
  exact hall byte.toFin

end Keyboard

structure FloatInt where
  intValue : UInt32 := 0
  deriving DecidableEq, Repr

structure Vector where
  x : FloatInt := {}
  y : FloatInt := {}
  deriving DecidableEq, Repr

structure PlayerState where
  playerID : UInt8 := 0
  pos : Vector := {}
  vel : Vector := {}
  speed : FloatInt := {}
  rotation : FloatInt := {}
  health : FloatInt := {}
  keyboard : Keyboard := {}
  deltaTime : UInt64 := 0
  deriving DecidableEq, Repr

def playerStateBytes (playerState : PlayerState) : List UInt8 :=
  [playerState.playerID] ++ bytes32 playerState.pos.x.intValue ++
    bytes32 playerState.pos.y.intValue ++ bytes32 playerState.vel.x.intValue ++
    bytes32 playerState.vel.y.intValue ++ bytes32 playerState.speed.intValue ++
    bytes32 playerState.rotation.intValue ++ bytes32 playerState.health.intValue ++
    [playerState.keyboard.toByte]

theorem length_playerStateBytes (playerState : PlayerState) :
    (playerStateBytes playerState).length = 30 := by
  simp [playerStateBytes]

/-- The state a receiver decodes: everything sent, and no deltaTime. -/
def received (playerState : PlayerState) : PlayerState :=
  { playerState with keyboard := playerState.keyboard.normalized, deltaTime := 0 }

end PlayerStates

namespace Packets.NetworkPacket

open PlayerStates

def serializePlayerState (p : NetworkPacket) (playerState : PlayerState) : NetworkPacket :=
  p.writeInt8 playerState.playerID.toInt8
    |>.writeInt32 playerState.pos.x.intValue.toInt32
    |>.writeInt32 playerState.pos.y.intValue.toInt32
    |>.writeInt32 playerState.vel.x.intValue.toInt32
    |>.writeInt32 playerState.vel.y.intValue.toInt32
    |>.writeInt32 playerState.speed.intValue.toInt32
    |>.writeInt32 playerState.rotation.intValue.toInt32
    |>.writeInt32 playerState.health.intValue.toInt32
    |>.writeInt8 playerState.keyboard.toByte.toInt8

def deserializePlayerState (p : NetworkPacket) : Option (PlayerState × NetworkPacket) := do
  let (playerID, p) ← p.readInt8
  let (posX, p) ← p.readInt32
  let (posY, p) ← p.readInt32
  let (velX, p) ← p.readInt32
  let (velY, p) ← p.readInt32
  let (speed, p) ← p.readInt32
  let (rotation, p) ← p.readInt32
  let (health, p) ← p.readInt32
  let (keyboard, p) ← p.readInt8
  return ({ playerID := playerID.toUInt8
            pos := ⟨⟨posX.toUInt32⟩, ⟨posY.toUInt32⟩⟩
            vel := ⟨⟨velX.toUInt32⟩, ⟨velY.toUInt32⟩⟩
            speed := ⟨speed.toUInt32⟩
            rotation := ⟨rotation.toUInt32⟩
            health := ⟨health.toUInt32⟩
            keyboard := Keyboard.readFromByte keyboard.toUInt8 }, p)

def deserializeLoop : ℕ → NetworkPacket → Option (List PlayerState × NetworkPacket)
  | 0, p => some ([], p)
  | n + 1, p => do
      let (playerState, p) ← p.deserializePlayerState
      let (playerStates, p) ← deserializeLoop n p
      return (playerState :: playerStates, p)

/-- The count is a signed byte, so the loop runs zero times for a negative one. -/
def deserializePlayerStates (p : NetworkPacket) : Option (List PlayerState × NetworkPacket) := do
  let (players, p) ← p.readInt8
  deserializeLoop players.toInt.toNat p

theorem serializePlayerState_eq_write (p : NetworkPacket) (playerState : PlayerState) :
    p.serializePlayerState playerState = p.write (playerStateBytes playerState) := by
  simp [serializePlayerState, playerStateBytes, writeInt8, writeInt32, write]

theorem foldl_serializePlayerState (playerStates : List PlayerState) (p : NetworkPacket) :
    playerStates.foldl serializePlayerState p =
      p.write (playerStates.flatMap playerStateBytes) := by
  induction playerStates generalizing p with
  | nil => simp [write]
  | cons playerState playerStates ih =>
    rw [List.foldl_cons, ih, serializePlayerState_eq_write]
    simp [write]

/-- The decoder recovers the serialized state and consumes exactly its bytes. -/
theorem deserializePlayerState_of_unread {p : NetworkPacket} {playerState : PlayerState}
    {rest : List UInt8} (h : p.unread = playerStateBytes playerState ++ rest) :
    p.deserializePlayerState = some (PlayerStates.received playerState, p.advance 30) := by
  have h0 : p.unread = playerState.playerID.toInt8.toUInt8 ::
      (bytes32 playerState.pos.x.intValue ++ (bytes32 playerState.pos.y.intValue ++
      (bytes32 playerState.vel.x.intValue ++ (bytes32 playerState.vel.y.intValue ++
      (bytes32 playerState.speed.intValue ++ (bytes32 playerState.rotation.intValue ++
      (bytes32 playerState.health.intValue ++
        playerState.keyboard.toByte.toInt8.toUInt8 :: rest))))))) := by
    simp only [h, playerStateBytes, List.append_assoc, List.cons_append, List.nil_append,
      UInt8.toUInt8_toInt8]
  have h1 := unread_advance_one h0
  have h2 := unread_advance_of h1 (length_bytes32 _)
  have h3 := unread_advance_of h2 (length_bytes32 _)
  have h4 := unread_advance_of h3 (length_bytes32 _)
  have h5 := unread_advance_of h4 (length_bytes32 _)
  have h6 := unread_advance_of h5 (length_bytes32 _)
  have h7 := unread_advance_of h6 (length_bytes32 _)
  have h8 : _ = playerState.keyboard.toByte.toInt8.toUInt8 :: rest :=
    unread_advance_of h7 (length_bytes32 _)
  simp only [deserializePlayerState, readInt8_of_unread h0, readInt32_of_unread h1,
    readInt32_of_unread h2, readInt32_of_unread h3, readInt32_of_unread h4,
    readInt32_of_unread h5, readInt32_of_unread h6, readInt32_of_unread h7,
    readInt8_of_unread h8, Option.bind_eq_bind, Option.bind_some, Option.pure_def,
    UInt8.toUInt8_toInt8, UInt32.toUInt32_toInt32, Keyboard.readFromByte_toByte]
  simp only [advance_advance]
  rfl

theorem reads_deserializePlayerState : Reads 30 deserializePlayerState := by
  change Reads (1 + (4 + (4 + (4 + (4 + (4 + (4 + (4 + (1 + 0))))))))) deserializePlayerState
  exact reads_readInt8.bind fun _ => reads_readInt32.bind fun _ =>
    reads_readInt32.bind fun _ => reads_readInt32.bind fun _ => reads_readInt32.bind fun _ =>
      reads_readInt32.bind fun _ => reads_readInt32.bind fun _ => reads_readInt32.bind fun _ =>
        reads_readInt8.bind fun _ => Reads.pure _

theorem reads_deserializeLoop (n : ℕ) : Reads (30 * n) (deserializeLoop n) := by
  induction n with
  | zero => exact Reads.pure []
  | succ n ih =>
    have hwidth : 30 * (n + 1) = 30 + (30 * n + 0) := by omega
    rw [hwidth]
    exact reads_deserializePlayerState.bind fun _ => ih.bind fun _ => Reads.pure _

theorem toNat_toInt_toInt8_le (b : UInt8) : b.toInt8.toInt.toNat ≤ b.toNat := by
  have hint : b.toInt8.toInt = b.toBitVec.toInt := rfl
  have hnat : b.toBitVec.toNat = b.toNat := rfl
  rw [hint, BitVec.toInt_eq_toNat_cond, hnat]
  split <;> omega

/-- A list of states at least as long as its count byte says is read to its end. -/
theorem deserializePlayerStates_isSome {p : NetworkPacket} {count : UInt8} {rest : List UInt8}
    (h : p.unread = count :: rest) (hlen : 30 * count.toNat ≤ rest.length) :
    p.deserializePlayerStates.isSome = true := by
  have hcount : p.readInt8 = some (count.toInt8, p.advance 1) := by
    apply readInt8_of_unread
    rw [h, UInt8.toUInt8_toInt8]
  have hlength := congrArg List.length h
  rw [unread, List.length_drop, List.length_cons] at hlength
  have hle := toNat_toInt_toInt8_le count
  have hsize : p.size = p.buffer.length := rfl
  have hoffset : (p.advance 1).offset ≤ (p.advance 1).size := by
    rw [offset_advance, size_advance, hsize]
    omega
  rw [deserializePlayerStates, hcount]
  apply ((reads_deserializeLoop _).isSome_iff hoffset).mpr
  rw [offset_advance, size_advance, hsize]
  omega

end Packets.NetworkPacket

end RocketGame
