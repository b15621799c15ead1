import RocketGame.BigEndian
import RocketGame.Crc32

/-!
NetworkPacket: a byte buffer with a read offset. Writes append big-endian
fields at the end; a read past the end of the buffer is undefined in the
source and is none here. The first four bytes hold the CRC that Send fills in
and the receiver validates. The CRC register is reset before every use, so it
is not part of the state.
-/
namespace RocketGame.Packets

open BigEndian

abbrev Datagram := List UInt8

inductive NetworkPacketType
  | unknown | connectionRequest | connectionDenied | challenge | challengeResponse
  | connectionAccepted | gameState | inputFrame | disconnect | pause | resume
  | clock | clockResponse
  deriving DecidableEq, Repr

namespace NetworkPacketType

def toInt8 : NetworkPacketType → Int8
  | unknown => 0
  | connectionRequest => 1
  | connectionDenied => 2
  | challenge => 3
  | challengeResponse => 4
  | connectionAccepted => 5
  | gameState => 10
  | inputFrame => 11
  | disconnect => 20
  | pause => 30
  | resume => 31
  | clock => 40
  | clockResponse => 41

/-- The cast of a received byte; none is a value outside the enumerators,
which every switch sends to its default branch. -/
def ofInt8 (value : Int8) : Option NetworkPacketType :=
  [unknown, connectionRequest, connectionDenied, challenge, challengeResponse,
    connectionAccepted, gameState, inputFrame, disconnect, pause, resume, clock,
    clockResponse].find? fun t => t.toInt8 == value

theorem ofInt8_toInt8 (t : NetworkPacketType) : ofInt8 t.toInt8 = some t := by
  cases t <;> decide

end NetworkPacketType

def bytes16 (value : UInt16) : List UInt8 := encode 2 value.toNat

def bytes32 (value : UInt32) : List UInt8 := encode 4 value.toNat

def bytes64 (value : UInt64) : List UInt8 := encode 8 value.toNat

@[simp] theorem length_bytes16 (value : UInt16) : (bytes16 value).length = 2 := length_encode ..

@[simp] theorem length_bytes32 (value : UInt32) : (bytes32 value).length = 4 := length_encode ..

@[simp] theorem length_bytes64 (value : UInt64) : (bytes64 value).length = 8 := length_encode ..

theorem decode_bytes16 (value : UInt16) : UInt16.ofNat (decode (bytes16 value)) = value := by
  rw [bytes16, decode_encode_of_lt value.toNat_lt, UInt16.ofNat_toNat]

theorem decode_bytes32 (value : UInt32) : UInt32.ofNat (decode (bytes32 value)) = value := by
  rw [bytes32, decode_encode_of_lt value.toNat_lt, UInt32.ofNat_toNat]

theorem decode_bytes64 (value : UInt64) : UInt64.ofNat (decode (bytes64 value)) = value := by
  rw [bytes64, decode_encode_of_lt value.toNat_lt, UInt64.ofNat_toNat]

structure NetworkPacket where
  buffer : List UInt8
  offset : ℕ
  deriving DecidableEq, Repr

namespace NetworkPacket

def protocolMagicNumber : UInt8 := 0xFE

def ofBytes (data : Datagram) : NetworkPacket := ⟨data, 0⟩

def size (p : NetworkPacket) : ℕ := p.buffer.length

def write (p : NetworkPacket) (bytes : List UInt8) : NetworkPacket :=
  ⟨p.buffer ++ bytes, p.offset⟩

def writeInt8 (p : NetworkPacket) (value : Int8) : NetworkPacket := p.write [value.toUInt8]

def writeInt16 (p : NetworkPacket) (value : Int16) : NetworkPacket :=
  p.write (bytes16 value.toUInt16)

def writeInt32 (p : NetworkPacket) (value : Int32) : NetworkPacket :=
  p.write (bytes32 value.toUInt32)

def writeInt64 (p : NetworkPacket) (value : Int64) : NetworkPacket :=
  p.write (bytes64 value.toUInt64)

def writeUInt64 (p : NetworkPacket) (value : UInt64) : NetworkPacket := p.write (bytes64 value)

def clear (_ : NetworkPacket) : NetworkPacket := (NetworkPacket.mk [] 0).writeInt32 0

def empty : NetworkPacket := (NetworkPacket.mk [] 0).clear

def advance (p : NetworkPacket) (width : ℕ) : NetworkPacket := ⟨p.buffer, p.offset + width⟩

def unread (p : NetworkPacket) : List UInt8 := p.buffer.drop p.offset

def read (p : NetworkPacket) (width : ℕ) : Option (ℕ × NetworkPacket) :=
  if p.offset + width ≤ p.size then some (decode (p.unread.take width), p.advance width)
  else none

def readInt8 (p : NetworkPacket) : Option (Int8 × NetworkPacket) :=
  (p.read 1).map fun (value, p) => ((UInt8.ofNat value).toInt8, p)

def readInt16 (p : NetworkPacket) : Option (Int16 × NetworkPacket) :=
  (p.read 2).map fun (value, p) => ((UInt16.ofNat value).toInt16, p)

def readInt32 (p : NetworkPacket) : Option (Int32 × NetworkPacket) :=
  (p.read 4).map fun (value, p) => ((UInt32.ofNat value).toInt32, p)

def readUInt64 (p : NetworkPacket) : Option (UInt64 × NetworkPacket) :=
  (p.read 8).map fun (value, p) => (UInt64.ofNat value, p)

def readNetworkPacketType (p : NetworkPacket) :
    Option (Option NetworkPacketType × NetworkPacket) :=
  p.readInt8.map fun (value, p) => (NetworkPacketType.ofInt8 value, p)

/-- The CRC both ends compute: the magic number, then the bytes after the CRC field. -/
def payloadCRC (payload : List UInt8) : UInt32 :=
  Crc32.value (Crc32.update (Crc32.update Crc32.reset [protocolMagicNumber]) payload)

/-- The result is 0 for a valid CRC and 1 for an invalid one. -/
def readAndValidateCRC (p : NetworkPacket) : Option (ℤ × NetworkPacket) :=
  p.readInt32.map fun (receivedCrc, p) =>
    if receivedCrc.toUInt32 ≠ payloadCRC (p.buffer.drop Crc32.crcSize) then (1, p) else (0, p)

def calculateCRC (p : NetworkPacket) : NetworkPacket :=
  ⟨bytes32 (payloadCRC (p.buffer.drop Crc32.crcSize)) ++ p.buffer.drop Crc32.crcSize, p.offset⟩

def toDatagram (p : NetworkPacket) : Datagram := p.calculateCRC.buffer

@[simp] theorem size_advance (p : NetworkPacket) (w : ℕ) : (p.advance w).size = p.size := rfl

@[simp] theorem buffer_advance (p : NetworkPacket) (w : ℕ) :
    (p.advance w).buffer = p.buffer := rfl

@[simp] theorem offset_advance (p : NetworkPacket) (w : ℕ) :
    (p.advance w).offset = p.offset + w := rfl

@[simp] theorem offset_ofBytes (data : Datagram) : (ofBytes data).offset = 0 := rfl

@[simp] theorem size_ofBytes (data : Datagram) : (ofBytes data).size = data.length := rfl

@[simp] theorem buffer_ofBytes (data : Datagram) : (ofBytes data).buffer = data := rfl

@[simp] theorem unread_ofBytes (data : Datagram) : (ofBytes data).unread = data := rfl

theorem advance_advance (p : NetworkPacket) (v w : ℕ) :
    (p.advance v).advance w = p.advance (v + w) := by
  simp only [advance, Nat.add_assoc]

theorem unread_advance (p : NetworkPacket) (w : ℕ) :
    (p.advance w).unread = p.unread.drop w := by
  simp only [unread, buffer_advance, offset_advance, List.drop_drop]

/-- Reading a field leaves what follows it unread. -/
theorem unread_advance_of {p : NetworkPacket} {w : ℕ} {front rest : List UInt8}
    (h : p.unread = front ++ rest) (hw : front.length = w) : (p.advance w).unread = rest := by
  rw [unread_advance, h, ← hw, List.drop_left]

theorem unread_advance_one {p : NetworkPacket} {b : UInt8} {rest : List UInt8}
    (h : p.unread = b :: rest) : (p.advance 1).unread = rest := by
  have hfront : p.unread = [b] ++ rest := h
  exact unread_advance_of hfront rfl

theorem read_of_unread {p : NetworkPacket} {w : ℕ} {front rest : List UInt8}
    (h : p.unread = front ++ rest) (hw : front.length = w) (hpos : 0 < w) :
    p.read w = some (decode front, p.advance w) := by
  have hlen := congrArg List.length h
  simp only [unread, List.length_drop, List.length_append, hw] at hlen
  have hfits : p.offset + w ≤ p.size := by
    unfold size
    omega
  rw [read, if_pos hfits, h, List.take_left' hw]

theorem readInt8_of_unread {p : NetworkPacket} {value : Int8} {rest : List UInt8}
    (h : p.unread = value.toUInt8 :: rest) : p.readInt8 = some (value, p.advance 1) := by
  have hread : p.read 1 = some (decode [value.toUInt8], p.advance 1) :=
    read_of_unread h rfl Nat.one_pos
  have hvalue : UInt8.ofNat (decode [value.toUInt8]) = value.toUInt8 := by
    simp only [decode, List.length_nil, pow_zero, mul_one, add_zero, UInt8.ofNat_toNat]
  simp only [readInt8, hread, Option.map_some, hvalue, Int8.toInt8_toUInt8]

theorem readInt16_of_unread {p : NetworkPacket} {value : UInt16} {rest : List UInt8}
    (h : p.unread = bytes16 value ++ rest) :
    p.readInt16 = some (value.toInt16, p.advance 2) := by
  have hread := read_of_unread h (length_bytes16 value) (Nat.succ_pos _)
  simp only [readInt16, hread, Option.map_some, decode_bytes16]

theorem readInt32_of_unread {p : NetworkPacket} {value : UInt32} {rest : List UInt8}
    (h : p.unread = bytes32 value ++ rest) :
    p.readInt32 = some (value.toInt32, p.advance 4) := by
  have hread := read_of_unread h (length_bytes32 value) (Nat.succ_pos _)
  simp only [readInt32, hread, Option.map_some, decode_bytes32]

theorem readUInt64_of_unread {p : NetworkPacket} {value : UInt64} {rest : List UInt8}
    (h : p.unread = bytes64 value ++ rest) :
    p.readUInt64 = some (value, p.advance 8) := by
  have hread := read_of_unread h (length_bytes64 value) (Nat.succ_pos _)
  simp only [readUInt64, hread, Option.map_some, decode_bytes64]

theorem readNetworkPacketType_of_unread {p : NetworkPacket} {t : NetworkPacketType}
    {rest : List UInt8} (h : p.unread = t.toInt8.toUInt8 :: rest) :
    p.readNetworkPacketType = some (some t, p.advance 1) := by
  simp [readNetworkPacketType, readInt8_of_unread h, NetworkPacketType.ofInt8_toInt8]

/-- A reader of a fixed width: it moves the offset by the width, and fails
exactly when that runs past the end of the buffer. -/
structure Reads {α : Type} (width : ℕ) (r : NetworkPacket → Option (α × NetworkPacket)) :
    Prop where
  fits : ∀ p, p.offset + width ≤ p.size → ∃ value, r p = some (value, p.advance width)
  fails : ∀ p, p.offset ≤ p.size → p.size < p.offset + width → r p = none

theorem reads_read (width : ℕ) : Reads width fun p => p.read width where
  fits p h := ⟨_, by rw [read, if_pos h]⟩
  fails p _ h := by rw [read, if_neg (by omega)]

namespace Reads

variable {α β : Type} {v w : ℕ} {r : NetworkPacket → Option (α × NetworkPacket)}

theorem pure (value : α) : Reads 0 fun p => some (value, p) where
  fits p _ := ⟨value, rfl⟩
  fails p h h' := absurd h' (by omega)

/-- Two reads in a row make one read of the added widths. -/
theorem bind {g : α × NetworkPacket → Option (β × NetworkPacket)} (h : Reads v r)
    (hg : ∀ value, Reads w fun p => g (value, p)) : Reads (v + w) fun p => (r p).bind g where
  fits p hp := by
    obtain ⟨value, hvalue⟩ := h.fits p (by omega)
    have hnext : (p.advance v).offset + w ≤ (p.advance v).size := by
      simp only [offset_advance, size_advance]
      omega
    obtain ⟨value', hvalue'⟩ := (hg value).fits _ hnext
    exact ⟨value', by simpa only [hvalue, Option.bind_some, advance_advance] using hvalue'⟩
  fails p h0 hp := by
    by_cases hfirst : p.offset + v ≤ p.size
    · obtain ⟨value, hvalue⟩ := h.fits p hfirst
      rw [hvalue, Option.bind_some]
      apply (hg value).fails _ hfirst
      simp only [offset_advance, size_advance]
      omega
    · rw [h.fails p h0 (by omega), Option.bind_none]

theorem map {f : α × NetworkPacket → β × NetworkPacket} (h : Reads w r)
    (hf : ∀ x, (f x).2 = x.2) : Reads w fun p => (r p).map f where
  fits p hp := by
    obtain ⟨value, hvalue⟩ := h.fits p hp
    have hnext := hf (value, p.advance w)
    refine ⟨(f (value, p.advance w)).1, ?_⟩
    rw [hvalue, Option.map_some]
    exact congrArg some (Prod.ext rfl hnext)
  fails p h0 hp := by rw [h.fails p h0 hp, Option.map_none]

theorem isSome_iff (h : Reads w r) {p : NetworkPacket} (h0 : p.offset ≤ p.size) :
    (r p).isSome = true ↔ p.offset + w ≤ p.size := by
  constructor
  · intro hsome
    by_contra hnot
    rw [h.fails p h0 (by omega)] at hsome
    cases hsome
  · intro hfits
    obtain ⟨value, hvalue⟩ := h.fits p hfits
    rw [hvalue, Option.isSome_some]

/-- A read followed by code that succeeds regardless of the value read. -/
theorem isSome_bind {γ : Type} {P : Prop} {g : α × NetworkPacket → Option γ} (h : Reads w r)
    {p : NetworkPacket} (h0 : p.offset ≤ p.size)
    (hg : p.offset + w ≤ p.size → ∀ value, (g (value, p.advance w)).isSome = true ↔ P) :
    ((r p).bind g).isSome = true ↔ p.offset + w ≤ p.size ∧ P := by
  by_cases hfits : p.offset + w ≤ p.size
  · obtain ⟨value, hvalue⟩ := h.fits p hfits
    rw [hvalue, Option.bind_some, hg hfits value]
    exact ⟨fun hP => ⟨hfits, hP⟩, fun hP => hP.2⟩
  · rw [h.fails p h0 (by omega), Option.bind_none]
    simp [hfits]

/-- The same where what follows needs this read anyway. -/
theorem isSome_bind_of_imp {γ : Type} {P : Prop} {g : α × NetworkPacket → Option γ}
    (h : Reads w r) {p : NetworkPacket} (h0 : p.offset ≤ p.size)
    (hP : P → p.offset + w ≤ p.size)
    (hg : p.offset + w ≤ p.size → ∀ value, (g (value, p.advance w)).isSome = true ↔ P) :
    ((r p).bind g).isSome = true ↔ P :=
  (h.isSome_bind h0 hg).trans (and_iff_right_of_imp hP)

/-- A read that succeeded was in bounds and moved the offset by its width. -/
theorem eq_advance (h : Reads w r) {p p' : NetworkPacket} {value : α}
    (h0 : p.offset ≤ p.size) (hr : r p = some (value, p')) :
    p.offset + w ≤ p.size ∧ p' = p.advance w := by
  have hfits := (h.isSome_iff h0).mp (by rw [hr, Option.isSome_some])
  obtain ⟨value', hvalue'⟩ := h.fits p hfits
  rw [hr, Option.some.injEq, Prod.mk.injEq] at hvalue'
  exact ⟨hfits, hvalue'.2⟩

/-- A read fails where the datagram ends before its last byte. -/
theorem fails_at (h : Reads w r) {data : Datagram} {n : ℕ} (hn : n ≤ data.length)
    (hshort : data.length < n + w) : r ((ofBytes data).advance n) = none := by
  apply h.fails
  · rwa [offset_advance, offset_ofBytes, Nat.zero_add]
  · rwa [offset_advance, offset_ofBytes, Nat.zero_add]

end Reads

theorem reads_readInt8 : Reads 1 readInt8 := (reads_read 1).map fun _ => rfl

theorem reads_readInt16 : Reads 2 readInt16 := (reads_read 2).map fun _ => rfl

theorem reads_readInt32 : Reads 4 readInt32 := (reads_read 4).map fun _ => rfl

theorem reads_readUInt64 : Reads 8 readUInt64 := (reads_read 8).map fun _ => rfl

theorem reads_readNetworkPacketType : Reads 1 readNetworkPacketType :=
  reads_readInt8.map fun _ => rfl

theorem reads_readAndValidateCRC : Reads 4 readAndValidateCRC := by
  refine reads_readInt32.map fun x => ?_
  by_cases h : x.1.toUInt32 ≠ payloadCRC (x.2.buffer.drop Crc32.crcSize)
  · exact congrArg Prod.snd (if_pos h)
  · exact congrArg Prod.snd (if_neg h)

def sealed (payload : List UInt8) : Datagram := bytes32 (payloadCRC payload) ++ payload

@[simp] theorem length_sealed (payload : List UInt8) :
    (sealed payload).length = 4 + payload.length := by
  simp [sealed]

theorem toDatagram_eq_sealed (p : NetworkPacket) : p.toDatagram = sealed (p.buffer.drop 4) := rfl

/-- What Send seals passes the receiver's check and leaves the payload unread. -/
theorem readAndValidateCRC_sealed (payload : List UInt8) :
    (ofBytes (sealed payload)).readAndValidateCRC =
      some (0, (ofBytes (sealed payload)).advance 4) := by
  have hunread : (ofBytes (sealed payload)).unread = bytes32 (payloadCRC payload) ++ payload := rfl
  have hread := readInt32_of_unread hunread
  have hdrop : (sealed payload).drop Crc32.crcSize = payload :=
    List.drop_left' (length_bytes32 _)
  simp [readAndValidateCRC, hread, hdrop]

theorem unread_sealed (payload : List UInt8) :
    ((ofBytes (sealed payload)).advance 4).unread = payload :=
  unread_advance_of (show _ = bytes32 (payloadCRC payload) ++ payload from rfl) (length_bytes32 _)

end NetworkPacket

end RocketGame.Packets
