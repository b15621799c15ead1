import RocketGame.BigEndian

/-!
NetworkPacket.cs of the .NET programs: the 41 bytes of a packet, their encoding
and their decoding. The hash of System.IO.Hashing is a parameter, a function of
the bytes appended since the last Reset. A float is kept as the integer that
stands for it on the wire, its thousandths.
-/
namespace RocketGame.RocketShared

open BigEndian

abbrev Datagram := List UInt8

def hashLengthInBytes : ℕ := 4

/-- Crc32 after Reset: GetCurrentHash as a function of the appended bytes. -/
structure Crc32 where
  getCurrentHash : List UInt8 → List UInt8
  length_getCurrentHash : ∀ data, (getCurrentHash data).length = hashLengthInBytes

structure ApplicationException where
  message : String
  deriving DecidableEq, Repr

abbrev Thousandths := Int32

structure NetworkPacket where
  ticks : Int64 := 0
  positionX : Thousandths := 0
  positionY : Thousandths := 0
  velocityX : Thousandths := 0
  velocityY : Thousandths := 0
  rotation : Thousandths := 0
  speed : Thousandths := 0
  delta : Thousandths := 0
  isUp : UInt8 := 0
  isDown : UInt8 := 0
  isLeft : UInt8 := 0
  isRight : UInt8 := 0
  isFiring : UInt8 := 0
  deriving DecidableEq, Repr

namespace NetworkPacket

def protocolMagicNumber : List UInt8 := [0xFE]

def expectedMessageSize : ℕ := 8 + 4 * 7 + 1 + 4

def blockCopy (src : List UInt8) (data : Datagram) (offset : ℕ) : Datagram :=
  data.take offset ++ src ++ data.drop (offset + src.length)

/-- HostToNetworkOrder and GetBytes together: eight big-endian bytes. -/
def writeLong (data : Datagram) (offset : ℕ) (value : Int64) : Datagram × ℕ :=
  (blockCopy (encode 8 value.toUInt64.toNat) data offset, offset + 8)

def writeFloatToInt (data : Datagram) (offset : ℕ) (value : Thousandths) : Datagram × ℕ :=
  (blockCopy (encode 4 value.toUInt32.toNat) data offset, offset + 4)

/-- The clock reading is the stamp; the packet's own ticks are not written. -/
def getBytes (crc32 : Crc32) (utcNow : Int64) (p : NetworkPacket) : Datagram :=
  let data := List.replicate expectedMessageSize 0
  let offset := hashLengthInBytes
  let (data, offset) := writeLong data offset utcNow
  let (data, offset) := writeFloatToInt data offset p.positionX
  let (data, offset) := writeFloatToInt data offset p.positionY
  let (data, offset) := writeFloatToInt data offset p.velocityX
  let (data, offset) := writeFloatToInt data offset p.velocityY
  let (data, offset) := writeFloatToInt data offset p.rotation
  let (data, offset) := writeFloatToInt data offset p.speed
  let (data, offset) := writeFloatToInt data offset p.delta
  let data := data.set offset
    (p.isUp <<< 5 ||| p.isDown <<< 4 ||| p.isLeft <<< 3 ||| p.isRight <<< 2 ||| p.isFiring)
  let crc32value := crc32.getCurrentHash (protocolMagicNumber ++ data.drop hashLengthInBytes)
  blockCopy (crc32value.take hashLengthInBytes) data 0

def toInt32 (data : List UInt8) : Int32 := (UInt32.ofNat (decode (data.take 4).reverse)).toInt32

def readLong (data : Datagram) (offset : ℕ) : Int64 × ℕ :=
  ((UInt64.ofNat (decode ((data.drop offset).take 8))).toInt64, offset + 8)

def readIntToFloat (data : Datagram) (offset : ℕ) : Thousandths × ℕ :=
  ((UInt32.ofNat (decode ((data.drop offset).take 4))).toInt32, offset + 4)

def hashed (data : Datagram) : List UInt8 := protocolMagicNumber ++ data.drop hashLengthInBytes

def fromBytes (crc32 : Crc32) (data : Datagram) : Except ApplicationException NetworkPacket :=
  let offset := hashLengthInBytes
  if data.length ≠ expectedMessageSize then
    .error ⟨s!"Invalid message size. Expected: {expectedMessageSize} vs. Actual: {data.length}"⟩
  else
    let crc32valueReceived := toInt32 data
    let crc32valueCalculated := toInt32 (crc32.getCurrentHash (hashed data))
    if crc32valueReceived ≠ crc32valueCalculated then
      .error ⟨s!"Received CRC32 value {crc32valueReceived}, calculated {crc32valueCalculated}."⟩
    else
      let (ticks, offset) := readLong data offset
      let (positionX, offset) := readIntToFloat data offset
      let (positionY, offset) := readIntToFloat data offset
      let (velocityX, offset) := readIntToFloat data offset
      let (velocityY, offset) := readIntToFloat data offset
      let (rotation, offset) := readIntToFloat data offset
      let (speed, offset) := readIntToFloat data offset
      let (delta, offset) := readIntToFloat data offset
      let keyboard := data.getD offset 0
      .ok
        { ticks, positionX, positionY, velocityX, velocityY, rotation, speed, delta,
          isUp := (keyboard >>> 5) &&& 1
          isDown := (keyboard >>> 4) &&& 1
          isLeft := (keyboard >>> 3) &&& 1
          isRight := (keyboard >>> 2) &&& 1
          isFiring := keyboard &&& 1 }

/-- What FromBytes accepts: the right size under the right hash. -/
def Valid (crc32 : Crc32) (data : Datagram) : Prop :=
  data.length = expectedMessageSize ∧ toInt32 data = toInt32 (crc32.getCurrentHash (hashed data))

instance (crc32 : Crc32) (data : Datagram) : Decidable (Valid crc32 data) :=
  inferInstanceAs (Decidable (_ ∧ _))

theorem exists_fromBytes_iff (crc32 : Crc32) (data : Datagram) :
    (∃ packet, fromBytes crc32 data = .ok packet) ↔ Valid crc32 data := by
  unfold fromBytes Valid
  by_cases hsize : data.length = expectedMessageSize
  · by_cases hhash : toInt32 data = toInt32 (crc32.getCurrentHash (hashed data))
    · simp only [hsize, hhash, ne_eq, not_true_eq_false, if_false]
      exact iff_of_true ⟨_, rfl⟩ ⟨trivial, trivial⟩
    · simp only [hsize, hhash, ne_eq, not_true_eq_false, not_false_eq_true, if_false, if_true,
        and_false, reduceCtorEq, exists_false]
  · simp only [hsize, ne_eq, not_false_eq_true, if_true, false_and, reduceCtorEq,
      exists_false]

def withHash (crc32 : Crc32) (body : List UInt8) : Datagram :=
  crc32.getCurrentHash (protocolMagicNumber ++ body) ++ body

theorem valid_withHash (crc32 : Crc32) {body : List UInt8}
    (h : hashLengthInBytes + body.length = expectedMessageSize) :
    Valid crc32 (withHash crc32 body) := by
  have hlen := crc32.length_getCurrentHash (protocolMagicNumber ++ body)
  have hbody : (withHash crc32 body).drop hashLengthInBytes = body := by
    rw [withHash, ← hlen, List.drop_left]
  have hhash : (withHash crc32 body).take 4 =
      (crc32.getCurrentHash (protocolMagicNumber ++ body)).take 4 :=
    List.take_append_of_le_length hlen.ge
  refine ⟨by rw [withHash, List.length_append, hlen, h], ?_⟩
  rw [hashed, hbody, toInt32, hhash, toInt32]

end NetworkPacket

end RocketGame.RocketShared
