import RocketGame.Packets

/-!
Packets with any layout. A message is a list of typed fields; the writer appends
them and the reader asks for the same types in the same order. NetworkPacket has
no ReadInt64: both 64-bit types are read with ReadUInt64, and the caller casts.
-/
namespace RocketGame.Packets

inductive FieldType
  | int8 | int16 | int32 | int64 | uint64
  deriving DecidableEq, Repr

inductive Field
  | int8 (value : Int8)
  | int16 (value : Int16)
  | int32 (value : Int32)
  | int64 (value : Int64)
  | uint64 (value : UInt64)
  deriving DecidableEq, Repr

def Field.type : Field → FieldType
  | int8 _ => .int8
  | int16 _ => .int16
  | int32 _ => .int32
  | int64 _ => .int64
  | uint64 _ => .uint64

def Field.bytes : Field → List UInt8
  | int8 value => [value.toUInt8]
  | int16 value => bytes16 value.toUInt16
  | int32 value => bytes32 value.toUInt32
  | int64 value => bytes64 value.toUInt64
  | uint64 value => bytes64 value

namespace NetworkPacket

def writeField (p : NetworkPacket) : Field → NetworkPacket
  | .int8 value => p.writeInt8 value
  | .int16 value => p.writeInt16 value
  | .int32 value => p.writeInt32 value
  | .int64 value => p.writeInt64 value
  | .uint64 value => p.writeUInt64 value

def writeFields (p : NetworkPacket) (fields : List Field) : NetworkPacket :=
  fields.foldl writeField p

def readField (p : NetworkPacket) : FieldType → Option (Field × NetworkPacket)
  | .int8 => p.readInt8.map fun (value, p) => (.int8 value, p)
  | .int16 => p.readInt16.map fun (value, p) => (.int16 value, p)
  | .int32 => p.readInt32.map fun (value, p) => (.int32 value, p)
  | .int64 => p.readUInt64.map fun (value, p) => (.int64 value.toInt64, p)
  | .uint64 => p.readUInt64.map fun (value, p) => (.uint64 value, p)

def readFields (p : NetworkPacket) : List FieldType → Option (List Field × NetworkPacket)
  | [] => some ([], p)
  | t :: types => do
      let (field, p) ← p.readField t
      let (fields, p) ← p.readFields types
      return (field :: fields, p)

theorem write_write (p : NetworkPacket) (left right : List UInt8) :
    (p.write left).write right = p.write (left ++ right) := by
  simp only [write, List.append_assoc]

theorem writeField_eq_write (p : NetworkPacket) (field : Field) :
    p.writeField field = p.write field.bytes := by
  cases field <;> rfl

theorem writeFields_eq_write (p : NetworkPacket) (fields : List Field) :
    p.writeFields fields = p.write (fields.flatMap Field.bytes) := by
  induction fields generalizing p with
  | nil => simp only [writeFields, List.foldl_nil, List.flatMap_nil, write, List.append_nil]
  | cons field fields ih =>
    have hrest : p.writeFields (field :: fields) = (p.writeField field).writeFields fields := rfl
    rw [hrest, ih, writeField_eq_write, write_write, List.flatMap_cons]

/-- A field is read back from its own bytes, whatever follows them. -/
theorem readField_of_unread {p : NetworkPacket} {field : Field} {rest : List UInt8}
    (h : p.unread = field.bytes ++ rest) :
    p.readField field.type = some (field, p.advance field.bytes.length) := by
  cases field with
  | int8 value =>
    have hread : p.readInt8 = some (value, p.advance 1) := readInt8_of_unread h
    simp only [readField, Field.type, hread, Option.map_some]
    rfl
  | int16 value =>
    have hread : p.readInt16 = some (value.toUInt16.toInt16, p.advance 2) :=
      readInt16_of_unread h
    simp only [readField, Field.type, hread, Option.map_some, Int16.toInt16_toUInt16, Field.bytes,
      length_bytes16]
  | int32 value =>
    have hread : p.readInt32 = some (value.toUInt32.toInt32, p.advance 4) :=
      readInt32_of_unread h
    simp only [readField, Field.type, hread, Option.map_some, Int32.toInt32_toUInt32, Field.bytes,
      length_bytes32]
  | int64 value =>
    have hread : p.readUInt64 = some (value.toUInt64, p.advance 8) := readUInt64_of_unread h
    simp only [readField, Field.type, hread, Option.map_some, Int64.toInt64_toUInt64, Field.bytes,
      length_bytes64]
  | uint64 value =>
    have hread : p.readUInt64 = some (value, p.advance 8) := readUInt64_of_unread h
    simp only [readField, Field.type, hread, Option.map_some, Field.bytes, length_bytes64]

theorem readFields_of_unread {p : NetworkPacket} {fields : List Field} {rest : List UInt8}
    (h : p.unread = fields.flatMap Field.bytes ++ rest) :
    p.readFields (fields.map Field.type) =
      some (fields, p.advance (fields.flatMap Field.bytes).length) := by
  induction fields generalizing p with
  | nil => rfl
  | cons field fields ih =>
    rw [List.flatMap_cons, List.append_assoc] at h
    have hrest := unread_advance_of h rfl
    simp only [List.map_cons, readFields, readField_of_unread h, ih hrest, Option.bind_eq_bind,
      Option.bind_some, Option.pure_def, advance_advance, List.flatMap_cons, List.length_append]

/-- A cleared packet is its fields behind the placeholder of the CRC. -/
theorem toDatagram_writeFields (p : NetworkPacket) (fields : List Field) :
    (p.clear.writeFields fields).toDatagram = sealed (fields.flatMap Field.bytes) := by
  rw [toDatagram_eq_sealed, writeFields_eq_write]
  have hclear : p.clear.buffer = bytes32 0 := rfl
  rw [write, hclear, List.drop_left' (length_bytes32 0)]

/-- Whatever is written after Clear and sealed with its CRC passes the check of the
receiver, who reads the same values back and ends at the end of the buffer. -/
theorem readFields_writeFields (p : NetworkPacket) (fields : List Field) :
    ∃ start done, (ofBytes (p.clear.writeFields fields).toDatagram).readAndValidateCRC =
        some (0, start) ∧
      start.readFields (fields.map Field.type) = some (fields, done) ∧
      done.offset = done.size := by
  rw [toDatagram_writeFields]
  have hbody : ((ofBytes (sealed (fields.flatMap Field.bytes))).advance 4).unread =
      fields.flatMap Field.bytes ++ [] := (unread_sealed _).trans (List.append_nil _).symm
  refine ⟨_, _, readAndValidateCRC_sealed _, readFields_of_unread hbody, ?_⟩
  rw [offset_advance, offset_advance, offset_ofBytes, size_advance, size_advance, size_ofBytes,
    length_sealed, Nat.zero_add]

end NetworkPacket

end RocketGame.Packets
