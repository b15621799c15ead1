import RocketGame.RelayCompleteness

/-!
The encoder and the decoder of the .NET packet. GetBytes fills an array of zeros
from offset 4 and puts the hash in front; FromBytes reads the same fields back.
The stamp on the wire is the clock reading of the sender, whatever the packet's
own ticks are.
-/
namespace RocketGame.PacketRoundTrip

open BigEndian RocketShared
open RelayCompleteness (ieee)
open NetworkPacket

def encodeLong (value : Int64) : List UInt8 := encode 8 value.toUInt64.toNat

def encodeInt (value : Thousandths) : List UInt8 := encode 4 value.toUInt32.toNat

@[simp] theorem length_encodeLong (value : Int64) : (encodeLong value).length = 8 :=
  length_encode ..

@[simp] theorem length_encodeInt (value : Thousandths) : (encodeInt value).length = 4 :=
  length_encode ..

def floats (p : NetworkPacket) : List Thousandths :=
  [p.positionX, p.positionY, p.velocityX, p.velocityY, p.rotation, p.speed, p.delta]

def keyboard (p : NetworkPacket) : UInt8 :=
  p.isUp <<< 5 ||| p.isDown <<< 4 ||| p.isLeft <<< 3 ||| p.isRight <<< 2 ||| p.isFiring

def body (ticks : Int64) (p : NetworkPacket) : List UInt8 :=
  encodeLong ticks ++ ((floats p).flatMap encodeInt ++ [keyboard p])

theorem length_body (ticks : Int64) (p : NetworkPacket) :
    hashLengthInBytes + (body ticks p).length = expectedMessageSize := by
  simp [body, floats, hashLengthInBytes, expectedMessageSize]

section Writing

def filled (written : List UInt8) : Datagram :=
  List.replicate hashLengthInBytes 0 ++
    (written ++ List.replicate (expectedMessageSize - hashLengthInBytes - written.length) 0)

variable {written src : List UInt8}

theorem blockCopy_filled : blockCopy src (filled written) (hashLengthInBytes + written.length) =
    filled (written ++ src) := by
  let room := expectedMessageSize - hashLengthInBytes - written.length
  have htake : (filled written).take (hashLengthInBytes + written.length) =
      List.replicate hashLengthInBytes 0 ++ written := by
    rw [filled, ← List.append_assoc]
    exact List.take_left' (by simp)
  have hdrop : (filled written).drop (hashLengthInBytes + written.length + src.length) =
      List.replicate (room - src.length) 0 := by
    rw [filled, ← List.append_assoc, ← List.drop_drop, List.drop_left' (by simp),
      List.drop_replicate]
  rw [blockCopy, htake, hdrop, filled, List.length_append, ← Nat.sub_sub]
  simp only [List.append_assoc]
  rfl

theorem writeLong_filled (value : Int64) :
    writeLong (filled written) (hashLengthInBytes + written.length) value =
      (filled (written ++ encodeLong value),
        hashLengthInBytes + (written ++ encodeLong value).length) := by
  rw [writeLong, ← encodeLong, blockCopy_filled, List.length_append, length_encodeLong,
    Nat.add_assoc]

/-- The seven floats are written by seven calls. -/
theorem writeFloats_filled (values : List Thousandths) :
    values.foldl (fun buffer value => writeFloatToInt buffer.1 buffer.2 value)
        (filled written, hashLengthInBytes + written.length) =
      (filled (written ++ values.flatMap encodeInt),
        hashLengthInBytes + (written ++ values.flatMap encodeInt).length) := by
  induction values generalizing written with
  | nil => rw [List.flatMap_nil, List.append_nil, List.foldl_nil]
  | cons value values ih =>
    have hlen : hashLengthInBytes + written.length + 4 =
        hashLengthInBytes + (written ++ encodeInt value).length := by
      rw [List.length_append, length_encodeInt, Nat.add_assoc]
    rw [List.foldl_cons, writeFloatToInt, ← encodeInt, blockCopy_filled, hlen, ih,
      List.flatMap_cons, List.append_assoc]

/-- The keyboard takes the last byte. -/
theorem set_filled (b : UInt8) (h : hashLengthInBytes + written.length + 1 = expectedMessageSize) :
    (filled written).set (hashLengthInBytes + written.length) b =
      List.replicate hashLengthInBytes 0 ++ (written ++ [b]) := by
  have hroom : expectedMessageSize - hashLengthInBytes - written.length = 1 := by omega
  have hlen : hashLengthInBytes + written.length =
      (List.replicate hashLengthInBytes (0 : UInt8) ++ written).length := by simp
  rw [filled, hroom, ← List.append_assoc, hlen, List.set_append_right _ _ (Nat.le_refl _),
    Nat.sub_self, ← List.append_assoc]
  rfl

def unhashed (utcNow : Int64) (p : NetworkPacket) : Datagram :=
  let buffer := (floats p).foldl (fun buffer value => writeFloatToInt buffer.1 buffer.2 value)
    (writeLong (List.replicate expectedMessageSize 0) hashLengthInBytes utcNow)
  buffer.1.set buffer.2 (keyboard p)

theorem unhashed_eq (utcNow : Int64) (p : NetworkPacket) :
    unhashed utcNow p = List.replicate hashLengthInBytes 0 ++ body utcNow p := by
  have hticks : writeLong (List.replicate expectedMessageSize 0) hashLengthInBytes utcNow =
      (filled (encodeLong utcNow), hashLengthInBytes + (encodeLong utcNow).length) :=
    @writeLong_filled [] utcNow
  have hkeyboard := @set_filled (encodeLong utcNow ++ (floats p).flatMap encodeInt) (keyboard p)
    (by simp [floats, hashLengthInBytes, expectedMessageSize])
  rw [unhashed, hticks, writeFloats_filled]
  dsimp only
  rw [hkeyboard, body, List.append_assoc]

/-- The encoder puts the hash in front of the fields. -/
theorem getBytes_eq (crc32 : Crc32) (utcNow : Int64) (p : NetworkPacket) :
    getBytes crc32 utcNow p = withHash crc32 (body utcNow p) := by
  have hlen := crc32.length_getCurrentHash (protocolMagicNumber ++ body utcNow p)
  have hdrop : (unhashed utcNow p).drop hashLengthInBytes = body utcNow p := by
    rw [unhashed_eq]
    exact List.drop_left' List.length_replicate
  have hget : getBytes crc32 utcNow p =
      blockCopy ((crc32.getCurrentHash (protocolMagicNumber ++
        (unhashed utcNow p).drop hashLengthInBytes)).take hashLengthInBytes)
        (unhashed utcNow p) 0 := rfl
  rw [hget, hdrop, List.take_of_length_le hlen.le, blockCopy, hlen, Nat.zero_add, hdrop,
    List.take_zero, List.nil_append, withHash]

end Writing

section Reading

variable {data rest : Datagram} {offset : ℕ}

theorem readLong_of_drop {value : Int64} (h : data.drop offset = encodeLong value ++ rest) :
    readLong data offset = (value, offset + 8) := by
  have hlt : value.toUInt64.toNat < 256 ^ 8 := value.toUInt64.toNat_lt
  rw [readLong, h, List.take_left' (length_encodeLong value), encodeLong,
    decode_encode_of_lt hlt, UInt64.ofNat_toNat]
  rfl

theorem readIntToFloat_of_drop {value : Thousandths}
    (h : data.drop offset = encodeInt value ++ rest) :
    readIntToFloat data offset = (value, offset + 4) := by
  have hlt : value.toUInt32.toNat < 256 ^ 4 := value.toUInt32.toNat_lt
  rw [readIntToFloat, h, List.take_left' (length_encodeInt value), encodeInt,
    decode_encode_of_lt hlt, UInt32.ofNat_toNat]
  rfl

theorem encode_decode_field {w : ℕ} (h : offset + w ≤ data.length) :
    decode ((data.drop offset).take w) < 256 ^ w ∧
      encode w (decode ((data.drop offset).take w)) = (data.drop offset).take w := by
  have hlen : ((data.drop offset).take w).length = w := by
    rw [List.length_take, List.length_drop]
    omega
  have hlt := decode_lt ((data.drop offset).take w)
  have hback := encode_decode ((data.drop offset).take w)
  rw [hlen] at hlt hback
  exact ⟨hlt, hback⟩

theorem encodeLong_readLong (h : offset + 8 ≤ data.length) :
    encodeLong (readLong data offset).1 ++ data.drop (offset + 8) = data.drop offset := by
  obtain ⟨hlt, hback⟩ := encode_decode_field h
  have hvalue : (readLong data offset).1.toUInt64 =
      UInt64.ofNat (decode ((data.drop offset).take 8)) := rfl
  rw [encodeLong, hvalue, UInt64.toNat_ofNat_of_lt' hlt, hback, ← List.drop_drop,
    List.take_append_drop]

theorem encodeInt_readIntToFloat (h : offset + 4 ≤ data.length) :
    encodeInt (readIntToFloat data offset).1 ++ data.drop (offset + 4) = data.drop offset := by
  obtain ⟨hlt, hback⟩ := encode_decode_field h
  have hvalue : (readIntToFloat data offset).1.toUInt32 =
      UInt32.ofNat (decode ((data.drop offset).take 4)) := rfl
  rw [encodeInt, hvalue, UInt32.toNat_ofNat_of_lt' hlt, hback, ← List.drop_drop,
    List.take_append_drop]

def decoded (data : Datagram) : NetworkPacket :=
  let keyboard := data.getD 40 0
  { ticks := (readLong data 4).1
    positionX := (readIntToFloat data 12).1
    positionY := (readIntToFloat data 16).1
    velocityX := (readIntToFloat data 20).1
    velocityY := (readIntToFloat data 24).1
    rotation := (readIntToFloat data 28).1
    speed := (readIntToFloat data 32).1
    delta := (readIntToFloat data 36).1
    isUp := (keyboard >>> 5) &&& 1
    isDown := (keyboard >>> 4) &&& 1
    isLeft := (keyboard >>> 3) &&& 1
    isRight := (keyboard >>> 2) &&& 1
    isFiring := keyboard &&& 1 }

theorem fromBytes_eq_ok {crc32 : Crc32} {p : NetworkPacket} :
    fromBytes crc32 data = .ok p ↔ Valid crc32 data ∧ decoded data = p := by
  constructor
  · intro h
    have hvalid := (exists_fromBytes_iff crc32 data).mp ⟨p, h⟩
    simp only [fromBytes, hvalid.1, hvalid.2, ne_eq, not_true_eq_false, if_false,
      Except.ok.injEq] at h
    exact ⟨hvalid, h⟩
  · intro h
    simp only [fromBytes, h.1.1, h.1.2, ne_eq, not_true_eq_false, if_false, Except.ok.injEq]
    exact h.2

end Reading

section Keyboard

def FlagsAreBits (p : NetworkPacket) : Prop :=
  ∀ flag ∈ [p.isUp, p.isDown, p.isLeft, p.isRight, p.isFiring], flag = 0 ∨ flag = 1

instance (p : NetworkPacket) : Decidable (FlagsAreBits p) :=
  List.decidableBAll (fun flag => flag = 0 ∨ flag = 1)
    [p.isUp, p.isDown, p.isLeft, p.isRight, p.isFiring]

def unusedBits : UInt8 := 0b11000010

theorem flags_keyboard {p : NetworkPacket} (h : FlagsAreBits p) :
    (keyboard p >>> 5) &&& 1 = p.isUp ∧ (keyboard p >>> 4) &&& 1 = p.isDown ∧
      (keyboard p >>> 3) &&& 1 = p.isLeft ∧ (keyboard p >>> 2) &&& 1 = p.isRight ∧
      keyboard p &&& 1 = p.isFiring := by
  simp only [FlagsAreBits, List.forall_mem_cons, List.not_mem_nil, false_imp_iff, implies_true,
    and_true] at h
  obtain ⟨hup, hdown, hleft, hright, hfiring⟩ := h
  unfold keyboard
  rcases hup with hup | hup <;> rcases hdown with hdown | hdown <;>
    rcases hleft with hleft | hleft <;> rcases hright with hright | hright <;>
    rcases hfiring with hfiring | hfiring <;>
    rw [hup, hdown, hleft, hright, hfiring] <;> decide

def keys (keyboard : UInt8) : NetworkPacket where
  isUp := (keyboard >>> 5) &&& 1
  isDown := (keyboard >>> 4) &&& 1
  isLeft := (keyboard >>> 3) &&& 1
  isRight := (keyboard >>> 2) &&& 1
  isFiring := keyboard &&& 1

/-- A byte with no other bit set is written as it was read. -/
theorem keyboard_keys {b : UInt8} (h : b &&& unusedBits = 0) : keyboard (keys b) = b := by
  have hall : ∀ n : Fin 256, UInt8.ofFin n &&& unusedBits = 0 →
      keyboard (keys (UInt8.ofFin n)) = UInt8.ofFin n := by
    decide +kernel
  exact hall b.toFin h

end Keyboard

section RoundTrip

variable (crc32 : Crc32) {utcNow : Int64} {p : NetworkPacket} {data : Datagram}

theorem decoded_of_drop (hdrop : data.drop hashLengthInBytes = body utcNow p)
    (h : FlagsAreBits p) : decoded data = { p with ticks := utcNow } := by
  have next : ∀ {offset n : ℕ} {front rest : List UInt8}, data.drop offset = front ++ rest →
      front.length = n → data.drop (offset + n) = rest := by
    intro offset n front rest hfront hlen
    rw [← List.drop_drop, hfront, List.drop_left' hlen]
  simp only [body, floats, List.flatMap_cons, List.flatMap_nil, List.append_nil,
    List.append_assoc] at hdrop
  have h12 := next hdrop (length_encodeLong _)
  have h16 := next h12 (length_encodeInt _)
  have h20 := next h16 (length_encodeInt _)
  have h24 := next h20 (length_encodeInt _)
  have h28 := next h24 (length_encodeInt _)
  have h32 := next h28 (length_encodeInt _)
  have h36 := next h32 (length_encodeInt _)
  have h40 := next h36 (length_encodeInt _)
  have hticks : (readLong data 4).1 = utcNow := congrArg Prod.fst (readLong_of_drop hdrop)
  have hpositionX : (readIntToFloat data 12).1 = p.positionX :=
    congrArg Prod.fst (readIntToFloat_of_drop h12)
  have hpositionY : (readIntToFloat data 16).1 = p.positionY :=
    congrArg Prod.fst (readIntToFloat_of_drop h16)
  have hvelocityX : (readIntToFloat data 20).1 = p.velocityX :=
    congrArg Prod.fst (readIntToFloat_of_drop h20)
  have hvelocityY : (readIntToFloat data 24).1 = p.velocityY :=
    congrArg Prod.fst (readIntToFloat_of_drop h24)
  have hrotation : (readIntToFloat data 28).1 = p.rotation :=
    congrArg Prod.fst (readIntToFloat_of_drop h28)
  have hspeed : (readIntToFloat data 32).1 = p.speed :=
    congrArg Prod.fst (readIntToFloat_of_drop h32)
  have hdelta : (readIntToFloat data 36).1 = p.delta :=
    congrArg Prod.fst (readIntToFloat_of_drop h36)
  have hkeyboard : data.getD 40 0 = keyboard p := by
    have hhead := congrArg List.head? h40
    rw [List.head?_drop] at hhead
    rw [List.getD_eq_getElem?_getD]
    exact congrArg (Option.getD · 0) hhead
  obtain ⟨hup, hdown, hleft, hright, hfiring⟩ := flags_keyboard h
  rw [decoded, hkeyboard, hticks, hpositionX, hpositionY, hvelocityX, hvelocityY, hrotation,
    hspeed, hdelta, hup, hdown, hleft, hright, hfiring]

theorem fromBytes_getBytes (h : FlagsAreBits p) :
    fromBytes crc32 (getBytes crc32 utcNow p) = .ok { p with ticks := utcNow } := by
  rw [getBytes_eq, fromBytes_eq_ok]
  exact ⟨valid_withHash crc32 (length_body utcNow p),
    decoded_of_drop (List.drop_left' (crc32.length_getCurrentHash _)) h⟩

theorem body_decoded (hlen : data.length = expectedMessageSize)
    (h : data.getD 40 0 &&& unusedBits = 0) :
    body (decoded data).ticks (decoded data) = data.drop hashLengthInBytes := by
  have hlen' : data.length = 41 := hlen
  have hlast : [data.getD 40 0] = data.drop 40 := by
    rw [List.drop_eq_getElem_cons (by omega), List.drop_of_length_le (by omega),
      List.getD_eq_getElem?_getD, List.getElem?_eq_getElem (by omega), Option.getD_some]
  have h36 : encodeInt (decoded data).delta ++ data.drop 40 = data.drop 36 :=
    encodeInt_readIntToFloat (by omega)
  have h32 : encodeInt (decoded data).speed ++ data.drop 36 = data.drop 32 :=
    encodeInt_readIntToFloat (by omega)
  have h28 : encodeInt (decoded data).rotation ++ data.drop 32 = data.drop 28 :=
    encodeInt_readIntToFloat (by omega)
  have h24 : encodeInt (decoded data).velocityY ++ data.drop 28 = data.drop 24 :=
    encodeInt_readIntToFloat (by omega)
  have h20 : encodeInt (decoded data).velocityX ++ data.drop 24 = data.drop 20 :=
    encodeInt_readIntToFloat (by omega)
  have h16 : encodeInt (decoded data).positionY ++ data.drop 20 = data.drop 16 :=
    encodeInt_readIntToFloat (by omega)
  have h12 : encodeInt (decoded data).positionX ++ data.drop 16 = data.drop 12 :=
    encodeInt_readIntToFloat (by omega)
  have h4 : encodeLong (decoded data).ticks ++ data.drop 12 = data.drop 4 :=
    encodeLong_readLong (by omega)
  have hkeyboard : keyboard (decoded data) = data.getD 40 0 := keyboard_keys h
  simp only [body, floats, List.flatMap_cons, List.flatMap_nil, List.append_nil,
    List.append_assoc, hkeyboard]
  rw [hlast, h36, h32, h28, h24, h20, h16, h12, h4, hashLengthInBytes]

theorem encode_toInt32 (h : 4 ≤ data.length) :
    (encode 4 (toInt32 data).toUInt32.toNat).reverse = data.take 4 := by
  have hlen : (data.take 4).reverse.length = 4 := by
    rw [List.length_reverse, List.length_take, Nat.min_eq_left h]
  have hlt := decode_lt (data.take 4).reverse
  have hback := encode_decode (data.take 4).reverse
  rw [hlen] at hlt hback
  have hvalue : (toInt32 data).toUInt32 = UInt32.ofNat (decode (data.take 4).reverse) := rfl
  rw [hvalue, UInt32.toNat_ofNat_of_lt' hlt, hback, List.reverse_reverse]

/-- The hash is compared as an integer, so it stands in the array byte for byte. -/
theorem eq_withHash (h : Valid crc32 data) :
    withHash crc32 (data.drop hashLengthInBytes) = data := by
  have hlen : data.length = 41 := h.1
  have hhash : (crc32.getCurrentHash (hashed data)).length = 4 := crc32.length_getCurrentHash _
  have htake : data.take 4 = crc32.getCurrentHash (hashed data) := by
    rw [← encode_toInt32 (by omega), h.2, encode_toInt32 (by omega),
      List.take_of_length_le hhash.le]
  rw [withHash, ← hashed, ← htake, hashLengthInBytes, List.take_append_drop]

theorem getBytes_of_fromBytes (h : fromBytes crc32 data = .ok p)
    (hkeyboard : data.getD 40 0 &&& unusedBits = 0) : getBytes crc32 p.ticks p = data := by
  obtain ⟨hvalid, rfl⟩ := fromBytes_eq_ok.mp h
  rw [getBytes_eq, body_decoded hvalid.1 hkeyboard, eq_withHash crc32 hvalid]

end RoundTrip

/-- Both directions of the format. What is read back carries the stamp of the
encoder, and a packet encoded again at its own stamp is the same array. -/
theorem packet_round_trip (crc32 : Crc32) :
    (∀ (utcNow : Int64) (p : NetworkPacket), FlagsAreBits p →
      fromBytes crc32 (getBytes crc32 utcNow p) = .ok { p with ticks := utcNow }) ∧
    (∀ (data : Datagram) (p : NetworkPacket), fromBytes crc32 data = .ok p →
      data.getD 40 0 &&& unusedBits = 0 → getBytes crc32 p.ticks p = data) :=
  ⟨fun _ _ => fromBytes_getBytes crc32, fun _ _ => getBytes_of_fromBytes crc32⟩

/-- A packet with three keys down, encoded when the clock reads 5. -/
theorem packet_round_trip_keysDown :
    let p : NetworkPacket := { positionX := -1500, isUp := 1, isDown := 1, isFiring := 1 }
    fromBytes ieee (getBytes ieee 5 p) = .ok { p with ticks := 5 } ∧
      getBytes ieee 5 { p with ticks := 5 } = getBytes ieee 5 p := by
  intro p
  have hread := (packet_round_trip ieee).1 5 p (by decide)
  exact ⟨hread, (packet_round_trip ieee).2 _ _ hread (by decide +kernel)⟩

/-- The ticks of a packet are lost to the stamp. -/
theorem stamp_replaces_ticks :
    ¬ ∀ (crc32 : Crc32) (utcNow : Int64) (p : NetworkPacket), FlagsAreBits p →
      fromBytes crc32 (getBytes crc32 utcNow p) = .ok p := by
  intro h
  have hsame := h ieee 1 {} (by decide)
  rw [fromBytes_getBytes ieee (by decide)] at hsame
  exact absurd (Except.ok.inj hsame) (by decide)

end RocketGame.PacketRoundTrip
