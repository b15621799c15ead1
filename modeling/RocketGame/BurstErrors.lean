import RocketGame.Packets
import RocketGame.ShiftRegister

/-!
What the CRC of a datagram detects. The table of CRC32.cpp is eight shifts of a
feedback register, so the value of a payload is the register after its bits, low
bit of each byte first. A burst of at most 32 bits in the payload changes it, and
a change of the stored value alone is seen at once.
-/
namespace RocketGame.BurstErrors

open BigEndian Crc32 Packets ShiftRegister
open NetworkPacket (ofBytes payloadCRC)

/-- Bit k of the datagram, counted from the low bit of each byte. -/
def bitAt (data : List UInt8) (k : ℕ) : Option Bool :=
  data[k / 8]?.map fun b => b.toBitVec.getLsbD (k % 8)

def byteBits (b : UInt8) : List Bool := (List.range 8).map b.toBitVec.getLsbD

def bits (data : List UInt8) : List Bool := data.flatMap byteBits

theorem length_byteBits (b : UInt8) : (byteBits b).length = 8 := by
  rw [byteBits, List.length_map, List.length_range]

theorem length_bits (data : List UInt8) : (bits data).length = 8 * data.length := by
  induction data with
  | nil => rfl
  | cons b data ih =>
    rw [bits, List.flatMap_cons, List.length_append, length_byteBits, ← bits, ih, List.length_cons]
    omega

theorem getElem?_bits (data : List UInt8) (k : ℕ) : (bits data)[k]? = bitAt data k := by
  induction data generalizing k with
  | nil => simp [bits, bitAt]
  | cons b data ih =>
    rw [bits, List.flatMap_cons, ← bits, bitAt]
    by_cases hk : k < 8
    · have hdiv : k / 8 = 0 := Nat.div_eq_of_lt hk
      have hmod : k % 8 = k := Nat.mod_eq_of_lt hk
      rw [List.getElem?_append_left (by rwa [length_byteBits]), hdiv, hmod]
      simp [byteBits, hk]
    · have hdiv : k / 8 = (k - 8) / 8 + 1 := by omega
      have hmod : k % 8 = (k - 8) % 8 := by omega
      rw [List.getElem?_append_right (by rw [length_byteBits]; omega), length_byteBits, ih, hdiv,
        hmod, bitAt, List.getElem?_cons_succ]

theorem eq_of_bitAt {x y : List UInt8} (h : ∀ k, bitAt x k = bitAt y k) : x = y := by
  apply List.ext_getElem?
  intro i
  have hbit : ∀ j < 8, x[i]?.map (fun b => b.toBitVec.getLsbD j) =
      y[i]?.map fun b => b.toBitVec.getLsbD j := by
    intro j hj
    have hk := h (8 * i + j)
    have hdiv : (8 * i + j) / 8 = i := by omega
    have hmod : (8 * i + j) % 8 = j := by omega
    rwa [bitAt, bitAt, hdiv, hmod] at hk
  cases hx : x[i]? with
  | none =>
    have hzero := hbit 0 (by decide)
    rw [hx, Option.map_none, eq_comm, Option.map_eq_none_iff] at hzero
    exact hzero.symm
  | some a =>
    cases hy : y[i]? with
    | none =>
      have hzero := hbit 0 (by decide)
      rw [hx, hy] at hzero
      cases hzero
    | some b =>
      have heq : a.toBitVec = b.toBitVec := by
        apply BitVec.eq_of_getLsbD_eq
        intro j hj
        have hbitj := hbit j hj
        rwa [hx, hy, Option.map_some, Option.map_some, Option.some.injEq] at hbitj
      rw [UInt8.toBitVec_inj.mp heq]

theorem bitAt_take (data : List UInt8) (n k : ℕ) :
    bitAt (data.take n) k = if k < 8 * n then bitAt data k else none := by
  rw [bitAt, List.getElem?_take]
  by_cases hk : k < 8 * n
  · rw [if_pos hk, if_pos (by omega)]
    rfl
  · rw [if_neg hk, if_neg (by omega)]
    rfl

theorem bitAt_drop (data : List UInt8) (n k : ℕ) :
    bitAt (data.drop n) k = bitAt data (8 * n + k) := by
  have hdiv : (8 * n + k) / 8 = n + k / 8 := by omega
  have hmod : (8 * n + k) % 8 = k % 8 := by omega
  rw [bitAt, bitAt, List.getElem?_drop, hdiv, hmod]

section Register

def taps : BitVec 32 := crc32Poly.toBitVec

theorem toBitVec_generateStep (c : UInt32) :
    (generateStep c).toBitVec = shift taps c.toBitVec := by
  have hlow : (c &&& 1 ≠ 0) ↔ c.toBitVec.getLsbD 0 = true := by
    have hand : (c &&& 1).toBitVec = BitVec.setWidth 32 (BitVec.ofBool (c.toBitVec.getLsbD 0)) :=
      (UInt32.toBitVec_and c 1).trans BitVec.and_one_eq_setWidth_ofBool_getLsbD
    rw [Ne, ← UInt32.toBitVec_inj, hand]
    cases c.toBitVec.getLsbD 0 <;> decide
  unfold generateStep shift
  by_cases hbit : c.toBitVec.getLsbD 0 = true
  · rw [if_pos (hlow.mpr hbit), if_pos hbit]
    rfl
  · rw [if_neg (mt hlow.mp hbit), if_neg hbit]
    rfl

theorem toBitVec_table (i : UInt32) : (table i).toBitVec = (shift taps)^[8] i.toBitVec := by
  have hiterate : ∀ n c, (generateStep^[n] c).toBitVec = (shift taps)^[n] c.toBitVec := by
    intro n
    induction n with
    | zero => exact fun _ => rfl
    | succ n ih =>
      intro c
      rw [Function.iterate_succ_apply, Function.iterate_succ_apply, ih, toBitVec_generateStep]
  exact hiterate 8 i

theorem word_byteBits (b : UInt8) : (word (byteBits b) : BitVec 32) = b.toUInt32.toBitVec := by
  apply BitVec.eq_of_getLsbD_eq
  intro i hi
  have hwidth : b.toUInt32.toBitVec = b.toBitVec.setWidth 32 := rfl
  rw [getLsbD_word, hwidth, BitVec.getLsbD_setWidth]
  by_cases h8 : i < 8
  · simp [byteBits, h8]
  · rw [BitVec.getLsbD_of_ge b.toBitVec i (by omega), List.getElem?_eq_none]
    · rfl
    · rw [length_byteBits]
      omega

/-- One table lookup is eight shifts with the bits of the byte coming in. -/
theorem toBitVec_lookup (crc : UInt32) (b : UInt8) :
    (table ((crc ^^^ b.toUInt32) &&& 0xFF) ^^^ (crc >>> 8)).toBitVec =
      feed taps crc.toBitVec (byteBits b) := by
  have hlow : ∀ i, ((crc ^^^ b.toUInt32) &&& 0xFF).toBitVec.getLsbD i =
      (decide (i < 8) && (crc ^^^ b.toUInt32).toBitVec.getLsbD i) := by
    intro i
    have hmask : (0xFF : UInt32).toBitVec.getLsbD i = decide (i < 8) := by
      have hnat : (0xFF : UInt32).toBitVec.getLsbD i = (2 ^ 8 - 1).testBit i := rfl
      rw [hnat, Nat.testBit_two_pow_sub_one]
    rw [UInt32.toBitVec_and, BitVec.getLsbD_and, hmask, Bool.and_comm]
  have hhigh : (crc ^^^ b.toUInt32).toBitVec >>> 8 = crc.toBitVec >>> 8 := by
    apply BitVec.eq_of_getLsbD_eq
    intro i _
    have hwidth : b.toUInt32.toBitVec = b.toBitVec.setWidth 32 := rfl
    rw [BitVec.getLsbD_ushiftRight, BitVec.getLsbD_ushiftRight, UInt32.toBitVec_xor,
      BitVec.getLsbD_xor, hwidth, BitVec.getLsbD_setWidth,
      BitVec.getLsbD_of_ge b.toBitVec _ (by omega), Bool.and_false, Bool.xor_false]
  have hshift : (crc >>> 8).toBitVec = crc.toBitVec >>> 8 := rfl
  have hfits : (byteBits b).length ≤ 32 := by
    rw [length_byteBits]
    decide
  rw [feed_eq_iterate taps _ hfits, length_byteBits, word_byteBits, ← UInt32.toBitVec_xor,
    iterate_shift_eq_low_xor taps 8 _ _ hlow, hhigh, UInt32.toBitVec_xor, toBitVec_table, hshift]

theorem toBitVec_update (crc : UInt32) (data : List UInt8) :
    (update crc data).toBitVec = feed taps crc.toBitVec (bits data) := by
  induction data generalizing crc with
  | nil => rfl
  | cons b data ih =>
    have hrest : update crc (b :: data) =
        update (table ((crc ^^^ b.toUInt32) &&& 0xFF) ^^^ (crc >>> 8)) data := rfl
    have hbits : bits (b :: data) = byteBits b ++ bits data := List.flatMap_cons
    rw [hrest, ih, toBitVec_lookup, hbits, feed_append]

/-- Payloads that agree outside a window of 32 bits have different values. -/
theorem payloadCRC_ne_of_window {x y : List UInt8} {start width : ℕ} (hlen : x.length = y.length)
    (hwidth : width ≤ 32) (hne : x ≠ y)
    (hout : ∀ k, k < start ∨ start + width ≤ k → bitAt x k = bitAt y k) :
    payloadCRC x ≠ payloadCRC y := by
  intro h
  have hupdate := congrArg UInt32.toBitVec h
  unfold payloadCRC value at hupdate
  rw [UInt32.toBitVec_xor, UInt32.toBitVec_xor, BitVec.xor_left_inj,
    toBitVec_update _ x, toBitVec_update _ y] at hupdate
  have hbits : bits x ≠ bits y := by
    intro h
    apply hne
    apply eq_of_bitAt
    intro k
    rw [← getElem?_bits, ← getElem?_bits, h]
  have htop : taps.msb = true := by decide
  have hbitLen : (bits x).length = (bits y).length := by rw [length_bits, length_bits, hlen]
  have hbitOut : ∀ k, k < start ∨ start + width ≤ k → (bits x)[k]? = (bits y)[k]? := by
    intro k hk
    rw [getElem?_bits, getElem?_bits]
    exact hout k hk
  exact feed_ne_of_window htop _ hbitLen hwidth hbits hbitOut hupdate

end Register

def crcField (data : Datagram) : UInt32 := UInt32.ofNat (decode (data.take 4))

theorem readAndValidateCRC_of_length {data : Datagram} (h : 4 ≤ data.length) :
    (ofBytes data).readAndValidateCRC =
      some (if crcField data ≠ payloadCRC (data.drop 4) then 1 else 0,
        (ofBytes data).advance 4) := by
  have hfits : (ofBytes data).offset + 4 ≤ (ofBytes data).size := h
  have hread : (ofBytes data).readInt32 =
      some ((crcField data).toInt32, (ofBytes data).advance 4) := by
    rw [NetworkPacket.readInt32, NetworkPacket.read, if_pos hfits]
    rfl
  have hdrop : (ofBytes data).buffer.drop crcSize = data.drop 4 := rfl
  rw [NetworkPacket.readAndValidateCRC, hread, Option.map_some]
  dsimp only
  rw [NetworkPacket.buffer_advance, hdrop, UInt32.toUInt32_toInt32]
  split <;> rfl

theorem readAndValidateCRC_eq_zero {data : Datagram} {p : NetworkPacket}
    (h : (ofBytes data).readAndValidateCRC = some (0, p)) :
    4 ≤ data.length ∧ crcField data = payloadCRC (data.drop 4) := by
  have hlen : 4 ≤ data.length :=
    (NetworkPacket.reads_readAndValidateCRC.eq_advance (Nat.zero_le _) h).1
  refine ⟨hlen, ?_⟩
  rw [readAndValidateCRC_of_length hlen, Option.some.injEq, Prod.mk.injEq] at h
  by_contra hne
  rw [if_pos hne] at h
  exact absurd h.1 (by decide)

theorem crcField_injective {data data' : Datagram} (hlen : 4 ≤ data.length)
    (hlen' : 4 ≤ data'.length) (h : crcField data' = crcField data) :
    data'.take 4 = data.take 4 := by
  have hfour : ∀ l : Datagram, 4 ≤ l.length →
      encode 4 (crcField l).toNat = l.take 4 := by
    intro l hl
    have htake : (l.take 4).length = 4 := by
      rw [List.length_take]
      omega
    have hlt : decode (l.take 4) < 2 ^ 32 := by
      have hdecode := decode_lt (l.take 4)
      rwa [htake] at hdecode
    have hencode := encode_decode (l.take 4)
    rw [htake] at hencode
    rw [crcField, UInt32.toNat_ofNat', Nat.mod_eq_of_lt hlt, hencode]
  rw [← hfour data' hlen', ← hfour data hlen, h]

def AgreeOutside (data data' : Datagram) (start width : ℕ) : Prop :=
  ∀ k, k < start ∨ start + width ≤ k → bitAt data' k = bitAt data k

section Agreement

variable {data data' : Datagram} {start width : ℕ}

theorem AgreeOutside.take_eq (h : AgreeOutside data data' start width) (hstart : 32 ≤ start) :
    data'.take 4 = data.take 4 := by
  apply eq_of_bitAt
  intro k
  rw [bitAt_take, bitAt_take]
  split
  · exact h k (Or.inl (by omega))
  · rfl

theorem AgreeOutside.drop (h : AgreeOutside data data' start width) (hstart : 32 ≤ start) :
    AgreeOutside (data.drop 4) (data'.drop 4) (start - 32) width := by
  intro k hk
  rw [bitAt_drop, bitAt_drop]
  apply h
  omega

theorem AgreeOutside.drop_eq (h : AgreeOutside data data' 0 32) :
    data'.drop 4 = data.drop 4 := by
  apply eq_of_bitAt
  intro k
  rw [bitAt_drop, bitAt_drop]
  apply h
  omega

end Agreement

/-- A datagram that differs from a valid one within 32 consecutive bits of the
payload, or within the CRC only, is rejected. -/
theorem readAndValidateCRC_of_burst (data data' : Datagram) (p : NetworkPacket)
    (hvalid : (ofBytes data).readAndValidateCRC = some (0, p))
    (hlen : data'.length = data.length) (hne : data' ≠ data)
    (hburst : (∃ start width, 32 ≤ start ∧ width ≤ 32 ∧ AgreeOutside data data' start width) ∨
      AgreeOutside data data' 0 32) :
    ∃ p', (ofBytes data').readAndValidateCRC = some (1, p') := by
  obtain ⟨hfour, hcrc⟩ := readAndValidateCRC_eq_zero hvalid
  have hfour' : 4 ≤ data'.length := by omega
  refine ⟨(ofBytes data').advance 4, ?_⟩
  rw [readAndValidateCRC_of_length hfour', if_pos]
  intro hcrc'
  apply hne
  rw [← List.take_append_drop 4 data, ← List.take_append_drop 4 data']
  rcases hburst with ⟨start, width, hstart, hwidth, hagree⟩ | hagree
  · -- the stored value is the same, so the payloads have the same value
    have htake := hagree.take_eq hstart
    have hstored : crcField data' = crcField data := by rw [crcField, htake, crcField]
    by_contra hdiffer
    have hdrop : data'.drop 4 ≠ data.drop 4 := by
      intro hdrop
      rw [htake, hdrop] at hdiffer
      exact hdiffer rfl
    have hlen' : (data'.drop 4).length = (data.drop 4).length := by
      rw [List.length_drop, List.length_drop, hlen]
    exact payloadCRC_ne_of_window hlen' hwidth hdrop (hagree.drop hstart)
      (hcrc'.symm.trans (hstored.trans hcrc))
  · -- the payload is the same, so the stored values are
    have hdrop := hagree.drop_eq
    have hstored : crcField data' = crcField data := by rw [hcrc', hdrop, hcrc]
    rw [crcField_injective hfour hfour' hstored, hdrop]

/-- The payload 10, 20, 30 under its CRC, and the same with one bit of the payload changed. -/
theorem readAndValidateCRC_of_burst_one :
    ∃ p', (ofBytes (bytes32 (payloadCRC [10, 20, 30]) ++ [11, 20, 30])).readAndValidateCRC =
      some (1, p') := by
  refine readAndValidateCRC_of_burst (NetworkPacket.sealed [10, 20, 30]) _ _
    (NetworkPacket.readAndValidateCRC_sealed _) ?_ ?_ (Or.inl ⟨32, 1, by decide, by decide, ?_⟩)
  · simp
  · simp [NetworkPacket.sealed]
  · intro k hk
    unfold bitAt NetworkPacket.sealed
    by_cases hfront : k / 8 < 4
    · rw [List.getElem?_append_left (by simpa using hfront),
        List.getElem?_append_left (by simpa using hfront)]
    · rw [List.getElem?_append_right (by simpa using hfront),
        List.getElem?_append_right (by simpa using hfront), length_bytes32]
      by_cases hfirst : k / 8 - 4 = 0
      · have hbit : ∀ j < 8, 1 ≤ j →
            (11 : UInt8).toBitVec.getLsbD j = (10 : UInt8).toBitVec.getLsbD j := by decide
        rw [hfirst]
        exact congrArg some (hbit (k % 8) (by omega) (by omega))
      · obtain ⟨i, hi⟩ := Nat.exists_eq_succ_of_ne_zero hfirst
        rw [hi]
        rfl

end RocketGame.BurstErrors
