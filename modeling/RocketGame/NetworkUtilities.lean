import RocketGame.Additions
import RocketGame.Words

/-!
NetworkUtilities: addresses, sequence number differences, and the loops of the
acknowledgment scheme. An acknowledgment is a number with a 32-bit word whose
bit 32 - d stands for the number d below it. ComputeAckBits encodes the received
numbers in it, VerifyAck marks the sent packets it names; both move one cursor
down a list while the expected number decreases. StoreAcks adds the numbers an
acknowledgment names to a list.
-/
namespace RocketGame.NetworkUtilities

open Words

structure Address where
  sinFamily : UInt16
  sinAddr : UInt32
  sinPort : UInt16
  deriving DecidableEq, Repr

def isSameAddress (left right : Address) : Bool :=
  left.sinFamily == right.sinFamily && left.sinAddr == right.sinAddr &&
    left.sinPort == right.sinPort

theorem isSameAddress_iff (left right : Address) :
    isSameAddress left right = true ↔ left = right := by
  cases left
  cases right
  simp [isSameAddress, and_assoc]

def sequenceNumberMax : ℕ := 65535

def sequenceNumberHalf : ℕ := 32768

/-- The operands are promoted to int and the result is cast back to 16 bits. -/
def sequenceNumberDiff (previous next : UInt16) : UInt16 :=
  if previous > next ∧ previous.toNat - next.toNat ≤ sequenceNumberHalf then previous - next
  else if previous < next ∧ next.toNat - previous.toNat > sequenceNumberHalf then next - previous
  else next - previous

structure PacketInfo where
  seqNum : UInt64
  acknowledged : Bool := false
  sendTicks : Int64 := 0
  receiveTicks : Int64 := 0
  roundTripTime : Int64 := 0
  deriving DecidableEq, Repr

/-- The readings of steady_clock in one call; reading i is the one that turn i
of the VerifyAck loop takes, if it takes one. -/
abbrev Clock := ℕ → Int64

def milliseconds (ticks : Int64) : Int64 := ticks / 1000000

/-- The inner while loop: down to the first index not above the expected number. -/
def cursor (data : List UInt64) (expected : UInt64) : ℕ → ℕ
  | 0 => 0
  | idx + 1 => if data.getD (idx + 1) 0 > expected then cursor data expected idx else idx + 1

def computeAckBitsLoop (data : List UInt64) : ℕ → ℕ → UInt64 → UInt32 → UInt32
  | 0, _, _, ackBits => ackBits
  | bit + 1, idx, expected, ackBits =>
      let idx := cursor data expected idx
      let ackBits :=
        if data[idx]? = some expected then ackBits ||| (1 <<< UInt32.ofNat bit) else ackBits
      computeAckBitsLoop data bit idx (expected - 1) ackBits

def computeAckBits (data : List UInt64) (ack : UInt64) : UInt32 :=
  if data.isEmpty then 0 else computeAckBitsLoop data 32 (data.length - 1) (ack - 1) 0

def storeAcksLoop (ackBits : UInt32) : ℕ → UInt64 → List UInt64 → List UInt64
  | 0, _, acks => acks
  | bit + 1, expected, acks =>
      let acks := if bitSet ackBits bit = true then acks ++ [expected] else acks
      storeAcksLoop ackBits bit (expected - 1) acks

/-- The number itself and the set bits, each pushed back unless find meets it. -/
def storeAcks (data : List UInt64) (ack : UInt64) (ackBits : UInt32) : List UInt64 :=
  Additions.addAll data (storeAcksLoop ackBits 32 (ack - 1) [ack])

def PacketInfo.acknowledge (pi : PacketInfo) (now : Int64) : PacketInfo :=
  { pi with acknowledged := true, receiveTicks := now, roundTripTime := now - pi.sendTicks }

/-- The body of the loop at the cursor: only the first acknowledgment counts. -/
def PacketInfo.verify (isAck : Bool) (expected : UInt64) (now : Int64) (pi : PacketInfo) :
    PacketInfo :=
  if pi.seqNum = expected ∧ pi.acknowledged = false ∧ isAck = true then pi.acknowledge now
  else pi

/-- The for loop of VerifyAck, with bit + 1 turns left. The number itself is
taken as acknowledged; each later turn uses the bit read in the turn before. -/
def verifyAckLoop (clock : Clock) (ackBits : UInt32) :
    ℕ → ℕ → Bool → UInt64 → List PacketInfo → List PacketInfo
  | 0, _, _, _, data => data
  | bit + 1, idx, isAck, expected, data =>
      let idx := cursor (data.map PacketInfo.seqNum) expected idx
      let data := data.modify idx (PacketInfo.verify isAck expected (clock (31 - bit)))
      verifyAckLoop clock ackBits bit idx (bitSet ackBits bit) (expected - 1) data

def verifyAck (clock : Clock) (data : List PacketInfo) (ack : UInt64) (ackBits : UInt32) :
    List PacketInfo :=
  if data.isEmpty then data
  else verifyAckLoop clock ackBits 32 (data.length - 1) true ack data

theorem toNat_sequenceNumberDiff (previous next : UInt16) :
    (sequenceNumberDiff previous next).toNat =
      if next.toNat < previous.toNat ∧ previous.toNat ≤ next.toNat + 32768 then
        previous.toNat - next.toNat
      else (next.toNat + 65536 - previous.toNat) % 65536 := by
  have hp := previous.toNat_lt
  have hn := next.toNat_lt
  unfold sequenceNumberDiff sequenceNumberHalf
  simp only [gt_iff_lt, UInt16.lt_iff_toNat_lt]
  split <;> split <;> (try split) <;> simp only [UInt16.toNat_sub] <;> omega

/-- A difference is zero exactly between equal numbers. -/
theorem sequenceNumberDiff_eq_zero_iff (previous next : UInt16) :
    sequenceNumberDiff previous next = 0 ↔ previous = next := by
  have hp := previous.toNat_lt
  have hn := next.toNat_lt
  rw [← UInt16.toNat_inj, ← UInt16.toNat_inj, toNat_sequenceNumberDiff, UInt16.toNat_zero]
  split <;> omega

def Acknowledges (ack : UInt64) (ackBits : UInt32) (n : UInt64) : Prop :=
  n = ack ∨ ∃ d, 1 ≤ d ∧ d ≤ 32 ∧ bitSet ackBits (32 - d) = true ∧ n = ack - UInt64.ofNat d

theorem sub_one_sub_ofNat (n : UInt64) (d : ℕ) :
    n - 1 - UInt64.ofNat d = n - UInt64.ofNat (d + 1) := by
  rw [UInt64.ofNat_add]
  grind

/-- Each bit the loop sets stands for a number found in the data. -/
theorem computeAckBitsLoop_sound (data : List UInt64) (bits : ℕ) (hbits : bits ≤ 32)
    (idx : ℕ) (expected : UInt64) (ackBits : UInt32) (k : ℕ) (hk : k < 32)
    (h : bitSet (computeAckBitsLoop data bits idx expected ackBits) k = true) :
    bitSet ackBits k = true ∨ k < bits ∧ expected - UInt64.ofNat (bits - 1 - k) ∈ data := by
  induction bits generalizing idx expected ackBits with
  | zero => exact Or.inl h
  | succ bit ih =>
    rw [computeAckBitsLoop] at h
    rcases ih (by omega) _ _ _ h with hset | ⟨hlt, hmem⟩
    · split at hset
      · rename_i hfound
        rw [bitSet_or_mask _ hk (by omega), Bool.or_eq_true, decide_eq_true_eq] at hset
        rcases hset with hset | rfl
        · exact Or.inl hset
        · refine Or.inr ⟨by omega, ?_⟩
          have hzero : expected - UInt64.ofNat (bit + 1 - 1 - bit) = expected := by
            simp
          rw [hzero]
          exact List.mem_of_getElem? hfound
      · exact Or.inl hset
    · refine Or.inr ⟨by omega, ?_⟩
      rw [sub_one_sub_ofNat] at hmem
      have hdist : bit - 1 - k + 1 = bit + 1 - 1 - k := by omega
      rwa [hdist] at hmem

theorem mem_of_bitSet_computeAckBits {data : List UInt64} {ack : UInt64} {d : ℕ} (hd : 1 ≤ d)
    (hd' : d ≤ 32) (hbit : bitSet (computeAckBits data ack) (32 - d) = true) :
    ack - UInt64.ofNat d ∈ data := by
  unfold computeAckBits at hbit
  split at hbit
  · rw [bitSet_zero (by omega)] at hbit
    cases hbit
  · rcases computeAckBitsLoop_sound data 32 (by omega) _ _ _ _ (by omega) hbit with hset | hmem
    · rw [bitSet_zero (by omega)] at hset
      cases hset
    · have hmem := hmem.2
      rw [sub_one_sub_ofNat] at hmem
      have hdist : 32 - 1 - (32 - d) + 1 = d := by omega
      rwa [hdist] at hmem

/-- The bits computed for a number name only numbers in the data. -/
theorem computeAckBits_sound {data : List UInt64} {ack n : UInt64}
    (h : Acknowledges ack (computeAckBits data ack) n) : n = ack ∨ n ∈ data := by
  rcases h with heq | ⟨d, hd, hd', hbit, rfl⟩
  · exact Or.inl heq
  · exact Or.inr (mem_of_bitSet_computeAckBits hd hd' hbit)

@[simp] theorem PacketInfo.verify_seqNum (isAck : Bool) (expected : UInt64) (now : Int64)
    (pi : PacketInfo) : (pi.verify isAck expected now).seqNum = pi.seqNum := by
  unfold PacketInfo.verify PacketInfo.acknowledge
  split <;> rfl

theorem PacketInfo.verify_acknowledged {isAck : Bool} {expected : UInt64} {now : Int64}
    {pi : PacketInfo} (h : (pi.verify isAck expected now).acknowledged = true) :
    pi.acknowledged = true ∨ pi.seqNum = expected ∧ isAck = true := by
  unfold PacketInfo.verify at h
  split at h
  · rename_i hcond
    exact Or.inr ⟨hcond.1, hcond.2.2⟩
  · exact Or.inl h

/-- Each entry the loop leaves marked was marked before, or stands at a number
the rest of the acknowledgment names. -/
theorem verifyAckLoop_sound (clock : Clock) (ackBits : UInt32) (bits : ℕ) (idx : ℕ)
    (isAck : Bool) (expected : UInt64) (data : List PacketInfo) (pi : PacketInfo)
    (hpi : pi ∈ verifyAckLoop clock ackBits bits idx isAck expected data)
    (hacked : pi.acknowledged = true) :
    (∃ old ∈ data, old.seqNum = pi.seqNum ∧ old.acknowledged = true) ∨
      (0 < bits ∧ pi.seqNum = expected ∧ isAck = true) ∨
      ∃ d, 1 ≤ d ∧ d < bits ∧ bitSet ackBits (bits - d) = true ∧
        pi.seqNum = expected - UInt64.ofNat d := by
  induction bits generalizing idx isAck expected data with
  | zero => exact Or.inl ⟨pi, hpi, rfl, hacked⟩
  | succ bit ih =>
    rw [verifyAckLoop] at hpi
    rcases ih _ _ _ _ hpi with ⟨old, hold, hseq, hmark⟩ | ⟨hpos, hseq, hbit⟩ |
        ⟨d, hd, hd', hbit, hseq⟩
    · obtain ⟨i, hi, rfl⟩ := List.mem_iff_getElem.mp hold
      rw [List.length_modify] at hi
      rw [List.getElem_modify] at hseq hmark
      split at hmark
      · rename_i hidx
        simp only [hidx, if_true, PacketInfo.verify_seqNum] at hseq
        rcases PacketInfo.verify_acknowledged hmark with hmark | ⟨hexp, hisAck⟩
        · exact Or.inl ⟨_, List.getElem_mem hi, hseq, hmark⟩
        · exact Or.inr (Or.inl ⟨Nat.succ_pos bit, hseq ▸ hexp, hisAck⟩)
      · rename_i hidx
        simp only [hidx, if_false] at hseq
        exact Or.inl ⟨_, List.getElem_mem hi, hseq, hmark⟩
    · refine Or.inr (Or.inr ⟨1, by omega, by omega, hbit, ?_⟩)
      simpa using hseq
    · refine Or.inr (Or.inr ⟨d + 1, by omega, by omega, ?_, ?_⟩)
      · rwa [show bit + 1 - (d + 1) = bit - d by omega]
      · rw [hseq, sub_one_sub_ofNat]

theorem map_modify_verify (data : List PacketInfo) (idx : ℕ) (isAck : Bool) (expected : UInt64)
    (now : Int64) :
    (data.modify idx (PacketInfo.verify isAck expected now)).map PacketInfo.seqNum =
      data.map PacketInfo.seqNum := by
  apply List.ext_getElem
  · simp
  · intro i _ _
    simp only [List.getElem_map, List.getElem_modify]
    split
    · exact PacketInfo.verify_seqNum ..
    · rfl

theorem map_seqNum_verifyAckLoop (clock : Clock) (ackBits : UInt32) (bits idx : ℕ) (isAck : Bool)
    (expected : UInt64) (data : List PacketInfo) :
    (verifyAckLoop clock ackBits bits idx isAck expected data).map PacketInfo.seqNum =
      data.map PacketInfo.seqNum := by
  induction bits generalizing idx isAck expected data with
  | zero => rfl
  | succ bit ih => rw [verifyAckLoop, ih, map_modify_verify]

/-- VerifyAck changes no number in the send list. -/
theorem map_seqNum_verifyAck (clock : Clock) (data : List PacketInfo) (ack : UInt64)
    (ackBits : UInt32) :
    (verifyAck clock data ack ackBits).map PacketInfo.seqNum = data.map PacketInfo.seqNum := by
  unfold verifyAck
  split
  · rfl
  · exact map_seqNum_verifyAckLoop ..

/-- VerifyAck marks only entries whose number the acknowledgment names. -/
theorem verifyAck_sound {clock : Clock} {data : List PacketInfo} {ack : UInt64}
    {ackBits : UInt32} {pi : PacketInfo} (hpi : pi ∈ verifyAck clock data ack ackBits)
    (hacked : pi.acknowledged = true) :
    (∃ old ∈ data, old.seqNum = pi.seqNum ∧ old.acknowledged = true) ∨
      Acknowledges ack ackBits pi.seqNum := by
  unfold verifyAck at hpi
  split at hpi
  · exact Or.inl ⟨pi, hpi, rfl, hacked⟩
  · rcases verifyAckLoop_sound clock ackBits 32 _ _ _ _ pi hpi hacked with
      hold | ⟨_, hseq, _⟩ | ⟨d, hd, hd', hbit, hseq⟩
    · exact Or.inl hold
    · exact Or.inr (Or.inl hseq)
    · exact Or.inr (Or.inr ⟨d, hd, by omega, hbit, hseq⟩)

end RocketGame.NetworkUtilities
