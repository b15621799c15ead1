import Mathlib.Data.List.Forall2
import RocketGame.AckBits

/-!
How much of an acknowledgment VerifyAck reads. Its loop takes the number itself
and the 31 below it, one in each turn, and reads the bit of the next turn at the
end of this one; the last bit is read and no turn is left to use it.
-/
namespace RocketGame.AckCoverage

open AckBits NetworkUtilities Words

structure VerifiedBy (named : UInt64 → Prop) (old new : PacketInfo) : Prop where
  seqNum : new.seqNum = old.seqNum
  acknowledged : new.acknowledged = true ↔ old.acknowledged = true ∨ named old.seqNum
  kept : old.acknowledged = true → new = old

def CoversWindow (data : List PacketInfo) (ack : UInt64) (ackBits : UInt32)
    (verified : List PacketInfo) : Prop :=
  List.Forall₂ (VerifiedBy (Acknowledges ack ackBits)) data verified

def Named (ackBits : UInt32) : ℕ → Bool → UInt64 → UInt64 → Prop
  | 0, _, _, _ => False
  | bit + 1, isAck, expected, n =>
      (n = expected ∧ isAck = true) ∨ Named ackBits bit (bitSet ackBits bit) (expected - 1) n

section Entries

variable {named named' : UInt64 → Prop} {old mid new : PacketInfo}

theorem VerifiedBy.trans (h : VerifiedBy named old mid) (h' : VerifiedBy named' mid new) :
    VerifiedBy (fun n => named n ∨ named' n) old new where
  seqNum := h'.seqNum.trans h.seqNum
  acknowledged := by rw [h'.acknowledged, h.acknowledged, h.seqNum, or_assoc]
  kept hold := by
    obtain rfl := h.kept hold
    exact h'.kept hold

theorem VerifiedBy.congr (h : VerifiedBy named old new)
    (hnamed : old.acknowledged = false → (named old.seqNum ↔ named' old.seqNum)) :
    VerifiedBy named' old new where
  seqNum := h.seqNum
  acknowledged := by
    rw [h.acknowledged]
    cases hold : old.acknowledged with
    | false => rw [hnamed hold]
    | true => exact iff_of_true (Or.inl rfl) (Or.inl rfl)
  kept := h.kept

theorem VerifiedBy.unchanged (h : ¬ named old.seqNum) : VerifiedBy named old old :=
  ⟨rfl, (or_iff_left h).symm, fun _ => rfl⟩

/-- The body of the loop, at the cursor. -/
theorem verifiedBy_verify (isAck : Bool) (expected : UInt64) (now : Int64) (pi : PacketInfo) :
    VerifiedBy (fun n => n = expected ∧ isAck = true) pi (pi.verify isAck expected now) := by
  unfold PacketInfo.verify
  split
  · rename_i h
    refine ⟨rfl, iff_of_true rfl (Or.inr ⟨h.1, h.2.2⟩), fun hold => ?_⟩
    rw [h.2.1] at hold
    cases hold
  · rename_i h
    refine ⟨rfl, ?_, fun _ => rfl⟩
    cases hold : pi.acknowledged with
    | false =>
      refine iff_of_false Bool.false_ne_true fun hor => ?_
      rcases hor with hmarked | ⟨hseq, hisAck⟩
      · cases hmarked
      · exact h ⟨hseq, hold, hisAck⟩
    | true => exact iff_of_true rfl (Or.inl rfl)

end Entries

theorem named_iff (ackBits : UInt32) {bits : ℕ} {isAck : Bool} {expected n : UInt64} :
    Named ackBits bits isAck expected n ↔ (0 < bits ∧ n = expected ∧ isAck = true) ∨
      ∃ d, 1 ≤ d ∧ d < bits ∧ bitSet ackBits (bits - d) = true ∧ n = expected - UInt64.ofNat d := by
  induction bits generalizing isAck expected with
  | zero =>
    refine iff_of_false id ?_
    rintro (⟨h, -⟩ | ⟨d, -, h, -⟩)
    · exact absurd h (Nat.lt_irrefl 0)
    · exact absurd h (Nat.not_lt_zero d)
  | succ bit ih =>
    rw [Named, ih]
    have hbit : ∀ d, bit + 1 - (d + 1) = bit - d := fun d => by omega
    constructor
    · rintro (h | ⟨hpos, rfl, h⟩ | ⟨d, hd, hlt, h, rfl⟩)
      · exact Or.inl ⟨Nat.succ_pos bit, h⟩
      · exact Or.inr ⟨1, Nat.le_refl 1, by omega, h, by simp⟩
      · refine Or.inr ⟨d + 1, by omega, by omega, ?_, sub_one_sub_ofNat expected d⟩
        rwa [hbit]
    · rintro (⟨-, h⟩ | ⟨d, hd, hlt, h, rfl⟩)
      · exact Or.inl h
      · cases d with
        | zero => omega
        | succ d =>
          rw [hbit] at h
          cases d with
          | zero => exact Or.inr (Or.inl ⟨by omega, by simp, h⟩)
          | succ d =>
            exact Or.inr (Or.inr ⟨d + 1, by omega, by omega, h,
              (sub_one_sub_ofNat expected (d + 1)).symm⟩)

section Loop

/-- In an increasing list nothing but the entry at the cursor has the expected number. -/
theorem eq_cursor {seqs : List UInt64} (hinc : seqs.Pairwise (· < ·)) {idx i : ℕ}
    {expected : UInt64} (hidx : idx < seqs.length)
    (habove : ∀ j n, idx < j → seqs[j]? = some n → expected < n)
    (hi : seqs[i]? = some expected) : i = cursor seqs expected idx := by
  have hle : i ≤ idx := by
    by_contra hlt
    exact UInt64.lt_irrefl _ (habove i expected (Nat.lt_of_not_le hlt) hi)
  have hcur := getElem?_cursor hinc hi hle hidx
  have hne : seqs.Nodup := hinc.imp fun h => UInt64.ne_of_lt h
  exact (List.getElem?_inj (List.getElem?_eq_some_iff.mp hi).1 hne).mp (hi.trans hcur.symm)

/-- Turns that look for numbers the list does not have change nothing. -/
theorem verifyAckLoop_of_absent (clock : Clock) (ackBits : UInt32) {bits idx : ℕ} {isAck : Bool}
    {expected : UInt64} {data : List PacketInfo}
    (habsent : ∀ pi ∈ data, ∀ d, d < bits → pi.seqNum ≠ expected - UInt64.ofNat d) :
    verifyAckLoop clock ackBits bits idx isAck expected data = data := by
  induction bits generalizing idx isAck expected with
  | zero => rfl
  | succ bit ih =>
    have hsame : ∀ cur, data.modify cur (PacketInfo.verify isAck expected (clock (31 - bit))) =
        data := by
      intro cur
      apply List.ext_getElem?
      intro j
      rw [List.getElem?_modify]
      cases hj : data[j]? with
      | none => rfl
      | some pi =>
        have hne := habsent pi (List.mem_of_getElem? hj) 0 (Nat.succ_pos bit)
        have hverify : pi.verify isAck expected (clock (31 - bit)) = pi :=
          if_neg fun h => hne (by simpa using h.1)
        split
        · exact congrArg some hverify
        · rfl
    rw [verifyAckLoop, hsame]
    apply ih
    intro pi hpi d hd
    rw [sub_one_sub_ofNat]
    exact habsent pi hpi (d + 1) (by omega)

/-- The numbers looked for after zero are above those of the list. -/
theorem ne_wrapped {n expected : UInt64} {bits : ℕ} (hzero : expected.toNat = 0)
    (hbits : bits ≤ 32) (hwrap : n.toNat + (bits + 1) ≤ expected.toNat + 2 ^ 64) :
    ∀ d, d < bits → n ≠ expected - 1 - UInt64.ofNat d := by
  rintro d hd rfl
  rw [sub_one_sub_ofNat, UInt64.toNat_sub, UInt64.toNat_ofNat', hzero] at hwrap
  omega

/-- The cursor comes past every entry the turns left look for. -/
theorem exists_verifiedBy_verifyAckLoop (clock : Clock) (ackBits : UInt32) {seqs : List UInt64}
    (hinc : seqs.Pairwise (· < ·)) {bits idx i : ℕ} {isAck : Bool} {expected : UInt64}
    {data : List PacketInfo} {old : PacketInfo} (hseqs : data.map PacketInfo.seqNum = seqs)
    (hidx : idx < seqs.length) (habove : ∀ j n, idx < j → seqs[j]? = some n → expected < n)
    (hbits : bits ≤ 32) (hwrap : ∀ n ∈ seqs, n.toNat + bits ≤ expected.toNat + 2 ^ 64)
    (hold : data[i]? = some old) :
    ∃ new, (verifyAckLoop clock ackBits bits idx isAck expected data)[i]? = some new ∧
      VerifiedBy (Named ackBits bits isAck expected) old new := by
  induction bits generalizing idx isAck expected data old with
  | zero => exact ⟨old, hold, VerifiedBy.unchanged id⟩
  | succ bit ih =>
    let cur := cursor seqs expected idx
    let verify := PacketInfo.verify isAck expected (clock (31 - bit))
    have hcur : cur ≤ idx := cursor_le seqs expected idx
    have hstep : verifyAckLoop clock ackBits (bit + 1) idx isAck expected data =
        verifyAckLoop clock ackBits bit cur (bitSet ackBits bit) (expected - 1)
          (data.modify cur verify) := by
      rw [verifyAckLoop, hseqs]
    have habove' := lt_after_cursor seqs expected habove
    have hmid : ∃ mid, (data.modify cur verify)[i]? = some mid ∧
        VerifiedBy (fun n => n = expected ∧ isAck = true) old mid := by
      have hget : (data.modify cur verify)[i]? =
          some (if cur = i then verify old else old) := by
        rw [List.getElem?_modify, hold]
        rfl
      rw [hget]
      by_cases hi : cur = i
      · rw [if_pos hi]
        exact ⟨_, rfl, verifiedBy_verify isAck expected _ old⟩
      · rw [if_neg hi]
        refine ⟨old, rfl, VerifiedBy.unchanged fun h => hi ?_⟩
        have hseq : seqs[i]? = some expected := by
          rw [← hseqs, List.getElem?_map, hold, Option.map_some, h.1]
        exact (eq_cursor hinc hidx habove hseq).symm
    obtain ⟨mid, hmid, hverified⟩ := hmid
    have hseqs' : (data.modify cur verify).map PacketInfo.seqNum = seqs := by
      rw [map_modify_verify, hseqs]
    obtain ⟨new, hnew, hrest⟩ : ∃ new, (verifyAckLoop clock ackBits bit cur (bitSet ackBits bit)
        (expected - 1) (data.modify cur verify))[i]? = some new ∧
        VerifiedBy (Named ackBits bit (bitSet ackBits bit) (expected - 1)) mid new := by
      by_cases hzero : expected.toNat = 0
      · -- the turns left look for numbers close to 2^64
        have habsent : ∀ pi ∈ data.modify cur verify, ∀ d, d < bit →
            pi.seqNum ≠ expected - 1 - UInt64.ofNat d := by
          intro pi hpi
          have hmem : pi.seqNum ∈ seqs := hseqs' ▸ List.mem_map_of_mem hpi
          exact ne_wrapped hzero (by omega) (hwrap _ hmem)
        rw [verifyAckLoop_of_absent clock ackBits habsent]
        have hmissing := habsent mid (List.mem_of_getElem? hmid)
        refine ⟨mid, hmid, VerifiedBy.unchanged fun hnamed => ?_⟩
        rcases named_iff ackBits |>.mp hnamed with ⟨hpos, heq, -⟩ | ⟨d, -, hd, -, heq⟩
        · exact hmissing 0 hpos (by simpa using heq)
        · exact hmissing d hd heq
      · have hprev : (expected - 1).toNat = expected.toNat - 1 := toNat_sub_one (by omega)
        have hbelow : expected - 1 < expected := by
          rw [UInt64.lt_iff_toNat_lt]
          omega
        have hwrap' : ∀ n ∈ seqs, n.toNat + bit ≤ (expected - 1).toNat + 2 ^ 64 := by
          intro n hn
          have hn := hwrap n hn
          omega
        exact ih hseqs' (by omega) (fun j n hj hn => UInt64.lt_trans hbelow (habove' j n hj hn))
          (by omega) hwrap' hmid
    exact ⟨new, by rw [hstep, hnew], hverified.trans hrest⟩

end Loop

section Coverage

variable {data : List PacketInfo} {ack : UInt64} {ackBits : UInt32}

/-- The first 31 numbers below the acknowledged one, and that number, when no entry can
be mistaken for one of those that wrap. -/
theorem forall₂_verifyAck (clock : Clock)
    (hinc : (data.map PacketInfo.seqNum).Pairwise (· < ·))
    (hwrap : ∀ pi ∈ data, pi.seqNum.toNat + 32 ≤ ack.toNat + 2 ^ 64) :
    List.Forall₂ (VerifiedBy (Named ackBits 32 true ack)) data
      (verifyAck clock data ack ackBits) := by
  unfold verifyAck
  cases hdata : data with
  | nil => exact List.Forall₂.nil
  | cons head tail =>
    rw [← hdata, if_neg (by rw [hdata]; exact Bool.false_ne_true)]
    have hpos : 0 < data.length := hdata ▸ Nat.succ_pos _
    have hlen := congrArg List.length
      (map_seqNum_verifyAckLoop clock ackBits 32 (data.length - 1) true ack data)
    rw [List.length_map, List.length_map] at hlen
    refine List.forall₂_iff_get.mpr ⟨hlen.symm, fun i hi hi' => ?_⟩
    have hlast : data.length - 1 < (data.map PacketInfo.seqNum).length := by
      rw [List.length_map]
      omega
    have habove : ∀ j n, data.length - 1 < j → (data.map PacketInfo.seqNum)[j]? = some n →
        ack < n := by
      intro j n hj hn
      have hout := (List.getElem?_eq_some_iff.mp hn).1
      rw [List.length_map] at hout
      omega
    obtain ⟨new, hnew, hverified⟩ := @exists_verifiedBy_verifyAckLoop clock ackBits _ hinc
      32 (data.length - 1) i true ack data _ rfl hlast habove (Nat.le_refl 32)
      (List.forall_mem_map.mpr hwrap) (List.getElem?_eq_getElem hi)
    obtain ⟨_, hvalue⟩ := List.getElem?_eq_some_iff.mp hnew
    rw [List.get_eq_getElem, List.get_eq_getElem, hvalue]
    exact hverified

/-- The bit of d = 32 is not used. -/
theorem acknowledges_iff_named {n : UInt64} : Acknowledges ack ackBits n ↔
    Named ackBits 32 true ack n ∨ (bitSet ackBits 0 = true ∧ n = ack - 32) := by
  rw [named_iff, Acknowledges]
  constructor
  · rintro (h | ⟨d, hd, hle, hbit, h⟩)
    · exact Or.inl (Or.inl ⟨by decide, h, rfl⟩)
    · rcases Nat.eq_or_lt_of_le hle with rfl | hlt
      · exact Or.inr ⟨hbit, h⟩
      · exact Or.inl (Or.inr ⟨d, hd, hlt, hbit, h⟩)
  · rintro ((⟨-, h, -⟩ | ⟨d, hd, hlt, hbit, h⟩) | ⟨hbit, h⟩)
    · exact Or.inl h
    · exact Or.inr ⟨d, hd, Nat.le_of_lt hlt, hbit, h⟩
    · exact Or.inr ⟨32, by decide, Nat.le_refl _, hbit, h⟩

theorem not_named_last : ¬ Named ackBits 32 true ack (ack - 32) := by
  have hlt := ack.toNat_lt
  rw [named_iff]
  rintro (⟨-, h, -⟩ | ⟨d, hd, hlt', -, h⟩)
  · have hnat := congrArg UInt64.toNat h
    rw [UInt64.toNat_sub] at hnat
    have h32 : (32 : UInt64).toNat = 32 := rfl
    omega
  · have hnat := congrArg UInt64.toNat h
    rw [UInt64.toNat_sub, UInt64.toNat_sub, UInt64.toNat_ofNat'] at hnat
    have h32 : (32 : UInt64).toNat = 32 := rfl
    omega

/-- VerifyAck covers the window unless the last bit names an entry that is still
unacknowledged. -/
theorem verifyAck_coversWindow_iff (clock : Clock)
    (hinc : (data.map PacketInfo.seqNum).Pairwise (· < ·)) (hack : 32 ≤ ack.toNat) :
    CoversWindow data ack ackBits (verifyAck clock data ack ackBits) ↔
      ¬ (bitSet ackBits 0 = true ∧
        ∃ pi ∈ data, pi.seqNum = ack - 32 ∧ pi.acknowledged = false) := by
  have hloop : List.Forall₂ (VerifiedBy (Named ackBits 32 true ack)) data
      (verifyAck clock data ack ackBits) := by
    refine forall₂_verifyAck clock hinc fun pi _ => ?_
    have hlt := pi.seqNum.toNat_lt
    omega
  constructor
  · rintro hcovers ⟨hbit, pi, hpi, hseq, hold⟩
    obtain ⟨i, hi, rfl⟩ := List.mem_iff_getElem.mp hpi
    have hlen : i < (verifyAck clock data ack ackBits).length := hloop.length_eq ▸ hi
    have hclaimed := (hcovers.get hi hlen).acknowledged
    rw [(hloop.get hi hlen).acknowledged, List.get_eq_getElem, hold, hseq] at hclaimed
    have hnames : Acknowledges ack ackBits (ack - 32) :=
      acknowledges_iff_named.mpr (Or.inr ⟨hbit, rfl⟩)
    exact (hclaimed.mpr (Or.inr hnames)).elim (nofun) not_named_last
  · intro hnot
    have hentries : ∀ pi ∈ data, pi.acknowledged = false →
        ¬ (bitSet ackBits 0 = true ∧ pi.seqNum = ack - 32) :=
      fun pi hpi hold h => hnot ⟨h.1, pi, hpi, h.2, hold⟩
    refine (List.forall₂_and_left data _ |>.mpr ⟨hentries, hloop⟩).imp fun old new h => ?_
    apply h.2.congr
    intro hold
    rw [acknowledges_iff_named, or_iff_left (h.1 hold)]

end Coverage

def oldest : List PacketInfo := [{ seqNum := 68 }]

/-- Its bit is set and it stays unacknowledged. -/
theorem oldest_stays_unacknowledged :
    ¬ ∀ (clock : Clock) (data : List PacketInfo) (ack : UInt64) (ackBits : UInt32),
      (data.map PacketInfo.seqNum).Pairwise (· < ·) → 32 ≤ ack.toNat →
        CoversWindow data ack ackBits (verifyAck clock data ack ackBits) := by
  intro h
  have hcovers := h (fun _ => 0) oldest 100 1 (by decide) (by decide)
  have hsame : verifyAck (fun _ => 0) oldest 100 1 = oldest := by decide
  rw [hsame] at hcovers
  have hmarked := (List.forall₂_cons.mp hcovers).1.acknowledged
  have hnames : Acknowledges 100 1 68 := Or.inr ⟨32, by decide, by decide, by decide, by decide⟩
  exact absurd (hmarked.mpr (Or.inr hnames)) (by decide)

/-- With the neighbour of the oldest number acknowledged instead, nothing is missed. -/
theorem coversWindow_neighbour :
    CoversWindow oldest 99 2 (verifyAck (fun _ => 7) oldest 99 2) :=
  (verifyAck_coversWindow_iff (fun _ => 7) (by decide) (by decide)).mpr (by decide)

end RocketGame.AckCoverage
