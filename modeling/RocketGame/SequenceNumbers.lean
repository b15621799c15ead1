import RocketGame.Channels

/-!
What a 16-bit number on the wire says about the 64-bit one behind it. The
senders reduce their counter modulo 65535, and the difference is taken modulo
65536. The two agree while no multiple of 65535 lies between the numbers; each
multiple in between shifts the result by one.
-/
namespace RocketGame.SequenceNumbers

open Channels NetworkUtilities

theorem toNat_div_sequenceNumberMax (large : UInt64) :
    (large / UInt64.ofNat sequenceNumberMax).toNat = large.toNat / 65535 := by
  have hmax : (UInt64.ofNat sequenceNumberMax).toNat = 65535 := by decide
  rw [UInt64.toNat_div, hmax]

theorem lt_sequenceNumberMax_iff {large : UInt64} : large < 65535 ↔ large.toNat < 65535 :=
  UInt64.lt_iff_toNat_lt

theorem toNat_smallSequenceNumber_of_lt {large : UInt64} (h : large < 65535) :
    (smallSequenceNumber large).toNat = large.toNat := by
  rw [toNat_smallSequenceNumber, Nat.mod_eq_of_lt (lt_sequenceNumberMax_iff.mp h)]

/-- Counting on does not overflow before the first wrap. -/
theorem toNat_add_one_of_lt {large : UInt64} (h : large < 65535) :
    (large + 1).toNat = large.toNat + 1 := by
  have hone : (1 : UInt64).toNat = 1 := rfl
  rw [lt_sequenceNumberMax_iff] at h
  rw [UInt64.toNat_add, hone]
  omega

/-- What a receiver holds for a number when every number so far arrived: one is
added for each multiple of 65535 passed. -/
def drifted (large : UInt64) : UInt64 := large + large / UInt64.ofNat sequenceNumberMax

theorem drifted_eq_iff (large : UInt64) : drifted large = large ↔ large < 65535 := by
  have hlt := large.toNat_lt
  rw [← UInt64.toNat_inj, lt_sequenceNumberMax_iff, drifted, UInt64.toNat_add,
    toNat_div_sequenceNumberMax]
  omega

/-- The difference to a later number less than half the range away. -/
theorem toNat_sequenceNumberDiff_forward {r n : UInt64} (hle : r ≤ n)
    (hgap : n.toNat - r.toNat < 32768) :
    (sequenceNumberDiff (smallSequenceNumber r) (smallSequenceNumber n)).toNat =
      n.toNat + n.toNat / 65535 - (r.toNat + r.toNat / 65535) := by
  rw [UInt64.le_iff_toNat_le] at hle
  rw [toNat_sequenceNumberDiff, toNat_smallSequenceNumber, toNat_smallSequenceNumber]
  split <;> omega

theorem drifted_add_sequenceNumberDiff {r n : UInt64} (hle : r ≤ n)
    (hgap : n.toNat - r.toNat < 32768) :
    drifted r + (sequenceNumberDiff (smallSequenceNumber r) (smallSequenceNumber n)).toUInt64 =
      drifted n := by
  have hdiff := toNat_sequenceNumberDiff_forward hle hgap
  rw [UInt64.le_iff_toNat_le] at hle
  have hr := r.toNat_lt
  have hn := n.toNat_lt
  rw [← UInt64.toNat_inj, UInt64.toNat_add, UInt16.toNat_toUInt64, hdiff, drifted, drifted,
    UInt64.toNat_add, UInt64.toNat_add, toNat_div_sequenceNumberMax, toNat_div_sequenceNumberMax]
  omega

/-- With no multiple of 65535 in between, the difference leads from one number to the other. -/
theorem add_sequenceNumberDiff {r n : UInt64} (hle : r ≤ n) (hgap : n.toNat - r.toNat < 32768)
    (hwrap : r / UInt64.ofNat sequenceNumberMax = n / UInt64.ofNat sequenceNumberMax) :
    r + (sequenceNumberDiff (smallSequenceNumber r) (smallSequenceNumber n)).toUInt64 = n := by
  have hdiff := toNat_sequenceNumberDiff_forward hle hgap
  rw [← UInt64.toNat_inj, toNat_div_sequenceNumberMax, toNat_div_sequenceNumberMax] at hwrap
  rw [UInt64.le_iff_toNat_le] at hle
  have hn := n.toNat_lt
  rw [← UInt64.toNat_inj, UInt64.toNat_add, UInt16.toNat_toUInt64, hdiff]
  omega

/-- Before the first wrap the difference to a later number is exact at any distance. -/
theorem toNat_sequenceNumberDiff_of_lt {r n : UInt64} (hle : r ≤ n) (hn : n < 65535) :
    (sequenceNumberDiff (smallSequenceNumber r) (smallSequenceNumber n)).toNat =
      n.toNat - r.toNat := by
  have hr : r < 65535 := UInt64.lt_of_le_of_lt hle hn
  rw [toNat_sequenceNumberDiff, toNat_smallSequenceNumber_of_lt hr,
    toNat_smallSequenceNumber_of_lt hn]
  rw [UInt64.le_iff_toNat_le] at hle
  rw [lt_sequenceNumberMax_iff] at hn
  split <;> omega

theorem add_sequenceNumberDiff_of_lt {r n : UInt64} (hle : r ≤ n) (hn : n < 65535) :
    r + (sequenceNumberDiff (smallSequenceNumber r) (smallSequenceNumber n)).toUInt64 = n := by
  have hdiff := toNat_sequenceNumberDiff_of_lt hle hn
  rw [UInt64.le_iff_toNat_le] at hle
  have hlt := n.toNat_lt
  rw [← UInt64.toNat_inj, UInt64.toNat_add, UInt16.toNat_toUInt64, hdiff]
  omega

/-- The difference to an earlier number less than half the range away. -/
theorem toNat_sequenceNumberDiff_backward {l a : UInt64} (hle : a ≤ l)
    (hlag : l.toNat - a.toNat ≤ 32767) :
    (sequenceNumberDiff (smallSequenceNumber l) (smallSequenceNumber a)).toNat =
      if a.toNat / 65535 = l.toNat / 65535 then l.toNat - a.toNat
      else 65535 - (l.toNat - a.toNat) := by
  rw [UInt64.le_iff_toNat_le] at hle
  rw [toNat_sequenceNumberDiff, toNat_smallSequenceNumber, toNat_smallSequenceNumber]
  split <;> split <;> omega

/-- Within 32768 of the local number, and before the first wrap, an
acknowledged number is recovered exactly. -/
theorem ackedSequenceNumber_of_lt {ch : Channel} {acked : UInt64}
    (hsmall : ch.localSequenceNumberSmall = smallSequenceNumber ch.localSequenceNumberLarge)
    (hlt : ch.localSequenceNumberLarge < 65535) (hle : acked ≤ ch.localSequenceNumberLarge)
    (hlag : ch.localSequenceNumberLarge.toNat - acked.toNat ≤ 32768) :
    ch.ackedSequenceNumber (smallSequenceNumber acked) = acked := by
  have hacked : acked < 65535 := UInt64.lt_of_le_of_lt hle hlt
  rw [Channel.ackedSequenceNumber, hsmall, ← UInt64.toNat_inj, UInt64.toNat_sub,
    UInt16.toNat_toUInt64, toNat_sequenceNumberDiff, toNat_smallSequenceNumber_of_lt hlt,
    toNat_smallSequenceNumber_of_lt hacked]
  rw [UInt64.le_iff_toNat_le] at hle
  rw [lt_sequenceNumberMax_iff] at hlt
  split <;> omega

/-- A number at most 32767 behind the local one is recovered from its 16 bits
exactly when no multiple of 65535 lies in between. -/
theorem ackedSequenceNumber_eq_iff {ch : Channel} {acked : UInt64}
    (hsmall : ch.localSequenceNumberSmall = smallSequenceNumber ch.localSequenceNumberLarge)
    (hle : acked ≤ ch.localSequenceNumberLarge)
    (hlag : ch.localSequenceNumberLarge - acked ≤ 32767) :
    ch.ackedSequenceNumber (smallSequenceNumber acked) = acked ↔
      acked / UInt64.ofNat sequenceNumberMax =
        ch.localSequenceNumberLarge / UInt64.ofNat sequenceNumberMax := by
  have hlit : (32767 : UInt64).toNat = 32767 := rfl
  have hl := ch.localSequenceNumberLarge.toNat_lt
  have hsub := UInt64.toNat_sub_of_le _ _ hle
  rw [UInt64.le_iff_toNat_le, hsub, hlit] at hlag
  have hdiff := toNat_sequenceNumberDiff_backward hle hlag
  rw [UInt64.le_iff_toNat_le] at hle
  rw [Channel.ackedSequenceNumber, hsmall, ← UInt64.toNat_inj, ← UInt64.toNat_inj,
    UInt64.toNat_sub, UInt16.toNat_toUInt64, hdiff, toNat_div_sequenceNumberMax,
    toNat_div_sequenceNumberMax]
  -- past a multiple of 65535 the two distances would have to be equal, and their sum is odd
  split <;> omega

/-- Number 7 acknowledged while the local number is 10. -/
theorem ackedSequenceNumber_eq_iff_near :
    let ch : Channel := { localSequenceNumberLarge := 10, localSequenceNumberSmall := 10 }
    ch.ackedSequenceNumber (smallSequenceNumber 7) = 7 ↔
      7 / UInt64.ofNat sequenceNumberMax = 10 / UInt64.ofNat sequenceNumberMax :=
  ackedSequenceNumber_eq_iff (by decide) (by decide) (by decide)

/-- Number 65533 acknowledged while the local number is 65540. -/
theorem ackedSequenceNumber_misses :
    ¬ ∀ (ch : Channel) (acked : UInt64),
      ch.localSequenceNumberSmall = smallSequenceNumber ch.localSequenceNumberLarge →
      acked ≤ ch.localSequenceNumberLarge → ch.localSequenceNumberLarge - acked ≤ 32767 →
      ch.ackedSequenceNumber (smallSequenceNumber acked) = acked := by
  intro h
  exact absurd
    (h { localSequenceNumberLarge := 65540, localSequenceNumberSmall := 5 } 65533 (by decide)
      (by decide) (by decide))
    (by decide)

end RocketGame.SequenceNumbers
