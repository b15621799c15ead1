import RocketGame.Channels
import RocketGame.Windows

/-!
What ComputeAckBits encodes when the received numbers increase up to the number
the bits count back from: then the cursor meets every number the 32 bits have
room for, and the bits say exactly which of them were received.
-/
namespace RocketGame.AckBits

open Channels NetworkUtilities Windows Words

section Cursor

variable (data : List UInt64) (expected : UInt64)

theorem cursor_le (idx : ℕ) : cursor data expected idx ≤ idx := by
  induction idx with
  | zero => exact Nat.le_refl 0
  | succ idx ih =>
    rw [cursor]
    split
    · exact Nat.le_succ_of_le ih
    · exact Nat.le_refl _

/-- Every entry the cursor passes is above the expected number. -/
theorem lt_of_cursor_lt {idx j : ℕ} (hj : cursor data expected idx < j) (hle : j ≤ idx) :
    expected < data.getD j 0 := by
  induction idx with
  | zero => omega
  | succ idx ih =>
    rw [cursor] at hj
    split at hj
    · rename_i habove
      rcases Nat.eq_or_lt_of_le hle with rfl | hlt
      · exact habove
      · exact ih hj (Nat.le_of_lt_succ hlt)
    · omega

/-- The entries after the cursor are above the expected number, when those after the
start of its walk are. -/
theorem lt_after_cursor {idx : ℕ}
    (habove : ∀ j z, idx < j → data[j]? = some z → expected < z) :
    ∀ j z, cursor data expected idx < j → data[j]? = some z → expected < z := by
  intro j z hj hz
  by_cases hle : j ≤ idx
  · have hpassed := lt_of_cursor_lt data expected hj hle
    rwa [List.getD_eq_getElem?_getD, hz, Option.getD_some] at hpassed
  · exact habove j z (Nat.lt_of_not_le hle) hz

/-- The cursor stops at the first entry, or at one not above the expected number. -/
theorem cursor_stops (idx : ℕ) :
    cursor data expected idx = 0 ∨ data.getD (cursor data expected idx) 0 ≤ expected := by
  induction idx with
  | zero => exact Or.inl rfl
  | succ idx ih =>
    rw [cursor]
    split
    · exact ih
    · rename_i hnot
      exact Or.inr (UInt64.not_lt.mp hnot)

end Cursor

theorem toNat_sub_one {n : UInt64} (hpos : 0 < n.toNat) : (n - 1).toNat = n.toNat - 1 := by
  have hlt := n.toNat_lt
  rw [UInt64.toNat_sub, UInt64.toNat_one]
  omega

theorem eq_sub_ofNat_iff {ack n : UInt64} {d : ℕ} (hd : d ≤ ack.toNat) :
    n = ack - UInt64.ofNat d ↔ n.toNat + d = ack.toNat := by
  have hack := ack.toNat_lt
  have hn := n.toNat_lt
  have hmod : d % 2 ^ 64 = d := Nat.mod_eq_of_lt (by omega)
  rw [← UInt64.toNat_inj, UInt64.toNat_sub, UInt64.toNat_ofNat', hmod]
  omega

section Loop

variable {data : List UInt64}

theorem le_cursor {expected n : UInt64} {idx i : ℕ} (hi : data[i]? = some n) (hle : n ≤ expected)
    (hidx : i ≤ idx) : i ≤ cursor data expected idx := by
  by_contra hlt
  have habove := lt_of_cursor_lt data expected (Nat.lt_of_not_le hlt) hidx
  rw [List.getD_eq_getElem?_getD, hi, Option.getD_some] at habove
  exact UInt64.not_lt.mpr hle habove

/-- The cursor stops at the expected number itself, where it is exposed. -/
theorem getElem?_cursor_of_exposed {expected : UInt64} {idx i : ℕ} (hi : data[i]? = some expected)
    (hafter : ∀ j z, i < j → data[j]? = some z → expected < z) (hidx : i ≤ idx)
    (hlen : idx < data.length) : data[cursor data expected idx]? = some expected := by
  have hle := le_cursor hi (UInt64.le_refl _) hidx
  have hcursor := Nat.lt_of_le_of_lt (cursor_le data expected idx) hlen
  by_cases heq : i = cursor data expected idx
  · rw [← heq, hi]
  · exfalso
    have habove := hafter _ _ (by omega) (List.getElem?_eq_getElem hcursor)
    rcases cursor_stops data expected idx with hzero | hbelow
    · omega
    · rw [List.getD_eq_getElem _ _ hcursor] at hbelow
      exact UInt64.not_lt.mpr hbelow habove

/-- In an increasing list everything after a number is above it. -/
theorem lt_of_increasing (hdata : data.Pairwise (· < ·)) {n : UInt64} {i : ℕ}
    (hi : data[i]? = some n) : ∀ j z, i < j → data[j]? = some z → n < z := by
  intro j z hj hz
  obtain ⟨hi', rfl⟩ := List.getElem?_eq_some_iff.mp hi
  obtain ⟨hj', rfl⟩ := List.getElem?_eq_some_iff.mp hz
  exact List.pairwise_iff_getElem.mp hdata i j hi' hj' hj

/-- In an increasing list the cursor stops at the expected number itself. -/
theorem getElem?_cursor (hdata : data.Pairwise (· < ·)) {expected : UInt64} {idx i : ℕ}
    (hi : data[i]? = some expected) (hidx : i ≤ idx) (hlen : idx < data.length) :
    data[cursor data expected idx]? = some expected :=
  getElem?_cursor_of_exposed hi (lt_of_increasing hdata hi) hidx hlen

/-- A bit once set stays set. -/
theorem computeAckBitsLoop_keeps {bits idx : ℕ} {expected : UInt64} {ackBits : UInt32} {k : ℕ}
    (hbits : bits ≤ 32) (hk : k < 32) (h : bitSet ackBits k = true) :
    bitSet (computeAckBitsLoop data bits idx expected ackBits) k = true := by
  induction bits generalizing idx expected ackBits with
  | zero => exact h
  | succ bit ih =>
    rw [computeAckBitsLoop]
    apply ih (by omega)
    split
    · rw [bitSet_or_mask _ hk (by omega), h, Bool.true_or]
    · exact h

/-- An exposed number within the turns left gets its bit. -/
theorem computeAckBitsLoop_complete {n : UInt64} {i : ℕ} (hi : data[i]? = some n)
    (hafter : ∀ j z, i < j → data[j]? = some z → n < z) {bits idx k : ℕ} {expected : UInt64}
    {ackBits : UInt32} (hidx : i ≤ idx) (hlen : idx < data.length) (hbits : bits ≤ 32)
    (hn : n.toNat + k = expected.toNat) (hk : k < bits) :
    bitSet (computeAckBitsLoop data bits idx expected ackBits) (bits - 1 - k) = true := by
  induction bits generalizing idx expected ackBits k with
  | zero => omega
  | succ bit ih =>
    rw [computeAckBitsLoop]
    cases k with
    | zero =>
      obtain rfl : n = expected := UInt64.toNat_inj.mp hn
      rw [getElem?_cursor_of_exposed hi hafter hidx hlen, if_pos rfl]
      apply computeAckBitsLoop_keeps (by omega) (by omega)
      rw [bitSet_or_mask _ (by omega) (by omega), decide_eq_true (by omega), Bool.or_true]
    | succ k =>
      have hle : n ≤ expected := by
        rw [UInt64.le_iff_toNat_le]
        omega
      have hprev : (expected - 1).toNat = n.toNat + k := by
        rw [toNat_sub_one (by omega)]
        omega
      have hcursor := cursor_le data expected idx
      rw [show bit + 1 - 1 - (k + 1) = bit - 1 - k by omega]
      exact ih (le_cursor hi hle hidx) (by omega) (by omega) hprev.symm (by omega)

/-- What a bit of the loop stands for is exposed, when no entry after the start of
the scan can be below the numbers it looks for. -/
theorem computeAckBitsLoop_exposed {bits idx k : ℕ} {expected : UInt64} {ackBits : UInt32}
    (habove : ∀ j z, idx < j → data[j]? = some z → expected < z) (hbits : bits ≤ expected.toNat + 1)
    (hbits' : bits ≤ 32) (hk : k < 32)
    (h : bitSet (computeAckBitsLoop data bits idx expected ackBits) k = true) :
    bitSet ackBits k = true ∨ k < bits ∧ Exposed (expected - UInt64.ofNat (bits - 1 - k)) data := by
  induction bits generalizing idx expected ackBits with
  | zero => exact Or.inl h
  | succ bit ih =>
    have habove' := lt_after_cursor data expected habove
    rw [computeAckBitsLoop] at h
    have hrest : bitSet (if data[cursor data expected idx]? = some expected then
          ackBits ||| (1 <<< UInt32.ofNat bit) else ackBits) k = true ∨
        k < bit ∧ Exposed (expected - 1 - UInt64.ofNat (bit - 1 - k)) data := by
      cases bit with
      | zero => exact Or.inl h
      | succ bit =>
        have hprev : (expected - 1).toNat = expected.toNat - 1 := toNat_sub_one (by omega)
        have hlt : expected - 1 < expected := by
          rw [UInt64.lt_iff_toNat_lt]
          omega
        exact ih (fun j z hj hz => UInt64.lt_trans hlt (habove' j z hj hz)) (by omega) (by omega) h
    rcases hrest with hset | ⟨hlt, hexp⟩
    · split at hset
      · rename_i hfound
        rw [bitSet_or_mask _ hk (by omega), Bool.or_eq_true, decide_eq_true_eq] at hset
        rcases hset with hset | rfl
        · exact Or.inl hset
        · refine Or.inr ⟨by omega, ?_⟩
          have hzero : expected - UInt64.ofNat (bit + 1 - 1 - bit) = expected := by
            simp
          rw [hzero]
          exact exposed_iff_getElem?.mpr ⟨_, hfound, habove'⟩
      · exact Or.inl hset
    · refine Or.inr ⟨by omega, ?_⟩
      rw [sub_one_sub_ofNat] at hexp
      have hdist : bit - 1 - k + 1 = bit + 1 - 1 - k := by omega
      rwa [hdist] at hexp

end Loop

/-- In any list the exposed numbers below the one acknowledged get their bits. -/
theorem bitSet_computeAckBits_of_exposed {data : List UInt64} {ack n : UInt64} {d : ℕ} (hd : 1 ≤ d)
    (hd' : d ≤ 32) (hn : n.toNat + d = ack.toNat) (h : Exposed n data) :
    bitSet (computeAckBits data ack) (32 - d) = true := by
  obtain ⟨i, hi, hafter⟩ := exposed_iff_getElem?.mp h
  have hlen := (List.getElem?_eq_some_iff.mp hi).1
  have hprev : (ack - 1).toNat = n.toNat + (d - 1) := by
    rw [toNat_sub_one (by omega)]
    omega
  have hnonempty : data.isEmpty = false := by
    rw [List.isEmpty_eq_false_iff]
    exact List.ne_nil_of_mem h.mem
  rw [computeAckBits, hnonempty, if_neg Bool.false_ne_true]
  rw [show 32 - d = 32 - 1 - (d - 1) by omega]
  exact computeAckBitsLoop_complete hi hafter (by omega) (by omega) (by omega) hprev.symm (by omega)

/-- And nothing else does, when the numbers looked for do not wrap. -/
theorem exposed_of_bitSet_computeAckBits {data : List UInt64} {ack : UInt64} (hack : 32 ≤ ack)
    {d : ℕ} (hd : 1 ≤ d) (hd' : d ≤ 32)
    (hbit : bitSet (computeAckBits data ack) (32 - d) = true) :
    Exposed (ack - UInt64.ofNat d) data := by
  have hack' : 32 ≤ ack.toNat := UInt64.le_iff_toNat_le.mp hack
  unfold computeAckBits at hbit
  split at hbit
  · rw [bitSet_zero (by omega)] at hbit
    cases hbit
  · have habove : ∀ j z, data.length - 1 < j → data[j]? = some z → ack - 1 < z := by
      intro j z hj hz
      obtain ⟨hj', -⟩ := List.getElem?_eq_some_iff.mp hz
      omega
    have hprev : (ack - 1).toNat = ack.toNat - 1 := toNat_sub_one (by omega)
    rcases computeAckBitsLoop_exposed habove (by omega) (by omega) (by omega) hbit with
      hset | ⟨-, hexp⟩
    · rw [bitSet_zero (by omega)] at hset
      cases hset
    · rw [sub_one_sub_ofNat] at hexp
      have hdist : 32 - 1 - (32 - d) + 1 = d := by omega
      rwa [hdist] at hexp

/-- Bit 32 - d is set exactly for those d for which the number d below is in the list. -/
def NamesReceived (ackBits : UInt32) (received : List UInt64) (newest : UInt64) : Prop :=
  ∀ d, 1 ≤ d → d ≤ 32 →
    (bitSet ackBits (32 - d) = true ↔ ∃ n ∈ received, n.toNat + d = newest.toNat)

/-- For increasing numbers up to the one acknowledged, the bits say exactly which
of the 32 numbers below it were received. -/
theorem computeAckBits_namesReceived {data : List UInt64} {ack : UInt64} (h : Window data ack) :
    NamesReceived (computeAckBits data ack) data ack := by
  intro d hd hd'
  constructor
  · intro hbit
    have hmem := mem_of_bitSet_computeAckBits hd hd' hbit
    refine ⟨_, hmem, ?_⟩
    have hle := UInt64.le_iff_toNat_le.mp (h.le_newest _ hmem)
    have hlt := ack.toNat_lt
    rw [UInt64.toNat_sub, UInt64.toNat_ofNat'] at hle ⊢
    omega
  · rintro ⟨n, hmem, hn⟩
    exact bitSet_computeAckBits_of_exposed hd hd' hn (exposed_of_increasing h.increasing hmem)

/-- Lists that hold the same of the 32 numbers below the newest one have the same bits. -/
theorem NamesReceived.unique {ackBits ackBits' : UInt32} {received received' : List UInt64}
    {newest : UInt64} (h : NamesReceived ackBits received newest)
    (h' : NamesReceived ackBits' received' newest)
    (hsame : ∀ n d, d ≤ 32 → n.toNat + d = newest.toNat → (n ∈ received ↔ n ∈ received')) :
    ackBits = ackBits' := by
  apply eq_of_bitSet
  intro k hk
  have hdist : 32 - (32 - k) = k := by omega
  have hbit := h (32 - k) (by omega) (by omega)
  have hbit' := h' (32 - k) (by omega) (by omega)
  rw [hdist] at hbit hbit'
  rw [Bool.eq_iff_iff, hbit, hbit']
  constructor
  · rintro ⟨n, hmem, hn⟩
    exact ⟨n, (hsame n _ (by omega) hn).mp hmem, hn⟩
  · rintro ⟨n, hmem, hn⟩
    exact ⟨n, (hsame n _ (by omega) hn).mpr hmem, hn⟩

/-- Bit 32 - d is set exactly when the number d below the one acknowledged is there and
was received. Where the numbers looked for wrap, none is found. -/
theorem computeAckBits_exact {data : List UInt64} {ack : UInt64}
    (hincreasing : data.Pairwise (· < ·)) (hle : ∀ n ∈ data, n ≤ ack) :
    ∀ d, 1 ≤ d → d ≤ 32 → (bitSet (computeAckBits data ack) (32 - d) = true ↔
      d ≤ ack.toNat ∧ ack - UInt64.ofNat d ∈ data) := by
  intro d hd hd'
  rw [computeAckBits_namesReceived ⟨hincreasing, hle⟩ d hd hd']
  constructor
  · rintro ⟨n, hmem, hn⟩
    have hroom : d ≤ ack.toNat := by omega
    obtain rfl := (eq_sub_ofNat_iff hroom).mpr hn
    exact ⟨hroom, hmem⟩
  · rintro ⟨hroom, hmem⟩
    exact ⟨_, hmem, (eq_sub_ofNat_iff hroom).mp rfl⟩

theorem computeAckBits_exact_wrapping :
    bitSet (computeAckBits [0, 3, 5] 5) (32 - 6) = true ↔
      6 ≤ (5 : UInt64).toNat ∧ 5 - UInt64.ofNat 6 ∈ [0, 3, 5] :=
  computeAckBits_exact (by decide) (by simp) 6 (by decide) (by decide)

section Received

variable {limit : ℕ} {ch : Channel}

/-- The received numbers of a channel: increasing, up to its remote number, which is
the last of them, and no more of them than the limit. -/
structure ReceivedWindow (limit : ℕ) (ch : Channel) : Prop where
  window : Window ch.receivedPackets ch.remoteSequenceNumberLarge
  last : EndsIn ch.receivedPackets ch.remoteSequenceNumberLarge
  bounded : ch.receivedPackets.length ≤ limit

theorem receivedWindow_fresh (limit : ℕ) : ReceivedWindow limit {} :=
  ⟨Window.nil _, endsIn_nil _, Nat.zero_le _⟩

/-- What is received last is the newest number, whatever it is. -/
theorem endsIn_accept (h : EndsIn ch.receivedPackets ch.remoteSequenceNumberLarge)
    (seqNum : UInt16) :
    EndsIn (ch.accept seqNum).receivedPackets (ch.accept seqNum).remoteSequenceNumberLarge := by
  unfold Channel.accept
  dsimp only
  split
  · exact endsIn_append _ _
  · exact h

/-- What is accepted goes on above the newest number, when the counter does not overflow. -/
theorem window_accept (h : Window ch.receivedPackets ch.remoteSequenceNumberLarge)
    {seqNum : UInt16} (hroom : ch.remoteSequenceNumberLarge.toNat +
      (sequenceNumberDiff ch.remoteSequenceNumberSmall seqNum).toNat < 2 ^ 64) :
    Window (ch.accept seqNum).receivedPackets (ch.accept seqNum).remoteSequenceNumberLarge := by
  unfold Channel.accept
  dsimp only
  split
  · next hdiff =>
    apply h.append (lt_add_of_toNat ?_ ?_)
    · rwa [UInt16.toNat_toUInt64]
    · rw [UInt64.lt_iff_toNat_lt, UInt16.toNat_toUInt64]
      exact UInt16.lt_iff_toNat_lt.mp hdiff
  · exact h

/-- Handling a packet keeps the window. -/
theorem ReceivedWindow.accept_trim (h : ReceivedWindow limit ch) {seqNum : UInt16}
    (hroom : ch.remoteSequenceNumberLarge.toNat +
      (sequenceNumberDiff ch.remoteSequenceNumberSmall seqNum).toNat < 2 ^ 64) :
    ReceivedWindow limit ((ch.accept seqNum).trimReceived limit) := by
  have haccept := window_accept h.window hroom
  refine ⟨?_, ?_, ?_⟩
  · rw [Channel.trimReceived_receivedPackets]
    exact haccept.sublist (List.drop_sublist ..)
  · rw [Channel.trimReceived_receivedPackets]
    exact (endsIn_accept h.last seqNum).drop _
  · rw [Channel.trimReceived_receivedPackets, List.length_drop]
    omega

end Received

end RocketGame.AckBits
