import RocketGame.AckBits

/-!
What StoreAcks leaves in a list, and what ComputeAckBits reads in it afterwards.
The numbers it adds stand in the order of the bits, the greatest first, while
ComputeAckBits looks for them from the end of the list, the greatest first too:
of several new numbers it meets only the least.
-/
namespace RocketGame.StoredAcks

open AckBits Additions NetworkUtilities Windows Words

def NamedBelow (ack : UInt64) (ackBits : UInt32) (n : UInt64) : Prop :=
  ∃ d, 1 ≤ d ∧ d ≤ 32 ∧ bitSet ackBits (32 - d) = true ∧ n.toNat + d = ack.toNat

/-- ComputeAckBits after StoreAcks: the bits given, and those of the numbers held before. -/
def Agrees (data : List UInt64) (ack : UInt64) (ackBits : UInt32) : Prop :=
  ∀ d, 1 ≤ d → d ≤ 32 →
    (bitSet (computeAckBits (storeAcks data ack ackBits) ack) (32 - d) = true ↔
      bitSet ackBits (32 - d) = true ∨ ack - UInt64.ofNat d ∈ data)

def New (data : List UInt64) (ack : UInt64) (ackBits : UInt32) (n : UInt64) : Prop :=
  NamedBelow ack ackBits n ∧ n ∉ data

/-- At most one number is new, and it is above all that the list holds. -/
def NewOnTop (data : List UInt64) (ack : UInt64) (ackBits : UInt32) : Prop :=
  ∀ n, New data ack ackBits n →
    (∀ old ∈ data, old < n) ∧ ∀ n', New data ack ackBits n' → n' = n

section Loop

theorem storeAcksLoop_eq_append (ackBits : UInt32) (bits : ℕ) (expected : UInt64)
    (acks : List UInt64) : storeAcksLoop ackBits bits expected acks =
      acks ++ storeAcksLoop ackBits bits expected [] := by
  induction bits generalizing expected acks with
  | zero => exact (List.append_nil acks).symm
  | succ bit ih =>
    rw [storeAcksLoop, storeAcksLoop]
    split
    · rw [ih, ih _ ([] ++ [expected]), List.nil_append, List.append_assoc]
    · rw [ih]

/-- One turn of the loop. -/
theorem storeAcksLoop_succ (ackBits : UInt32) (bit : ℕ) (expected : UInt64) :
    storeAcksLoop ackBits (bit + 1) expected [] =
      (if bitSet ackBits bit = true then [expected] else []) ++
        storeAcksLoop ackBits bit (expected - 1) [] := by
  rw [storeAcksLoop, storeAcksLoop_eq_append, List.nil_append]

theorem mem_storeAcksLoop {ackBits : UInt32} {bits : ℕ} {expected n : UInt64}
    (hbits : bits ≤ expected.toNat + 1) : n ∈ storeAcksLoop ackBits bits expected [] ↔
      ∃ d, d < bits ∧ bitSet ackBits (bits - 1 - d) = true ∧ n.toNat + d = expected.toNat := by
  induction bits generalizing expected with
  | zero => simp [storeAcksLoop]
  | succ bit ih =>
    have hfirst : n ∈ (if bitSet ackBits bit = true then [expected] else []) ↔
        bitSet ackBits bit = true ∧ n = expected := by
      split <;> simp [*]
    have hrest : n ∈ storeAcksLoop ackBits bit (expected - 1) [] ↔
        ∃ d, d < bit ∧ bitSet ackBits (bit - 1 - d) = true ∧
          n.toNat + (d + 1) = expected.toNat := by
      cases bit with
      | zero => simp [storeAcksLoop]
      | succ bit =>
        have hprev : (expected - 1).toNat = expected.toNat - 1 := toNat_sub_one (by omega)
        rw [ih (by omega)]
        apply exists_congr
        intro d
        rw [hprev]
        refine and_congr_right fun _ => and_congr_right fun _ => ?_
        omega
    rw [storeAcksLoop_succ, List.mem_append, hfirst, hrest]
    constructor
    · rintro (⟨hbit, rfl⟩ | ⟨d, hd, hbit, hn⟩)
      · exact ⟨0, by omega, hbit, rfl⟩
      · refine ⟨d + 1, by omega, ?_, hn⟩
        rwa [show bit + 1 - 1 - (d + 1) = bit - 1 - d by omega]
    · rintro ⟨d, hd, hbit, hn⟩
      cases d with
      | zero => exact Or.inl ⟨hbit, UInt64.toNat_inj.mp hn⟩
      | succ d =>
        refine Or.inr ⟨d, by omega, ?_, hn⟩
        rwa [show bit - 1 - d = bit + 1 - 1 - (d + 1) by omega]

/-- The numbers are pushed back in decreasing order. -/
theorem decreasing_storeAcksLoop (ackBits : UInt32) {bits : ℕ} {expected : UInt64}
    (hbits : bits ≤ expected.toNat + 1) :
    (storeAcksLoop ackBits bits expected []).Pairwise (fun n n' => n' < n) := by
  induction bits generalizing expected with
  | zero => exact List.Pairwise.nil
  | succ bit ih =>
    rw [storeAcksLoop_succ]
    cases bit with
    | zero => split <;> simp [storeAcksLoop]
    | succ bit =>
      have hprev : (expected - 1).toNat = expected.toNat - 1 := toNat_sub_one (by omega)
      have hrest := @ih (expected - 1) (by omega)
      split
      · rw [List.singleton_append, List.pairwise_cons]
        refine ⟨fun n hn => ?_, hrest⟩
        obtain ⟨d, -, -, hn⟩ := (mem_storeAcksLoop (by omega)).mp hn
        rw [UInt64.lt_iff_toNat_lt]
        omega
      · exact hrest

end Loop

section Stored

variable {data : List UInt64} {ack : UInt64} {ackBits : UInt32}

theorem NamedBelow.lt {n : UInt64} (h : NamedBelow ack ackBits n) : n < ack := by
  obtain ⟨d, hd, -, -, hn⟩ := h
  rw [UInt64.lt_iff_toNat_lt]
  omega

theorem toNat_le_of_le (hack : 32 ≤ ack) : 32 ≤ ack.toNat := UInt64.le_iff_toNat_le.mp hack

/-- The 32 turns of the loop look for numbers that do not wrap. -/
theorem turns_le (hack : 32 ≤ ack) : 32 ≤ (ack - 1).toNat + 1 := by
  have hack' := toNat_le_of_le hack
  rw [toNat_sub_one (by omega)]
  omega

theorem mem_storeAcksLoop_iff (hack : 32 ≤ ack) {n : UInt64} :
    n ∈ storeAcksLoop ackBits 32 (ack - 1) [] ↔ NamedBelow ack ackBits n := by
  have hack' := toNat_le_of_le hack
  have hprev : (ack - 1).toNat = ack.toNat - 1 := toNat_sub_one (by omega)
  rw [mem_storeAcksLoop (turns_le hack), hprev]
  constructor
  · rintro ⟨d, hd, hbit, hn⟩
    refine ⟨d + 1, by omega, by omega, ?_, by omega⟩
    rwa [show 32 - (d + 1) = 32 - 1 - d by omega]
  · rintro ⟨d, hd, hd', hbit, hn⟩
    refine ⟨d - 1, by omega, ?_, by omega⟩
    rwa [show 32 - 1 - (d - 1) = 32 - d by omega]

theorem mem_storeAcks (hack : 32 ≤ ack) {n : UInt64} :
    n ∈ storeAcks data ack ackBits ↔ n ∈ data ∨ n = ack ∨ NamedBelow ack ackBits n := by
  rw [storeAcks, mem_addAll, storeAcksLoop_eq_append, List.singleton_append, List.mem_cons,
    mem_storeAcksLoop_iff hack]

/-- What StoreAcks is for: the old list stays in front, and what joins it is the number
acknowledged with the numbers below it whose bits are set, each once. -/
theorem storeAcks_exact (hnodup : data.Nodup) (hack : 32 ≤ ack) (ackBits : UInt32) :
    data <+: storeAcks data ack ackBits ∧
      (storeAcks data ack ackBits).Nodup ∧
      (∀ n, n ∈ storeAcks data ack ackBits ↔ n ∈ data ∨ n = ack ∨
        ∃ d, 1 ≤ d ∧ d ≤ 32 ∧ bitSet ackBits (32 - d) = true ∧ n.toNat + d = ack.toNat) ∧
      storeAcks (storeAcks data ack ackBits) ack ackBits = storeAcks data ack ackBits := by
  refine ⟨prefix_addAll .., nodup_addAll hnodup _, fun n => mem_storeAcks hack, ?_⟩
  apply addAll_of_subset
  intro n hn
  exact mem_addAll.mpr (Or.inr hn)

theorem storeAcks_exact_overlap :
    [40, 42] <+: storeAcks [40, 42] 43 0xE0000000 ∧
      (storeAcks [40, 42] 43 0xE0000000).Nodup ∧
      (∀ n, n ∈ storeAcks [40, 42] 43 0xE0000000 ↔ n ∈ [40, 42] ∨ n = 43 ∨
        ∃ d, 1 ≤ d ∧ d ≤ 32 ∧ bitSet 0xE0000000 (32 - d) = true ∧
          n.toNat + d = (43 : UInt64).toNat) ∧
      storeAcks (storeAcks [40, 42] 43 0xE0000000) 43 0xE0000000 =
        storeAcks [40, 42] 43 0xE0000000 :=
  storeAcks_exact (by decide) (by decide) 0xE0000000

def news (data : List UInt64) (ack : UInt64) (ackBits : UInt32) : List UInt64 :=
  (storeAcksLoop ackBits 32 (ack - 1) []).filter (· ∉ data)

theorem mem_news (hack : 32 ≤ ack) {n : UInt64} :
    n ∈ news data ack ackBits ↔ New data ack ackBits n := by
  rw [news, List.mem_filter, mem_storeAcksLoop_iff hack, decide_eq_true_iff, New]

theorem storeAcks_eq_append (hbelow : ∀ old ∈ data, old < ack) (hack : 32 ≤ ack) :
    storeAcks data ack ackBits = data ++ ack :: news data ack ackBits := by
  have habsent : ack ∉ data := fun hmem => UInt64.lt_irrefl _ (hbelow ack hmem)
  have hnodup : (ack :: storeAcksLoop ackBits 32 (ack - 1) []).Nodup := by
    rw [List.nodup_cons, mem_storeAcksLoop_iff hack]
    refine ⟨fun h => UInt64.lt_irrefl _ h.lt, ?_⟩
    exact (decreasing_storeAcksLoop ackBits (turns_le hack)).imp fun h => (UInt64.ne_of_lt h).symm
  rw [storeAcks, storeAcksLoop_eq_append, List.singleton_append, addAll_eq_append hnodup,
    List.filter_cons_of_pos (by simpa using habsent), news]

/-- Of the new numbers only the least is exposed. -/
theorem exposed_news_iff (hack : 32 ≤ ack) {n : UInt64} :
    Exposed n (news data ack ackBits) ↔
      New data ack ackBits n ∧ ∀ n', New data ack ackBits n' → n ≤ n' := by
  have hdecreasing : (news data ack ackBits).Pairwise (fun n n' => n' < n) :=
    (decreasing_storeAcksLoop ackBits (turns_le hack)).sublist List.filter_sublist
  rw [exposed_iff_of_decreasing hdecreasing]
  simp only [mem_news hack]

/-- A number below the one acknowledged that is exposed after StoreAcks: the least new
number, or one that was there and is below all that was added. -/
theorem exposed_storeAcks_iff (hincreasing : data.Pairwise (· < ·))
    (hbelow : ∀ old ∈ data, old < ack) (hack : 32 ≤ ack) {n : UInt64} (hn : n < ack) :
    Exposed n (storeAcks data ack ackBits) ↔
      (New data ack ackBits n ∧ ∀ n', New data ack ackBits n' → n ≤ n') ∨
        n ∈ data ∧ ∀ n', New data ack ackBits n' → n < n' := by
  have hdata : Exposed n data ↔ n ∈ data := ⟨Exposed.mem, exposed_of_increasing hincreasing⟩
  have hne : ack ≠ n := fun heq => UInt64.lt_irrefl _ (heq ▸ hn)
  rw [storeAcks_eq_append hbelow hack, exposed_append, Exposed, exposed_news_iff hack, hdata]
  simp only [List.forall_mem_cons, mem_news hack, hn, hne, true_and, false_and, or_false]

theorem bitSet_computeAckBits_storeAcks (hincreasing : data.Pairwise (· < ·))
    (hbelow : ∀ old ∈ data, old < ack) (hack : 32 ≤ ack) {d : ℕ} (hd : 1 ≤ d) (hd' : d ≤ 32) :
    bitSet (computeAckBits (storeAcks data ack ackBits) ack) (32 - d) = true ↔
      (New data ack ackBits (ack - UInt64.ofNat d) ∧
        ∀ n', New data ack ackBits n' → ack - UInt64.ofNat d ≤ n') ∨
        ack - UInt64.ofNat d ∈ data ∧
          ∀ n', New data ack ackBits n' → ack - UInt64.ofNat d < n' := by
  have hack' := toNat_le_of_le hack
  have hdist := (eq_sub_ofNat_iff (by omega)).mp (Eq.refl (ack - UInt64.ofNat d))
  have hlt : ack - UInt64.ofNat d < ack := by
    rw [UInt64.lt_iff_toNat_lt]
    omega
  rw [← exposed_storeAcks_iff hincreasing hbelow hack hlt]
  exact ⟨exposed_of_bitSet_computeAckBits hack hd hd',
    bitSet_computeAckBits_of_exposed hd hd' hdist⟩

/-- What agreement says of a number rather than of a distance. -/
theorem Agrees.exposed_iff (h : Agrees data ack ackBits) (hack : 32 ≤ ack) {n : UInt64} {d : ℕ}
    (hd : 1 ≤ d) (hd' : d ≤ 32) (hn : n.toNat + d = ack.toNat) :
    Exposed n (storeAcks data ack ackBits) ↔ bitSet ackBits (32 - d) = true ∨ n ∈ data := by
  have hack' := toNat_le_of_le hack
  obtain rfl := (eq_sub_ofNat_iff (by omega)).mpr hn
  rw [← h d hd hd']
  exact ⟨bitSet_computeAckBits_of_exposed hd hd' hn, exposed_of_bitSet_computeAckBits hack hd hd'⟩

section Agreement

variable (hincreasing : data.Pairwise (· < ·)) (hbelow : ∀ old ∈ data, old < ack)
  (hack : 32 ≤ ack)

include hincreasing hbelow hack

/-- A new number that is to be found again is the least of them. -/
theorem Agrees.le_of_new (h : Agrees data ack ackBits) {n n' : UInt64}
    (hn : New data ack ackBits n) (hn' : New data ack ackBits n') : n ≤ n' := by
  obtain ⟨d, hd, hd', hbit, hdist⟩ := hn.1
  have hexp := (h.exposed_iff hack hd hd' hdist).mpr (Or.inl hbit)
  rcases (exposed_storeAcks_iff hincreasing hbelow hack hn.1.lt).mp hexp with hleast | hold
  · exact hleast.2 n' hn'
  · exact absurd hold.1 hn.2

/-- A number that was there and is above a new one would be passed over. -/
theorem Agrees.lt_of_new (h : Agrees data ack ackBits) {n old : UInt64}
    (hn : New data ack ackBits n) (hold : old ∈ data) : old < n := by
  by_contra hnot
  have hle : n.toNat ≤ old.toNat := UInt64.le_iff_toNat_le.mp (UInt64.not_lt.mp hnot)
  have hlt := UInt64.lt_iff_toNat_lt.mp (hbelow old hold)
  obtain ⟨d, hd, hd', -, hdist⟩ := hn.1
  have hexp := (@Agrees.exposed_iff _ _ _ h hack old (ack.toNat - old.toNat) (by omega) (by omega)
    (by omega)).mpr (Or.inr hold)
  rcases (exposed_storeAcks_iff hincreasing hbelow hack (hbelow old hold)).mp hexp with
    hnew | hbefore
  · exact hnew.1.2 hold
  · exact hnot (hbefore.2 n hn)

theorem NewOnTop.agrees (h : NewOnTop data ack ackBits) : Agrees data ack ackBits := by
  intro d hd hd'
  have hack' := toNat_le_of_le hack
  have hdist := (eq_sub_ofNat_iff (by omega)).mp (Eq.refl (ack - UInt64.ofNat d))
  rw [bitSet_computeAckBits_storeAcks hincreasing hbelow hack hd hd']
  by_cases hmem : ack - UInt64.ofNat d ∈ data
  · exact iff_of_true (Or.inr ⟨hmem, fun n' hn' => (h n' hn').1 _ hmem⟩) (Or.inr hmem)
  · rw [or_iff_left fun hold => hmem hold.1, or_iff_left hmem]
    constructor
    · rintro ⟨⟨⟨d', _, _, hbit, hdist'⟩, _⟩, _⟩
      rwa [show d = d' by omega]
    · intro hbit
      have hn : New data ack ackBits (ack - UInt64.ofNat d) := ⟨⟨d, hd, hd', hbit, hdist⟩, hmem⟩
      refine ⟨hn, fun n' hn' => ?_⟩
      rw [(h _ hn).2 n' hn']
      exact UInt64.le_refl _

/-- StoreAcks and ComputeAckBits agree exactly when at most one number is new and it is
above all that the list held. -/
theorem agrees_iff_newOnTop : Agrees data ack ackBits ↔ NewOnTop data ack ackBits := by
  constructor
  · intro h n hn
    refine ⟨fun old hold => h.lt_of_new hincreasing hbelow hack hn hold, fun n' hn' => ?_⟩
    apply UInt64.le_antisymm
    · exact h.le_of_new hincreasing hbelow hack hn' hn
    · exact h.le_of_new hincreasing hbelow hack hn hn'
  · exact fun h => h.agrees hincreasing hbelow hack

end Agreement

theorem agrees_iff_newOnTop_next : Agrees [40, 41] 43 0xC0000000 ↔
    NewOnTop [40, 41] 43 0xC0000000 :=
  agrees_iff_newOnTop (by decide) (by decide) (by decide)

/-- Two new numbers: 42 is pushed back before 41, so the scan passes over it. -/
theorem not_forall_agrees : ¬ ∀ (data : List UInt64) (ack : UInt64) (ackBits : UInt32),
    data.Pairwise (· < ·) → (∀ old ∈ data, old < ack) → 32 ≤ ack → Agrees data ack ackBits := by
  intro h
  have hagrees := h [40] 43 0xC0000000 (by decide) (by decide) (by decide)
  have hbits : computeAckBits (storeAcks [40] 43 0xC0000000) 43 = 0x60000000 := by decide
  have hfirst := (hagrees 1 (by decide) (by decide)).mpr (Or.inl (by decide))
  rw [hbits] at hfirst
  exact absurd hfirst (by decide)

end Stored

end RocketGame.StoredAcks
