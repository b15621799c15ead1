import RocketGame.Turns

/-!
Player IDs across the player table. The search for a free ID keeps the last ID
it found taken, so a newcomer receives the ID of another record whenever ID 1 is
held. Distinct IDs therefore survive exactly the runs in which every newcomer
arrives while ID 1 is free.
-/
namespace RocketGame.PlayerIdentity

open HandshakeMessages NetworkUtilities Packets PlayerTable Runs Server Turns

/-- Records of different addresses have different player IDs. -/
def DistinctIDs (s : State) : Prop :=
  ∀ p ∈ s.players, ∀ q ∈ s.players, p.address ≠ q.address → p.playerID ≠ q.playerID

/-- An accepted request from an address without a record finds player ID 1 free. -/
def NewcomerFindsFirstIDFree (s : State) (e : Event) : Prop :=
  ∀ clientSalt, e.data.length = 1000 → Carries e.data .connectionRequest clientSalt →
    (∀ p ∈ s.players, p.address ≠ e.clientAddr) → ∀ p ∈ s.players, p.playerID ≠ 1

/-- The search ends with the ID it started from or with an ID that is taken. -/
theorem findPlayerID_cases (players : List Player) (ids : List ℕ) (playerID : ℕ) :
    findPlayerID players ids playerID = playerID ∨
      ∃ p ∈ players, p.playerID.toNat = findPlayerID players ids playerID ∧
        p.playerID.toNat ∈ ids := by
  induction ids generalizing playerID with
  | nil => exact Or.inl rfl
  | cons i rest ih =>
    rw [findPlayerID]
    split
    · rename_i htaken
      obtain ⟨p, hp, hid⟩ := List.any_eq_true.mp htaken
      rw [beq_iff_eq] at hid
      right
      rcases ih i with hkeep | ⟨q, hq, hqid, hqmem⟩
      · exact ⟨p, hp, hid.trans hkeep.symm, by simp [hid]⟩
      · exact ⟨q, hq, hqid, List.mem_cons_of_mem _ hqmem⟩
    · exact Or.inl rfl

section Assign

variable {players : List Player} {addr : Address}

theorem find?_fromAddress_eq_none (hnone : ∀ p ∈ players, p.address ≠ addr) :
    players.find? (fromAddress addr) = none := by
  rw [List.find?_eq_none]
  exact fun p hp h => hnone p hp (fromAddress_iff.mp h)

theorem assignPlayerID_of_new (hnone : ∀ p ∈ players, p.address ≠ addr) :
    assignPlayerID players addr =
      if findPlayerID players (List.range' 1 (maxPlayers - 1)) 0 = 0 then 1
      else findPlayerID players (List.range' 1 (maxPlayers - 1)) 0 := by
  simp only [assignPlayerID, find?_fromAddress_eq_none hnone, if_true]

/-- A newcomer gets ID 1 when no record holds it. -/
theorem assignPlayerID_of_free (hnone : ∀ p ∈ players, p.address ≠ addr)
    (hfree : ∀ p ∈ players, p.playerID ≠ 1) : assignPlayerID players addr = 1 := by
  have hsearch : (players.any fun player => player.playerID.toNat == 1) = false := by
    rw [List.any_eq_false]
    intro p hp h
    exact hfree p hp (UInt8.toNat_inj.mp (beq_iff_eq.mp h))
  have hids : List.range' 1 (maxPlayers - 1) = 1 :: List.range' 2 6 := rfl
  simp only [assignPlayerID_of_new hnone, hids, findPlayerID, hsearch, Bool.false_eq_true, if_false,
    if_true]

/-- A newcomer gets the ID of another record when ID 1 is held. -/
theorem assignPlayerID_of_taken (hnone : ∀ p ∈ players, p.address ≠ addr) {p : Player}
    (hp : p ∈ players) (hid : p.playerID = 1) :
    ∃ q ∈ players, q.playerID.toNat = assignPlayerID players addr := by
  rw [assignPlayerID_of_new hnone]
  split
  · exact ⟨p, hp, by rw [hid]; rfl⟩
  · rename_i hne
    rcases findPlayerID_cases players (List.range' 1 (maxPlayers - 1)) 0 with hzero |
        ⟨q, hq, hqid, _⟩
    · exact absurd hzero hne
    · exact ⟨q, hq, hqid⟩

/-- A known address keeps the ID of its first record. -/
theorem assignPlayerID_of_find? {p : Player} (hfind : players.find? (fromAddress addr) = some p)
    (hid : p.playerID ≠ 0) : assignPlayerID players addr = p.playerID.toNat := by
  have hne : p.playerID.toNat ≠ 0 := fun h => hid (UInt8.toNat_inj.mp h)
  simp only [assignPlayerID, hfind, hne, if_false]

theorem newPlayer_playerID {env : Env} {clientSalt : UInt64} {id : UInt8}
    (h : assignPlayerID players addr = id.toNat) :
    (newPlayer env players clientSalt addr).playerID = id := by
  change UInt8.ofNat (assignPlayerID players addr) = id
  rw [h, UInt8.ofNat_toNat]

/-- A newcomer never gets ID 0. -/
theorem newPlayer_playerID_ne_zero (env : Env) (clientSalt : UInt64)
    (hnone : ∀ p ∈ players, p.address ≠ addr) :
    (newPlayer env players clientSalt addr).playerID ≠ 0 := by
  have hassign := assignPlayerID_of_new hnone
  split at hassign
  · have hone : assignPlayerID players addr = (1 : UInt8).toNat := hassign
    rw [newPlayer_playerID hone]
    decide
  · rename_i hne
    rcases findPlayerID_cases players (List.range' 1 (maxPlayers - 1)) 0 with hzero |
        ⟨q, _, hqid, _⟩
    · exact absurd hzero hne
    · rw [newPlayer_playerID (hassign.trans hqid.symm)]
      intro hq
      rw [hq] at hqid
      exact hne hqid.symm

end Assign

/-- Every record after a turn has the ID and address of a record before it, or
is the one added by an accepted request. -/
theorem tableChange_identity {env : Env} {data : Datagram} {addr : Address}
    {players players' : List Player} (h : TableChange env data addr players players')
    {p : Player} (hp : p ∈ players') :
    (∃ q ∈ players, q.playerID = p.playerID ∧ q.address = p.address) ∨
      ∃ clientSalt, data.length = 1000 ∧ Carries data .connectionRequest clientSalt ∧
        p = newPlayer env players clientSalt addr := by
  cases h with
  | same => exact Or.inl ⟨p, hp, rfl, rfl⟩
  | added clientSalt hsize hdata =>
    rcases List.mem_append.mp hp with hold | hnew
    · exact Or.inl ⟨p, hold, rfl, rfl⟩
    · exact Or.inr ⟨clientSalt, hsize, hdata, List.mem_singleton.mp hnew⟩
  | changed before after player player' hplayers haddr hsame =>
    left
    subst hplayers
    rcases List.mem_append.mp hp with hbefore | hrest
    · exact ⟨p, List.mem_append_left _ hbefore, rfl, rfl⟩
    · rcases List.mem_cons.mp hrest with rfl | hafter
      · exact ⟨player, by simp, hsame.playerID.symm, hsame.address.symm⟩
      · exact ⟨p, by simp [hafter], rfl, rfl⟩
  | erased before after player hplayers haddr =>
    left
    subst hplayers
    rcases List.mem_append.mp hp with hbefore | hafter
    · exact ⟨p, List.mem_append_left _ hbefore, rfl, rfl⟩
    · exact ⟨p, by simp [hafter], rfl, rfl⟩
  | removed connectionSalt => exact Or.inl ⟨p, (List.mem_filter.mp hp).1, rfl, rfl⟩

structure IDInvariant (s : State) : Prop where
  distinct : DistinctIDs s
  nonzero : ∀ p ∈ s.players, p.playerID ≠ 0

/-- The ID of an accepted request, when it breaks nothing: it is not zero, and
only records of the same address hold it. -/
theorem newPlayer_distinct {s : State} {e : Event} {clientSalt : UInt64} (hI : IDInvariant s)
    (hC : NewcomerFindsFirstIDFree s e) (hsize : e.data.length = 1000)
    (hdata : Carries e.data .connectionRequest clientSalt) :
    let p := newPlayer e.env s.players clientSalt e.clientAddr
    p.playerID ≠ 0 ∧ ∀ q ∈ s.players, q.address ≠ e.clientAddr → q.playerID ≠ p.playerID := by
  intro p
  by_cases hnone : ∀ q ∈ s.players, q.address ≠ e.clientAddr
  · have hfree := hC clientSalt hsize hdata hnone
    have hid : p.playerID = 1 := newPlayer_playerID (assignPlayerID_of_free hnone hfree)
    rw [hid]
    exact ⟨by decide, fun q hq _ => hfree q hq⟩
  · have hsome : (s.players.find? (fromAddress e.clientAddr)).isSome = true := by
      rw [List.find?_isSome]
      push Not at hnone
      obtain ⟨q, hq, hqaddr⟩ := hnone
      exact ⟨q, hq, fromAddress_iff.mpr hqaddr⟩
    obtain ⟨first, hfind⟩ := Option.isSome_iff_exists.mp hsome
    have hmem := List.mem_of_find?_eq_some hfind
    have haddr := fromAddress_iff.mp (List.find?_some hfind)
    have hid : p.playerID = first.playerID :=
      newPlayer_playerID (assignPlayerID_of_find? hfind (hI.nonzero first hmem))
    rw [hid]
    refine ⟨hI.nonzero first hmem, fun q hq hne => ?_⟩
    exact hI.distinct q hq first hmem (haddr ▸ hne)

theorem step_invariant {s s' : State} {e : Event} (hI : IDInvariant s)
    (hC : NewcomerFindsFirstIDFree s e) (h : step s e = some s') : IDInvariant s' := by
  obtain ⟨o, ho, rfl⟩ := Option.map_eq_some_iff.mp h
  have htable := executeGameTurn_table ho
  constructor
  · intro p hp q hq hne
    rcases tableChange_identity htable hp with ⟨p₀, hp₀, hpid, hpaddr⟩ |
        ⟨saltₚ, hsizeₚ, hdataₚ, rfl⟩ <;>
      rcases tableChange_identity htable hq with ⟨q₀, hq₀, hqid, hqaddr⟩ |
        ⟨saltᵩ, hsizeᵩ, hdataᵩ, rfl⟩
    · rw [← hpid, ← hqid]
      exact hI.distinct p₀ hp₀ q₀ hq₀ (hpaddr ▸ hqaddr ▸ hne)
    · have hfresh := (newPlayer_distinct hI hC hsizeᵩ hdataᵩ).2 p₀ hp₀ (hpaddr ▸ hne)
      rwa [hpid] at hfresh
    · have hfresh := (newPlayer_distinct hI hC hsizeₚ hdataₚ).2 q₀ hq₀ (hqaddr ▸ hne.symm)
      rw [hqid] at hfresh
      exact hfresh.symm
    · exact absurd rfl hne
  · intro p hp
    rcases tableChange_identity htable hp with ⟨p₀, hp₀, hpid, _⟩ | ⟨salt, hsize, hdata, rfl⟩
    · rw [← hpid]
      exact hI.nonzero p₀ hp₀
    · exact (newPlayer_distinct hI hC hsize hdata).1

/-- A newcomer who finds ID 1 held shares an ID at once. -/
theorem step_not_distinct {s s' : State} {e : Event} (hC : ¬ NewcomerFindsFirstIDFree s e)
    (h : step s e = some s') : ¬ DistinctIDs s' := by
  unfold NewcomerFindsFirstIDFree at hC
  push Not at hC
  obtain ⟨clientSalt, hsize, hdata, hnone, p, hp, hid⟩ := hC
  rw [step_connectionRequest hsize hdata, Option.some.injEq] at h
  subst h
  obtain ⟨q, hq, hqid⟩ := assignPlayerID_of_taken hnone hp hid
  intro hdistinct
  refine hdistinct q (List.mem_append_left _ hq) _
    (List.mem_append_right _ (List.mem_singleton_self _)) (hnone q hq) ?_
  exact (newPlayer_playerID hqid.symm).symm

/-- Over a whole run from the empty table, player IDs stay distinct exactly when
every newcomer finds ID 1 free. -/
theorem always_distinctIDs_iff {events : List Event} {t : State}
    (hrun : run step {} events = some t) :
    Always step DistinctIDs {} events ↔ Throughout step NewcomerFindsFirstIDFree {} events := by
  have hinit : IDInvariant {} := ⟨by simp [DistinctIDs], by simp⟩
  exact always_iff_throughout hinit (fun _ hI => hI.distinct)
    (fun _ _ _ hI hC h => step_invariant hI hC h)
    (fun _ _ _ _ hC h => step_not_distinct hC h) hrun

/-- One client alone. -/
theorem always_distinctIDs_iff_one :
    let events := [⟨{}, paddedMessage .connectionRequest 1, ⟨2, 1, 1⟩⟩]
    Always step DistinctIDs {} events ↔ Throughout step NewcomerFindsFirstIDFree {} events := by
  intro events
  exact always_distinctIDs_iff (run_step (step_paddedRequest _ _ _ _) rfl)

/-- The second of two clients receives the ID of the first. -/
theorem two_clients_share_an_id :
    ¬ ∀ events : List Event,
      (∀ e ∈ events, ∃ t salt, Carries e.data t salt ∧
        t ∈ [NetworkPacketType.connectionRequest, .challengeResponse, .disconnect]) →
      Always step (fun s => (s.players.map Player.address).dedup.length ≤ maxPlayers - 1) {}
        events →
      Always step DistinctIDs {} events := by
  intro h
  have hstep := fun (s : State) (addr : Address) => step_paddedRequest {} s 1 addr
  have halways := h [⟨{}, paddedMessage .connectionRequest 1, ⟨2, 1, 1⟩⟩,
    ⟨{}, paddedMessage .connectionRequest 1, ⟨2, 2, 1⟩⟩] ?_ ?_
  · have hdistinct := (halways.2 _ (hstep _ _)).2 _ (hstep _ _)
    exact hdistinct (newPlayer {} [] 1 ⟨2, 1, 1⟩) (List.mem_cons_self ..) _
      (List.mem_append_right _ (List.mem_singleton_self _)) (by decide) (by decide)
  · intro e he
    refine ⟨.connectionRequest, 1, ?_, by simp⟩
    rcases List.mem_pair.mp he with rfl | rfl <;> exact carries_paddedMessage _ _
  · refine ⟨by decide, fun s₁ hs₁ => ?_⟩
    obtain rfl := Option.some.inj ((hstep _ _).symm.trans hs₁)
    refine ⟨by decide, fun s₂ hs₂ => ?_⟩
    obtain rfl := Option.some.inj ((hstep _ _).symm.trans hs₂)
    exact (by decide : (2 : ℕ) ≤ 7)

end RocketGame.PlayerIdentity
