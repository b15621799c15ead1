import RocketGame.RocketUpdate

/-!
Whether Rocket.Update gets a packet when it takes the previous one back. It counts
the queue, finds more than one packet and dequeues; the network thread dequeues too,
and two of its turns between the count and the dequeue leave nothing to take.
-/
namespace RocketGame.PreviousPacket

open RocketUpdate Runs

/-- Update does not read IsFiring of a packet that is not there. -/
def PreviousPresent (s : State) : Prop :=
  s.control ≠ .readPrevious none ∧ s.control ≠ .nullReference

/-- The network thread does not take the last packet between the count and the dequeue. -/
def LeavesPacket (s : State) (e : Event) : Prop :=
  e = .network → s.control = .tryDequeue → s.outgoing.length ≠ 1

instance decidableLeavesPacket (s : State) (e : Event) : Decidable (LeavesPacket s e) := by
  delta LeavesPacket
  infer_instance

def Stocked (s : State) : Prop := s.control = .tryDequeue → s.outgoing ≠ []

structure Inv (s : State) : Prop where
  present : PreviousPresent s
  stocked : Stocked s

section Steps

variable {s s' : State}

theorem Inv.continueUpdate (h : Inv s) (hs : continueUpdate s = some s') : Inv s' := by
  unfold RocketUpdate.continueUpdate at hs
  cases hcontrol : s.control with
  | between => simp [hcontrol] at hs
  | enqueue packet =>
    simp only [hcontrol] at hs
    obtain rfl := Option.some.inj hs
    exact ⟨⟨nofun, nofun⟩, nofun⟩
  | clearFlag =>
    simp only [hcontrol] at hs
    obtain rfl := Option.some.inj hs
    exact ⟨⟨nofun, nofun⟩, nofun⟩
  | readCount =>
    simp only [hcontrol] at hs
    obtain rfl := Option.some.inj hs
    by_cases hcount : s.outgoing.length > 1
    · refine ⟨⟨?_, ?_⟩, fun _ hempty => ?_⟩
      · simp [hcount]
      · simp [hcount]
      · have hlength := congrArg List.length hempty
        simp only [List.length_nil] at hlength
        omega
    · refine ⟨⟨?_, ?_⟩, fun hdequeue => ?_⟩
      · simp [hcount]
      · simp [hcount]
      · simp [hcount] at hdequeue
  | tryDequeue =>
    simp only [hcontrol] at hs
    obtain rfl := Option.some.inj hs
    unfold takePrevious
    cases hout : s.outgoing with
    | nil => exact absurd hout (h.stocked hcontrol)
    | cons q rest => exact ⟨⟨nofun, nofun⟩, nofun⟩
  | readPrevious previous =>
    cases previous with
    | none => exact absurd hcontrol h.present.1
    | some q =>
      simp only [hcontrol] at hs
      obtain rfl := Option.some.inj hs
      exact ⟨⟨nofun, nofun⟩, nofun⟩
  | nullReference => exact absurd hcontrol h.present.2

theorem Inv.step {e : Event} (h : Inv s) (hC : LeavesPacket s e) (hs : step s e = some s') :
    Inv s' := by
  cases e with
  | update isFiring timerDue packet =>
    by_cases hbetween : s.control = .between
    · rw [RocketUpdate.step, if_pos hbetween] at hs
      obtain rfl := Option.some.inj hs
      unfold beginUpdate
      by_cases hdue : timerDue = true
      · simp only [hdue, if_true]
        exact ⟨⟨nofun, nofun⟩, nofun⟩
      · simp only [hdue]
        exact ⟨⟨nofun, nofun⟩, nofun⟩
    · rw [RocketUpdate.step, if_neg hbetween] at hs
      cases hs
  | game => exact h.continueUpdate hs
  | network =>
    obtain rfl := Option.some.inj hs
    unfold dequeueToSend
    cases hout : s.outgoing with
    | nil => exact h
    | cons q rest =>
      refine ⟨h.present, fun hdequeue hempty => ?_⟩
      have hlength := hC rfl hdequeue
      rw [hout, List.length_cons] at hlength
      exact hlength (congrArg (· + 1) (List.length_eq_zero_iff.mpr hempty))

/-- The network thread has taken the packet that Update counted. -/
theorem not_stocked_of_network (hC : ¬ LeavesPacket s .network) (hs : step s .network = some s') :
    ¬ Stocked s' := by
  have hlast : s.control = .tryDequeue ∧ s.outgoing.length = 1 := by
    by_contra hnot
    exact hC fun _ hdequeue hlength => hnot ⟨hdequeue, hlength⟩
  obtain ⟨hdequeue, hlength⟩ := hlast
  obtain rfl := Option.some.inj hs
  obtain ⟨q, hq⟩ := List.length_eq_one_iff.mp hlength
  intro hstocked
  apply hstocked
  · rw [dequeueToSend, hq]
    exact hdequeue
  · rw [dequeueToSend, hq]

theorem not_stocked_of_step {e : Event} (hC : ¬ LeavesPacket s e) (hs : step s e = some s') :
    ¬ Stocked s' := by
  cases e with
  | update isFiring timerDue packet => exact absurd (nofun) hC
  | game => exact absurd (nofun) hC
  | network => exact not_stocked_of_network hC hs

theorem step_game_of_not_stocked (h : ¬ Stocked s) :
    step s .game = some { s with control := .readPrevious none } := by
  obtain ⟨hdequeue, hempty⟩ := Classical.not_imp.mp h
  simp only [RocketUpdate.step, RocketUpdate.continueUpdate, hdequeue, takePrevious,
    not_not.mp hempty]

end Steps

section Runs

variable {s t : State} {events : List Event}

/-- Once there is nothing left to take, Update reads a packet that is not there. -/
theorem not_always_present (h : ¬ Stocked s) (hrun : run step s events = some t) :
    ¬ Always step PreviousPresent s (events ++ [.game]) := by
  induction events with
  | nil => exact fun halways => (halways.2 _ (step_game_of_not_stocked h)).1 rfl
  | cons e events ih =>
    intro halways
    obtain ⟨hdequeue, hempty⟩ := Classical.not_imp.mp h
    obtain ⟨s', hs, hrest⟩ := run_cons_eq_some.mp hrun
    cases e with
    | update isFiring timerDue packet =>
      rw [RocketUpdate.step, hdequeue, if_neg (nofun)] at hs
      cases hs
    | game => exact (halways.2 _ (step_game_of_not_stocked h)).head.1 rfl
    | network =>
      have hsame : step s .network = some s := by
        rw [RocketUpdate.step, dequeueToSend, not_not.mp hempty]
      obtain rfl : s = s' := Option.some.inj (hsame.symm.trans hs)
      exact ih hrest (halways.2 s hs)

theorem always_stocked (hrun : run step s events = some t)
    (h : Always step PreviousPresent s (events ++ [.game])) : Always step Stocked s events := by
  induction events generalizing s with
  | nil =>
    by_contra hnot
    exact not_always_present hnot hrun h
  | cons e events ih =>
    obtain ⟨s', hs, hrest⟩ := run_cons_eq_some.mp hrun
    refine ⟨?_, fun s'' hs'' => ?_⟩
    · by_contra hnot
      exact not_always_present hnot hrun h
    · obtain rfl : s' = s'' := Option.some.inj (hs.symm.trans hs'')
      exact ih hrest (h.2 s' hs)

theorem inv_initial : Inv {} := ⟨⟨nofun, nofun⟩, nofun⟩

/-- In every run in which the network thread leaves the last packet alone between the
count and the dequeue, Update never reads a packet that is not there. A run in which it
does not comes to that, at the latest with the next step of the update. -/
theorem always_previousPresent (events : List Event) :
    (Throughout step LeavesPacket {} events → Always step PreviousPresent {} events) ∧
      ∀ t, run step {} events = some t →
        Always step PreviousPresent {} (events ++ [.game]) →
        Throughout step LeavesPacket {} events := by
  constructor
  · intro hC
    have hinv := always_of_step inv_initial (fun s e s' h hC hs => Inv.step h hC hs) hC
    exact hinv.mono fun s h => h.present
  · intro t hrun halways
    refine (always_iff_throughout inv_initial (fun s h => h.stocked)
      (fun s e s' h hC hs => Inv.step h hC hs) (fun s e s' _ hC hs => not_stocked_of_step hC hs)
      hrun).mp (always_stocked hrun halways)

/-- One of the two packets is taken, by the network thread before the count. -/
theorem always_previousPresent_one_taken :
    Always step PreviousPresent {} [.update true true {}, .game, .game, .game, .network,
      .update false true {}, .game, .game, .game] :=
  (always_previousPresent _).1 (by decide)

/-- Two updates enqueue a packet each; the network thread takes both between the count
and the dequeue of the second. -/
theorem previous_can_be_null :
    ¬ ∀ events : List Event, Always step PreviousPresent {} events := by
  intro h
  let events : List Event :=
    [.update true true {}, .game, .game, .game, .update false true {}, .game, .game, .game,
      .network, .network, .game]
  have hcontrol : (run step {} events).map State.control = some (.readPrevious none) := by decide
  obtain ⟨t, hrun, ht⟩ := Option.map_eq_some_iff.mp hcontrol
  exact ((h events).last hrun).1 ht

end Runs

end RocketGame.PreviousPacket
