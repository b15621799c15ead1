import RocketGame.RocketUpdate

/-!
No shot is lost between the game thread and the network thread. The fire flag is
in the field, in a packet of the queue, in a packet the network thread has taken,
or in the packet that the update has just taken back.
-/
namespace RocketGame.ShotSending

open RocketShared RocketUpdate Runs

def Fires (u : ℕ) (q : Queued) : Prop := q.packet.isFiring = 1 ∧ u ≤ q.update

/-- The shot of update u has not been lost. -/
def ShotKept (s : State) (u : ℕ) : Prop :=
  s.isFiringNotSent = true ∨ (∃ q ∈ s.outgoing, q.packet.isFiring = 1) ∨
    ∃ q ∈ s.dequeued, Fires u q

def NoShotLost (s : State) : Prop := s.control = .between → ∀ u ∈ s.shots, ShotKept s u

def held (s : State) : List Queued :=
  match s.control with
  | .readPrevious previous => previous.toList
  | _ => []

def packets (s : State) : List Queued := held s ++ (s.outgoing ++ s.dequeued)

theorem mem_packets {s : State} {q : Queued} :
    q ∈ packets s ↔ q ∈ held s ∨ q ∈ s.outgoing ∨ q ∈ s.dequeued := by
  rw [packets, List.mem_append, List.mem_append]

/-- Away from readPrevious nothing is held. -/
theorem mem_queues {s : State} {q : Queued} (hheld : held s = []) (hq : q ∈ packets s) :
    q ∈ s.outgoing ∨ q ∈ s.dequeued := by
  rw [packets, hheld, List.nil_append, List.mem_append] at hq
  exact hq

theorem packets_of_queues {s s' : State} {q : Queued} (hheld : held s = [])
    (hout : s'.outgoing = s.outgoing) (hdequeued : s'.dequeued = s.dequeued)
    (hq : q ∈ packets s) : q ∈ packets s' := by
  rw [mem_packets, hout, hdequeued]
  exact Or.inr (mem_queues hheld hq)

/-- The flag is in the field, where the next step does not clear it, or in a packet. -/
def Accounted (s : State) (u : ℕ) : Prop :=
  (s.control ≠ .clearFlag ∧ s.isFiringNotSent = true) ∨ ∃ q ∈ packets s, Fires u q

structure Inv (s : State) : Prop where
  numbered : ∀ u ∈ s.shots, u ≤ s.updates
  pending : ∀ packet, s.control = .enqueue packet → s.isFiringNotSent = true →
    packet.isFiring = 1
  accounted : ∀ u ∈ s.shots, Accounted s u

theorem inv_initial : Inv {} where
  numbered _ h := absurd h List.not_mem_nil
  pending _ h := nomatch h
  accounted _ h := absurd h List.not_mem_nil

theorem Inv.noShotLost {s : State} (h : Inv s) : NoShotLost s := by
  intro hbetween u hu
  have hheld : held s = [] := by rw [held, hbetween]
  rcases h.accounted u hu with ⟨-, hflag⟩ | ⟨q, hq, hfires⟩
  · exact Or.inl hflag
  · rcases mem_queues hheld hq with hq | hq
    · exact Or.inr (Or.inl ⟨q, hq, hfires.1⟩)
    · exact Or.inr (Or.inr ⟨q, hq, hfires⟩)

section Steps

variable {s : State}

/-- A step that only moves packets, while the flag stays where it is. -/
theorem Inv.of_moved {s' : State} (h : Inv s) (hshots : s'.shots = s.shots)
    (hupdates : s'.updates = s.updates) (hpackets : ∀ q, q ∈ packets s → q ∈ packets s')
    (hflag : s.control ≠ .clearFlag → s.isFiringNotSent = true →
      s'.control ≠ .clearFlag ∧ s'.isFiringNotSent = true)
    (hpending : ∀ packet, s'.control = .enqueue packet → s'.isFiringNotSent = true →
      packet.isFiring = 1) : Inv s' where
  numbered := by rw [hshots, hupdates]; exact h.numbered
  pending := hpending
  accounted := by
    rw [hshots]
    intro u hu
    rcases h.accounted u hu with ⟨hcontrol, hset⟩ | ⟨q, hq, hfires⟩
    · exact Or.inl (hflag hcontrol hset)
    · exact Or.inr ⟨q, hpackets q hq, hfires⟩

theorem Inv.beginUpdate (h : Inv s) (hbetween : s.control = .between)
    (isFiring timerDue : Bool) (packet : NetworkPacket) :
    Inv (RocketUpdate.beginUpdate s isFiring timerDue packet) := by
  let s' := RocketUpdate.beginUpdate s isFiring timerDue packet
  have hcontrol : s'.control ≠ .clearFlag := by
    dsimp only [s', RocketUpdate.beginUpdate]
    cases timerDue <;> exact nofun
  have hshots : ∀ u ∈ s'.shots, u ∈ s.shots ∨ (isFiring = true ∧ u = s.updates + 1) := by
    intro u hu
    dsimp only [s', RocketUpdate.beginUpdate] at hu
    cases isFiring with
    | false => exact Or.inl hu
    | true =>
      rcases List.mem_append.mp hu with hu | hu
      · exact Or.inl hu
      · exact Or.inr ⟨rfl, List.mem_singleton.mp hu⟩
  constructor
  · intro u hu
    rcases hshots u hu with hu | ⟨-, rfl⟩
    · exact Nat.le_succ_of_le (h.numbered u hu)
    · exact Nat.le_refl _
  · intro p hp hflag
    dsimp only [s', RocketUpdate.beginUpdate] at hp hflag
    cases timerDue with
    | false => cases hp
    | true =>
      obtain rfl := Control.enqueue.inj hp
      simp only [hflag, if_true]
  · intro u hu
    rcases hshots u hu with hu | ⟨rfl, -⟩
    · rcases h.accounted u hu with ⟨-, hflag⟩ | ⟨q, hq, hfires⟩
      · exact Or.inl ⟨hcontrol, by simp only [RocketUpdate.beginUpdate, hflag, Bool.true_or]⟩
      · have hheld : held s = [] := by rw [held, hbetween]
        exact Or.inr ⟨q, packets_of_queues hheld rfl rfl hq, hfires⟩
    · exact Or.inl ⟨hcontrol, by simp only [RocketUpdate.beginUpdate, Bool.or_true]⟩

/-- The enqueued packet carries the flag that the next step clears. -/
theorem Inv.enqueue (h : Inv s) {packet : NetworkPacket} (hc : s.control = .enqueue packet) :
    Inv { s with outgoing := s.outgoing ++ [⟨packet, s.updates⟩], control := .clearFlag } where
  numbered := h.numbered
  pending _ hp := nomatch hp
  accounted := by
    intro u hu
    rcases h.accounted u hu with ⟨-, hflag⟩ | ⟨q, hq, hfires⟩
    · have hfires : Fires u ⟨packet, s.updates⟩ := ⟨h.pending packet hc hflag, h.numbered u hu⟩
      exact Or.inr ⟨_, by simp [packets], hfires⟩
    · have hheld : held s = [] := by rw [held, hc]
      refine Or.inr ⟨q, ?_, hfires⟩
      rcases mem_queues hheld hq with hq | hq <;> simp [packets, hq]

theorem Inv.clearFlag (h : Inv s) (hc : s.control = .clearFlag) :
    Inv { s with isFiringNotSent := false, control := .readCount } where
  numbered := h.numbered
  pending _ hp := nomatch hp
  accounted := by
    intro u hu
    rcases h.accounted u hu with ⟨hcontrol, -⟩ | ⟨q, hq, hfires⟩
    · exact absurd hc hcontrol
    · have hheld : held s = [] := by rw [held, hc]
      exact Or.inr ⟨q, packets_of_queues hheld rfl rfl hq, hfires⟩

/-- A packet taken back puts its flag back. -/
theorem Inv.readPrevious (h : Inv s) {previous : Queued}
    (hc : s.control = .readPrevious (some previous)) :
    Inv { s with
      isFiringNotSent := if previous.packet.isFiring = 1 then true else s.isFiringNotSent
      control := .between } where
  numbered := h.numbered
  pending _ hp := nomatch hp
  accounted := by
    intro u hu
    rcases h.accounted u hu with ⟨-, hflag⟩ | ⟨q, hq, hfires⟩
    · refine Or.inl ⟨nofun, ?_⟩
      simp only [hflag, ite_self]
    · rcases mem_packets.mp hq with hq | hq
      · simp only [held, hc, Option.toList_some, List.mem_singleton] at hq
        subst hq
        exact Or.inl ⟨nofun, if_pos hfires.1⟩
      · exact Or.inr ⟨q, mem_packets.mpr (Or.inr hq), hfires⟩

theorem Inv.readCount (h : Inv s) (hc : s.control = .readCount) :
    Inv { s with control := if s.outgoing.length > 1 then .tryDequeue else .between } := by
  have hheld : held s = [] := by rw [held, hc]
  apply h.of_moved
  · rfl
  · rfl
  · exact fun q => packets_of_queues hheld rfl rfl
  · intro _ hflag
    exact ⟨by dsimp only; split <;> exact nofun, hflag⟩
  · intro packet hp
    dsimp only at hp
    split at hp <;> cases hp

theorem Inv.takePrevious (h : Inv s) (hc : s.control = .tryDequeue) :
    Inv (RocketUpdate.takePrevious s) := by
  have hheld : held s = [] := by rw [held, hc]
  unfold RocketUpdate.takePrevious
  split
  · apply h.of_moved
    · rfl
    · rfl
    · exact fun q => packets_of_queues hheld rfl rfl
    · exact fun _ hflag => ⟨nofun, hflag⟩
    · exact fun _ hp => nomatch hp
  · rename_i previous rest hout
    apply h.of_moved
    · rfl
    · rfl
    · intro q hq
      rcases mem_queues hheld hq with hq | hq
      · rw [hout, List.mem_cons] at hq
        rcases hq with rfl | hq <;> simp [packets, held, *]
      · exact mem_packets.mpr (Or.inr (Or.inr hq))
    · exact fun _ hflag => ⟨nofun, hflag⟩
    · exact fun _ hp => nomatch hp

theorem Inv.nullReference (h : Inv s) (hc : s.control = .readPrevious none) :
    Inv { s with control := .nullReference } := by
  have hheld : held s = [] := by
    simp only [held, hc, Option.toList_none]
  apply h.of_moved
  · rfl
  · rfl
  · exact fun q => packets_of_queues hheld rfl rfl
  · exact fun _ hflag => ⟨nofun, hflag⟩
  · exact fun _ hp => nomatch hp

theorem Inv.continueUpdate {s' : State} (h : Inv s)
    (hs : RocketUpdate.continueUpdate s = some s') : Inv s' := by
  unfold RocketUpdate.continueUpdate at hs
  cases hc : s.control with
  | between => simp only [hc, reduceCtorEq] at hs
  | nullReference => simp only [hc, reduceCtorEq] at hs
  | enqueue packet =>
    simp only [hc, Option.some.injEq] at hs
    exact hs ▸ h.enqueue hc
  | clearFlag =>
    simp only [hc, Option.some.injEq] at hs
    exact hs ▸ h.clearFlag hc
  | readCount =>
    simp only [hc, Option.some.injEq] at hs
    exact hs ▸ h.readCount hc
  | tryDequeue =>
    simp only [hc, Option.some.injEq] at hs
    exact hs ▸ h.takePrevious hc
  | readPrevious previous =>
    cases previous with
    | none =>
      simp only [hc, Option.some.injEq] at hs
      exact hs ▸ h.nullReference hc
    | some previous =>
      simp only [hc, Option.some.injEq] at hs
      exact hs ▸ h.readPrevious hc

/-- The network thread moves a packet from the queue to its history. -/
theorem Inv.dequeueToSend (h : Inv s) : Inv (RocketUpdate.dequeueToSend s) := by
  unfold RocketUpdate.dequeueToSend
  split
  · exact h
  · rename_i q rest hout
    apply h.of_moved
    · rfl
    · rfl
    · intro q' hq'
      rcases mem_packets.mp hq' with hheld | hq' | hq'
      · exact List.mem_append_left _ hheld
      · rw [hout, List.mem_cons] at hq'
        rcases hq' with rfl | hq' <;> simp [packets, *]
      · simp [packets, hq']
    · exact fun hcontrol hflag => ⟨hcontrol, hflag⟩
    · exact h.pending

theorem Inv.step {s' : State} {e : Event} (h : Inv s) (hs : RocketUpdate.step s e = some s') :
    Inv s' := by
  cases e with
  | update isFiring timerDue packet =>
    simp only [RocketUpdate.step, Option.ite_none_right_eq_some, Option.some.injEq] at hs
    obtain ⟨hbetween, rfl⟩ := hs
    exact h.beginUpdate hbetween isFiring timerDue packet
  | game => exact h.continueUpdate hs
  | network =>
    obtain rfl := Option.some.inj hs
    exact h.dequeueToSend

end Steps

section Runs

def isUpdate : Event → Bool
  | .update .. => true
  | _ => false

variable {s s' t : State} {events : List Event}

theorem updates_step {e : Event} (hs : step s e = some s') :
    s'.updates = s.updates + (isUpdate e).toNat := by
  cases e with
  | update isFiring timerDue packet =>
    obtain ⟨-, hs⟩ := Option.ite_none_right_eq_some.mp hs
    obtain rfl := Option.some.inj hs
    rfl
  | game => exact (ghosts_continueUpdate hs).2
  | network =>
    obtain rfl := Option.some.inj hs
    exact (ghosts_dequeueToSend s).2

theorem mem_shots_step {u : ℕ} {e : Event} (hu : u ∈ s.shots) (hs : step s e = some s') :
    u ∈ s'.shots := by
  cases e with
  | update isFiring timerDue packet =>
    obtain ⟨-, hs⟩ := Option.ite_none_right_eq_some.mp hs
    obtain rfl := Option.some.inj hs
    cases isFiring with
    | false => exact hu
    | true => exact List.mem_append_left _ hu
  | game => exact (ghosts_continueUpdate hs).1 ▸ hu
  | network =>
    obtain rfl := Option.some.inj hs
    exact (ghosts_dequeueToSend s).1 ▸ hu

/-- The updates of a run are numbered from one. -/
theorem updates_of_run (hrun : run step s events = some t) :
    t.updates = s.updates + events.countP isUpdate := by
  induction events generalizing s with
  | nil =>
    obtain rfl := Option.some.inj hrun
    rfl
  | cons e events ih =>
    obtain ⟨s', hs, hrest⟩ := run_cons_eq_some.mp hrun
    rw [ih hrest, updates_step hs, List.countP_cons, Nat.add_assoc,
      Nat.add_comm (isUpdate e).toNat]
    cases isUpdate e <;> rfl

/-- An update that fires has its number among the shots from then on. -/
theorem mem_shots_of_run {before after : List Event} {timerDue : Bool} {packet : NetworkPacket}
    (hrun : run step {} (before ++ .update true timerDue packet :: after) = some t) :
    before.countP isUpdate + 1 ∈ t.shots := by
  obtain ⟨s, hbefore, hafter⟩ := run_append_eq_some.mp hrun
  obtain ⟨s', hs, hrest⟩ := run_cons_eq_some.mp hafter
  have hnumber := updates_of_run hbefore
  rw [Nat.zero_add] at hnumber
  obtain ⟨-, hs⟩ := Option.ite_none_right_eq_some.mp hs
  obtain rfl := Option.some.inj hs
  have hfired : before.countP isUpdate + 1 ∈ (beginUpdate s true timerDue packet).shots := by
    rw [← hnumber]
    exact List.mem_append_right _ (List.mem_singleton_self _)
  have hkept : Always step (fun s => before.countP isUpdate + 1 ∈ s.shots) _ after :=
    always_of_preserved hfired fun _ _ _ hu hs => mem_shots_step hu hs
  exact hkept.last hrest

/-- In every interleaving, whenever the game thread stands between two updates, no shot
that an update has fired is lost. -/
theorem no_shot_lost {before after : List Event} {timerDue : Bool} {packet : NetworkPacket}
    (hrun : run step {} (before ++ .update true timerDue packet :: after) = some t)
    (hbetween : t.control = .between) : ShotKept t (before.countP isUpdate + 1) := by
  have hinv : Always step Inv {} (before ++ .update true timerDue packet :: after) :=
    always_of_preserved inv_initial fun _ _ _ h hs => h.step hs
  exact (hinv.last hrun).noShotLost hbetween _ (mem_shots_of_run hrun)

/-- The first update fires, the second one takes its packet back, and the packet of the
third one is sent with the flag. -/
theorem no_shot_lost_takenBack :
    let after : List Event :=
      [.game, .game, .game, .update false true {}, .game, .game, .game, .game, .game,
        .update false true {}, .game, .game, .game, .game, .game, .network]
    let t : State := { updates := 3, shots := [1], dequeued := [⟨{ isFiring := 1 }, 3⟩] }
    run step {} ([] ++ .update true true {} :: after) = some t ∧ ShotKept t 1 := by
  intro after t
  have hrun : run step {} ([] ++ .update true true {} :: after) = some t := by decide
  exact ⟨hrun, no_shot_lost hrun rfl⟩

end Runs

end RocketGame.ShotSending
