import RocketGame.RocketUpdate

/-!
What waits in Outgoing. An update that finds more than one packet after its own takes the
oldest back, so the queue cannot grow while the network thread stands still, and what
waits is always the end of what was handed over: the packet that the network thread sends
next is at most one hand-over behind the game. It may dequeue at any moment in between, and
then the update takes back its own packet.
-/
namespace RocketGame.OutgoingQueue

open RocketShared RocketUpdate Runs

/-- The hand-over with every packet that was enqueued, oldest first. -/
structure Recorded where
  state : State := {}
  enqueued : List Queued := []

def handedOver (s : State) : Event → List Queued
  | .game => match s.control with
    | .enqueue packet => [⟨packet, s.updates⟩]
    | _ => []
  | .update .. | .network => []

def step (r : Recorded) (e : Event) : Option Recorded :=
  (RocketUpdate.step r.state e).map fun state => ⟨state, r.enqueued ++ handedOver r.state e⟩

def room : Control → ℕ
  | .clearFlag | .readCount | .tryDequeue => 2
  | .between | .enqueue _ | .readPrevious _ | .nullReference => 1

def passed (s : State) : List Queued := s.dequeued ++ s.outgoing

def nextUpdate (s : State) : ℕ :=
  match s.control with
  | .enqueue _ => s.updates
  | _ => s.updates + 1

/-- Only the newest packets wait; they and those sent are some of the packets enqueued, in
their order, and these come from later and later updates. -/
structure Fresh (r : Recorded) : Prop where
  short : r.state.outgoing.length ≤ room r.state.control
  newest : r.state.outgoing <:+ r.enqueued
  inOrder : (passed r.state).Sublist r.enqueued
  later : r.enqueued.Pairwise fun p q => p.update < q.update
  numbered : ∀ q ∈ r.enqueued, q.update < nextUpdate r.state

section Steps

variable {s s' : State} {enqueued : List Queued}

/-- A step that enqueues nothing, while the oldest packets may leave the queue. -/
theorem Fresh.of_suffix (h : Fresh ⟨s, enqueued⟩) (hshort : s'.outgoing.length ≤ room s'.control)
    (hsuffix : s'.outgoing <:+ s.outgoing) (hpassed : (passed s').Sublist (passed s))
    (hnext : nextUpdate s ≤ nextUpdate s') : Fresh ⟨s', enqueued⟩ where
  short := hshort
  newest := hsuffix.trans h.newest
  inOrder := hpassed.trans h.inOrder
  later := h.later
  numbered q hq := (h.numbered q hq).trans_le hnext

theorem Fresh.beginUpdate (h : Fresh ⟨s, enqueued⟩) (hbetween : s.control = .between)
    (isFiring timerDue : Bool) (packet : NetworkPacket) :
    Fresh ⟨RocketUpdate.beginUpdate s isFiring timerDue packet, enqueued⟩ := by
  have hshort : s.outgoing.length ≤ room s.control := h.short
  have hnext : nextUpdate s = s.updates + 1 := by
    rw [nextUpdate, hbetween]
  rw [hbetween] at hshort
  refine h.of_suffix ?_ (List.suffix_refl _) (List.Sublist.refl _) ?_
  · cases timerDue <;> exact hshort
  · rw [hnext]
    cases timerDue with
    | false => exact Nat.le_succ _
    | true => exact le_rfl

/-- The new packet comes last, after all of the earlier updates. -/
theorem Fresh.enqueue (h : Fresh ⟨s, enqueued⟩) {packet : NetworkPacket}
    (hc : s.control = .enqueue packet) :
    Fresh ⟨{ s with outgoing := s.outgoing ++ [⟨packet, s.updates⟩], control := .clearFlag },
      enqueued ++ [⟨packet, s.updates⟩]⟩ := by
  have hshort : s.outgoing.length ≤ room s.control := h.short
  have hnumbered : ∀ q ∈ enqueued, q.update < nextUpdate s := h.numbered
  rw [hc] at hshort
  rw [nextUpdate, hc] at hnumbered
  dsimp only [room] at hshort
  constructor <;> dsimp only
  · rw [List.length_append, List.length_singleton]
    exact Nat.succ_le_succ hshort
  · obtain ⟨older, holder⟩ := h.newest
    exact ⟨older, by rw [← List.append_assoc, holder]⟩
  · rw [passed, ← List.append_assoc]
    exact h.inOrder.append_right _
  · rw [List.pairwise_append]
    refine ⟨h.later, List.pairwise_singleton _ _, fun p hp q hq => ?_⟩
    obtain rfl := List.mem_singleton.mp hq
    exact hnumbered p hp
  · intro q hq
    rcases List.mem_append.mp hq with hq | hq
    · exact Nat.lt_succ_of_lt (hnumbered q hq)
    · obtain rfl := List.mem_singleton.mp hq
      exact Nat.lt_succ_self _

/-- Only an update that counted more than one packet takes one back. -/
theorem Fresh.readCount (h : Fresh ⟨s, enqueued⟩) (hc : s.control = .readCount) :
    Fresh ⟨{ s with control := if s.outgoing.length > 1 then .tryDequeue else .between },
      enqueued⟩ := by
  have hshort : s.outgoing.length ≤ room s.control := h.short
  have hnext : nextUpdate s = s.updates + 1 := by
    rw [nextUpdate, hc]
  rw [hc] at hshort
  by_cases hcount : s.outgoing.length > 1
  · rw [if_pos hcount]
    exact h.of_suffix hshort (List.suffix_refl _) (List.Sublist.refl _) hnext.le
  · rw [if_neg hcount]
    exact h.of_suffix (not_lt.mp hcount) (List.suffix_refl _) (List.Sublist.refl _) hnext.le

theorem Fresh.takePrevious (h : Fresh ⟨s, enqueued⟩) (hc : s.control = .tryDequeue) :
    Fresh ⟨RocketUpdate.takePrevious s, enqueued⟩ := by
  have hshort : s.outgoing.length ≤ room s.control := h.short
  have hnext : nextUpdate s = s.updates + 1 := by
    rw [nextUpdate, hc]
  rw [hc] at hshort
  unfold RocketUpdate.takePrevious
  split
  · next hout =>
    refine h.of_suffix ?_ (List.suffix_refl _) (List.Sublist.refl _) hnext.le
    dsimp only
    rw [hout]
    exact Nat.zero_le _
  · next q rest hout =>
    rw [hout] at hshort
    refine h.of_suffix (Nat.le_of_succ_le_succ hshort) ?_ ?_ hnext.le
    · rw [hout]
      exact List.suffix_cons q rest
    · rw [passed, passed, hout]
      exact (List.sublist_cons_self q rest).append_left _

theorem Fresh.continueUpdate (h : Fresh ⟨s, enqueued⟩)
    (hs : RocketUpdate.continueUpdate s = some s') :
    Fresh ⟨s', enqueued ++ handedOver s .game⟩ := by
  have hshort : s.outgoing.length ≤ room s.control := h.short
  unfold RocketUpdate.continueUpdate at hs
  unfold handedOver
  cases hc : s.control with
  | between => simp only [hc, reduceCtorEq] at hs
  | nullReference => simp only [hc, reduceCtorEq] at hs
  | enqueue packet =>
    simp only [hc, Option.some.injEq] at hs
    exact hs ▸ h.enqueue hc
  | clearFlag =>
    simp only [hc, Option.some.injEq] at hs
    rw [hc] at hshort
    rw [List.append_nil, ← hs]
    refine h.of_suffix hshort (List.suffix_refl _) (List.Sublist.refl _) ?_
    rw [nextUpdate, hc]
    exact le_rfl
  | readCount =>
    simp only [hc, Option.some.injEq] at hs
    rw [List.append_nil, ← hs]
    exact h.readCount hc
  | tryDequeue =>
    simp only [hc, Option.some.injEq] at hs
    rw [List.append_nil, ← hs]
    exact h.takePrevious hc
  | readPrevious previous =>
    rw [hc] at hshort
    rw [List.append_nil]
    have hnext : nextUpdate s = s.updates + 1 := by
      rw [nextUpdate, hc]
    cases previous with
    | none =>
      simp only [hc, Option.some.injEq] at hs
      subst hs
      exact h.of_suffix hshort (List.suffix_refl _) (List.Sublist.refl _) hnext.le
    | some previous =>
      simp only [hc, Option.some.injEq] at hs
      subst hs
      exact h.of_suffix hshort (List.suffix_refl _) (List.Sublist.refl _) hnext.le

/-- The network thread takes the oldest packet, at whatever point the update is. -/
theorem Fresh.dequeueToSend (h : Fresh ⟨s, enqueued⟩) :
    Fresh ⟨RocketUpdate.dequeueToSend s, enqueued⟩ := by
  unfold RocketUpdate.dequeueToSend
  split
  · exact h
  · next q rest hout =>
    have hshort : s.outgoing.length ≤ room s.control := h.short
    rw [hout] at hshort
    refine h.of_suffix ((Nat.le_succ _).trans hshort) ?_ ?_ le_rfl
    · rw [hout]
      exact List.suffix_cons q rest
    · simp only [passed, hout, List.append_assoc, List.singleton_append, List.Sublist.refl]

theorem Fresh.step {r r' : Recorded} {e : Event} (h : Fresh r)
    (hs : OutgoingQueue.step r e = some r') : Fresh r' := by
  obtain ⟨s, enqueued⟩ := r
  obtain ⟨s', hs', rfl⟩ := Option.map_eq_some_iff.mp hs
  cases e with
  | update isFiring timerDue packet =>
    obtain ⟨hbetween, hs'⟩ := Option.ite_none_right_eq_some.mp hs'
    obtain rfl := Option.some.inj hs'
    rw [handedOver, List.append_nil]
    exact h.beginUpdate hbetween isFiring timerDue packet
  | game => exact h.continueUpdate hs'
  | network =>
    obtain rfl := Option.some.inj hs'
    rw [handedOver, List.append_nil]
    exact h.dequeueToSend

end Steps

theorem fresh_initial : Fresh {} where
  short := Nat.zero_le _
  newest := List.nil_suffix
  inOrder := List.nil_sublist _
  later := List.Pairwise.nil
  numbered _ hq := absurd hq List.not_mem_nil

/-- In every interleaving only the newest packets wait, at most two of them and between two
updates at most one, so what is sent next is at most one hand-over behind. -/
theorem always_fresh (events : List Event) : Always step Fresh {} events :=
  always_of_preserved fresh_initial fun _ _ _ h hs => h.step hs

end RocketGame.OutgoingQueue
