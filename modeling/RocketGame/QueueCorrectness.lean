import RocketGame.Client
import RocketGame.RingQueue

/-!
What the two threads of a NetworkQueue can rely on, read off the refinement. A
call that runs without the other thread answers as the bounded queue does, which
is also how the rest of the development sees the queues of the client.
-/
namespace RocketGame.RingQueue

open BoundedFifo Runs

variable {α : Type*} {N : ℕ}

def State.queued (s : State α N) : ℕ := s.pushed.length - s.popped.length

section Calls

variable {s : State α N}

/-- A call that runs on its own ends in one state only. -/
theorem run_call_unique {F : State α N → Prop} {call turn : Event α} {m n : ℕ} {t u : State α N}
    (hfinal : ∀ s, F s → step s turn = none)
    (ht : run step s (call :: List.replicate m turn) = some t) (hFt : F t)
    (hu : run step s (call :: List.replicate n turn) = some u) (hFu : F u) : t = u := by
  obtain ⟨s₁, hs₁, ht⟩ := run_cons_eq_some.mp ht
  obtain ⟨s₂, hs₂, hu⟩ := run_cons_eq_some.mp hu
  obtain rfl := Option.some.inj (hs₁.symm.trans hs₂)
  exact run_replicate_unique hfinal ht hFt hu hFu

/-- The call of push returns this when the consumer takes no step meanwhile. -/
def PushReturns (s : State α N) (item : α) (stored : Bool) : Prop :=
  ∃ n t, run step s (.push item :: List.replicate n .producer) = some t ∧
    t.producer = .idle (some stored)

/-- The call of pop returns this when the producer takes no step meanwhile. -/
def PopReturns (s : State α N) (result : Option α) : Prop :=
  ∃ n t, run step s (.pop :: List.replicate n .consumer) = some t ∧
    t.consumer = .idle (some result)

theorem PushReturns.unique {item : α} {stored stored' : Bool} (h : PushReturns s item stored)
    (h' : PushReturns s item stored') : stored = stored' := by
  obtain ⟨m, t, ht, hidle⟩ := h
  obtain ⟨n, u, hu, hidle'⟩ := h'
  have hfinal : ∀ s : State α N, (∃ result, s.producer = .idle result) →
      step s .producer = none := by
    rintro s ⟨result, hproducer⟩
    simp only [step, stepProducer, hproducer]
  obtain rfl := run_call_unique hfinal ht ⟨_, hidle⟩ hu ⟨_, hidle'⟩
  rw [hidle] at hidle'
  cases hidle'
  rfl

theorem PopReturns.unique {result result' : Option α} (h : PopReturns s result)
    (h' : PopReturns s result') : result = result' := by
  obtain ⟨m, t, ht, hidle⟩ := h
  obtain ⟨n, u, hu, hidle'⟩ := h'
  have hfinal : ∀ s : State α N, (∃ result, s.consumer = .idle result) →
      step s .consumer = none := by
    rintro s ⟨result, hconsumer⟩
    simp only [step, stepConsumer, hconsumer]
  obtain rfl := run_call_unique hfinal ht ⟨_, hidle⟩ hu ⟨_, hidle'⟩
  rw [hidle] at hidle'
  cases hidle'
  rfl

section Refinement

variable [NeZero N] {q : Fifo α (N - 1)}

theorem Refines.queued_eq (h : Refines s q) : s.queued = q.items.length := by
  rw [State.queued, h.pushed, h.popped, q.length_pushed, Nat.add_sub_cancel_left]

/-- On its own, push stores the item exactly when there is room. -/
theorem pushReturns_iff (h : Refines s q) {last : Option Bool} (hidle : s.producer = .idle last)
    (item : α) (stored : Bool) :
    PushReturns s item stored ↔ (stored = false ↔ q.items.length = N - 1) := by
  have hfull := h.increment_head_eq_tail_iff
  by_cases hroom : increment s.head = s.tail
  · have hreturns : PushReturns s item false :=
      ⟨1, { s with producer := .idle (some false) },
        by simp [run, step, stepProducer, hidle, hroom], rfl⟩
    rw [iff_true_right (hfull.mp hroom)]
    exact ⟨fun h => h.unique hreturns, fun h => h ▸ hreturns⟩
  · have hreturns : PushReturns s item true :=
      ⟨3, _, by simp [run, step, stepProducer, hidle, hroom]; rfl, rfl⟩
    rw [iff_false_right (mt hfull.mpr hroom), Bool.not_eq_false]
    exact ⟨fun h => h.unique hreturns, fun h => h ▸ hreturns⟩

/-- On its own, pop returns the oldest value queued. -/
theorem popReturns_iff (h : Refines s q) {last : Option (Option α)}
    (hidle : s.consumer = .idle last) (result : Option α) :
    PopReturns s result ↔ result = q.items.head? := by
  have hempty := h.tail_eq_head_iff
  suffices hreturns : PopReturns s q.items.head? from
    ⟨fun h => h.unique hreturns, fun h => h ▸ hreturns⟩
  cases hitems : q.items with
  | nil =>
    have htail := hempty.mpr hitems
    exact ⟨1, { s with consumer := .idle (some none) },
      by simp [run, step, stepConsumer, hidle, htail], rfl⟩
  | cons item items =>
    have htail : s.tail ≠ s.head := by
      rw [Ne, hempty, hitems]
      exact List.cons_ne_nil _ _
    have hstored : s.buffer s.tail = item := by
      rw [h.tail]
      exact h.stored 0 item (by rw [hitems, List.getElem?_cons_zero])
    refine ⟨3, _, by simp [run, step, stepConsumer, hidle, htail]; rfl, ?_⟩
    simp only [hstored, List.head?_cons]

end Refinement

end Calls

/-- The values popped are the first of those pushed, one slot stays free, no slot
is written while its value is still to be read, and a call without interleaving
fails only on a full or on an empty queue. -/
structure QueueCorrect (s : State α N) : Prop where
  inOrder : s.popped <+: s.pushed
  bounded : s.queued ≤ N - 1
  slotFree : ∀ item head, s.producer = .checked item head → s.unread head = false
  push : ∀ last item stored, s.producer = .idle last →
    (PushReturns s item stored ↔ (stored = false ↔ s.queued = N - 1))
  pop : ∀ last result, s.consumer = .idle last →
    (PopReturns s result ↔ result = s.pushed[s.popped.length]?)
  popFails : ∀ last, s.consumer = .idle last → (PopReturns s none ↔ s.queued = 0)

section Correctness

variable [NeZero N]

theorem Refines.queueCorrect {s : State α N} {q : Fifo α (N - 1)} (h : Refines s q) :
    QueueCorrect s where
  inOrder := by
    rw [h.popped, h.pushed]
    exact q.popped_prefix_pushed
  bounded := by
    rw [h.queued_eq]
    exact q.bounded
  slotFree _ _ hproducer := h.unread_of_checked hproducer
  push _ item stored hidle := by
    rw [h.queued_eq]
    exact pushReturns_iff h hidle item stored
  pop _ result hidle := by
    rw [h.pushed, h.popped, q.pushed_getElem?_length_popped]
    exact popReturns_iff h hidle result
  popFails _ hidle := by
    rw [popReturns_iff h hidle, h.queued_eq, eq_comm, List.head?_eq_none_iff,
      List.length_eq_zero_iff]

/-- In every interleaving of the steps of push and pop, for every capacity, the
queue is a first-in first-out queue of one value less than its capacity. -/
theorem always_queueCorrect (buffer : Fin N → α) (events : List (Event α)) :
    Always step QueueCorrect (initial buffer) events := by
  apply (always_refines buffer events).mono
  rintro s ⟨q, hq⟩
  exact hq.queueCorrect

end Correctness

/-- Two calls that overlap, at the capacity of the queues of the client. -/
theorem always_queueCorrect_overlapping :
    Always step QueueCorrect (initial (N := 256) fun _ => 0)
      [.push 7, .pop, .producer, .producer, .consumer, .producer, .pop, .consumer] :=
  always_queueCorrect _ _

section Client

open Client (NetworkQueue)

variable {α : Type} (q : Fifo α (NetworkQueue.capacity - 1))

/-- Seen by one thread, the push of the client's queues is the one of this queue. -/
theorem networkQueue_push (item : α) :
    ∃ q', q.Performs (.push item (NetworkQueue.push ⟨q.items⟩ item).1) q' ∧
      (NetworkQueue.push ⟨q.items⟩ item).2 = ⟨q'.items⟩ := by
  by_cases hfull : q.items.length + 1 = NetworkQueue.capacity
  · rw [NetworkQueue.push, if_pos hfull]
    exact ⟨q, ⟨Nat.eq_sub_of_add_eq hfull, rfl⟩, rfl⟩
  · have hroom : q.items.length < NetworkQueue.capacity - 1 := by
      refine Nat.lt_of_le_of_ne q.bounded fun h => hfull ?_
      rw [h]
      rfl
    rw [NetworkQueue.push, if_neg hfull]
    exact ⟨q.push item hroom, ⟨hroom, rfl⟩, rfl⟩

theorem networkQueue_pop_eq (items : List α) :
    NetworkQueue.pop ⟨items⟩ = items.head?.map fun item => (item, ⟨items.tail⟩) := by
  cases items <;> rfl

/-- So is the pop. -/
theorem networkQueue_pop :
    ∃ q', q.Performs (.pop ((NetworkQueue.pop ⟨q.items⟩).map Prod.fst)) q' ∧
      ∀ next ∈ (NetworkQueue.pop ⟨q.items⟩).map Prod.snd, next = ⟨q'.items⟩ := by
  rw [networkQueue_pop_eq]
  cases hhead : q.items.head? with
  | none => exact ⟨q, ⟨List.head?_eq_none_iff.mp hhead, rfl⟩, fun next h => nomatch h⟩
  | some item =>
    refine ⟨q.pop, ⟨hhead, rfl⟩, fun next h => ?_⟩
    obtain rfl := Option.mem_some_iff.mp h
    rfl

end Client

end RocketGame.RingQueue
