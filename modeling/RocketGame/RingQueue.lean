import Mathlib.Data.Nat.ModEq
import Mathlib.Logic.Function.Basic
import RocketGame.BoundedFifo
import RocketGame.Runs

/-!
NetworkQueue between two threads, one atomic step at a time. The producer loads
its own index, then that of the consumer, writes the slot and stores its index;
the consumer does the same with the roles exchanged. Every interleaving of these
steps refines the bounded queue: a push takes effect when it stores the head, a
pop when it stores the tail, and a call that fails does so at its second load.
-/
namespace RocketGame.RingQueue

open BoundedFifo Runs

/-- Where the producer stands in push; between calls, what the last one returned. -/
inductive Producer (α : Type*) (N : ℕ)
  | idle (result : Option Bool)
  | loadedHead (item : α) (head : Fin N)
  | checked (item : α) (head : Fin N)
  | written (item : α) (head : Fin N)

inductive Consumer (α : Type*) (N : ℕ)
  | idle (result : Option (Option α))
  | loadedTail (tail : Fin N)
  | checked (tail : Fin N)
  | hasRead (tail : Fin N) (item : α)

/-- The queue of capacity N and its two threads. Besides the fields of the class
it records the values pushed and popped, and the slots written and not yet read. -/
structure State (α : Type*) (N : ℕ) where
  buffer : Fin N → α
  head : Fin N
  tail : Fin N
  producer : Producer α N := .idle none
  consumer : Consumer α N := .idle none
  pushed : List α := []
  popped : List α := []
  unread : Fin N → Bool := fun _ => false

/-- A call of push or pop, up to its first load, or the next step of a thread. -/
inductive Event (α : Type*)
  | push (item : α)
  | pop
  | producer
  | consumer

variable {α : Type*} {N : ℕ}

def increment (idx : Fin N) : Fin N :=
  ⟨(idx.val + 1) % N, Nat.mod_lt _ (Nat.zero_lt_of_lt idx.isLt)⟩

def stepProducer (s : State α N) : Option (State α N) :=
  match s.producer with
  | .idle _ => none
  | .loadedHead item head =>
      if increment head = s.tail then some { s with producer := .idle (some false) }
      else some { s with producer := .checked item head }
  | .checked item head =>
      some { s with
        buffer := Function.update s.buffer head item
        unread := Function.update s.unread head true
        producer := .written item head }
  | .written item head =>
      some { s with
        head := increment head
        pushed := s.pushed ++ [item]
        producer := .idle (some true) }

def stepConsumer (s : State α N) : Option (State α N) :=
  match s.consumer with
  | .idle _ => none
  | .loadedTail tail =>
      if tail = s.head then some { s with consumer := .idle (some none) }
      else some { s with consumer := .checked tail }
  | .checked tail =>
      some { s with
        unread := Function.update s.unread tail false
        consumer := .hasRead tail (s.buffer tail) }
  | .hasRead tail item =>
      some { s with
        tail := increment tail
        popped := s.popped ++ [item]
        consumer := .idle (some (some item)) }

def step (s : State α N) : Event α → Option (State α N)
  | .push item =>
      match s.producer with
      | .idle _ => some { s with producer := .loadedHead item s.head }
      | _ => none
  | .pop =>
      match s.consumer with
      | .idle _ => some { s with consumer := .loadedTail s.tail }
      | _ => none
  | .producer => stepProducer s
  | .consumer => stepConsumer s

def Producer.operation (tail : Fin N) : Producer α N → Option (Operation α)
  | .loadedHead item head => if increment head = tail then some (.push item false) else none
  | .written item _ => some (.push item true)
  | _ => none

def Consumer.operation (head : Fin N) : Consumer α N → Option (Operation α)
  | .loadedTail tail => if tail = head then some (.pop none) else none
  | .hasRead _ item => some (.pop (some item))
  | _ => none

def State.operation (s : State α N) : Event α → Option (Operation α)
  | .producer => s.producer.operation s.tail
  | .consumer => s.consumer.operation s.head
  | _ => none

/-- The constructor: both indices are zero, and nothing is said of the slots. -/
def initial [NeZero N] (buffer : Fin N → α) : State α N where
  buffer := buffer
  head := 0
  tail := 0

/-- The slot of the value with this number, counting from the first one pushed. -/
def slot (N : ℕ) [NeZero N] (k : ℕ) : Fin N := Fin.ofNat N k

section Slots

variable [NeZero N]

theorem increment_slot (k : ℕ) : increment (slot N k) = slot N (k + 1) :=
  Fin.ext (Nat.mod_add_mod k N 1)

/-- Numbers less than a capacity apart have different slots. -/
theorem slot_eq_iff {a b : ℕ} (hle : a ≤ b) (hlt : b < a + N) : slot N b = slot N a ↔ b = a := by
  constructor
  · intro h
    have hmod : a % N = b % N := (Fin.val_eq_of_eq h).symm
    obtain hdvd := (Nat.modEq_iff_dvd' hle).mp hmod
    have hzero := Nat.eq_zero_of_dvd_of_lt hdvd (by omega)
    omega
  · rintro rfl
    rfl

/-- One slot stays free: the head runs into the tail when N - 1 values are queued. -/
theorem increment_slot_eq_iff {a b : ℕ} (hle : a ≤ b) (hlt : b < a + N) :
    increment (slot N b) = slot N a ↔ b + 1 = a + N := by
  rw [increment_slot]
  constructor
  · intro h
    by_contra hne
    have heq := (slot_eq_iff (by omega) (by omega)).mp h
    omega
  · intro h
    rw [h]
    exact Fin.ext (Nat.add_mod_right a N)

end Slots

section Refinement

variable [NeZero N]

def Producer.Knows (buffer : Fin N → α) (q : Fifo α (N - 1)) : Producer α N → Prop
  | .idle _ => True
  | .loadedHead _ head => head = slot N q.pushed.length
  | .checked _ head => head = slot N q.pushed.length ∧ q.items.length < N - 1
  | .written item head =>
      head = slot N q.pushed.length ∧ q.items.length < N - 1 ∧ buffer head = item

def Consumer.Knows (q : Fifo α (N - 1)) : Consumer α N → Prop
  | .idle _ => True
  | .loadedTail tail => tail = slot N q.popped.length
  | .checked tail => tail = slot N q.popped.length ∧ q.items ≠ []
  | .hasRead tail item => tail = slot N q.popped.length ∧ q.items.head? = some item

def Consumer.readCount : Consumer α N → ℕ
  | .hasRead _ _ => 1
  | _ => 0

def Producer.HasWritten (i : Fin N) : Producer α N → Prop
  | .written _ head => i = head
  | _ => False

def State.Holds (s : State α N) (q : Fifo α (N - 1)) (i : Fin N) : Prop :=
  (∃ k, s.consumer.readCount ≤ k ∧ k < q.items.length ∧ i = slot N (q.popped.length + k)) ∨
    s.producer.HasWritten i

structure Refines (s : State α N) (q : Fifo α (N - 1)) : Prop where
  pushed : s.pushed = q.pushed
  popped : s.popped = q.popped
  head : s.head = slot N q.pushed.length
  tail : s.tail = slot N q.popped.length
  stored : ∀ k item, q.items[k]? = some item → s.buffer (slot N (q.popped.length + k)) = item
  producer : s.producer.Knows s.buffer q
  consumer : s.consumer.Knows q
  unread : ∀ i, s.unread i = true → s.Holds q i

/-- The step does what the call does that takes effect in it, or nothing. -/
def Simulates (q : Fifo α (N - 1)) (operation : Option (Operation α)) (s' : State α N) : Prop :=
  match operation with
  | none => Refines s' q
  | some operation => ∃ q', q.Performs operation q' ∧ Refines s' q'

theorem refines_initial (buffer : Fin N → α) : Refines (initial buffer) .empty where
  pushed := rfl
  popped := rfl
  head := rfl
  tail := rfl
  stored := by
    intro k item h
    cases h
  producer := trivial
  consumer := trivial
  unread := by
    intro i h
    cases h

variable {s s' : State α N} {q : Fifo α (N - 1)}

theorem length_items_lt (q : Fifo α (N - 1)) : q.items.length < N := by
  have hbounded := q.bounded
  have hpos := Nat.pos_of_neZero N
  omega

/-- A queued value is not in the slot the head points to. -/
theorem slot_queued_ne_slot_head {k : ℕ} (hk : k < q.items.length) :
    slot N (q.popped.length + k) ≠ slot N q.pushed.length := by
  have hlt := length_items_lt q
  rw [q.length_pushed, ne_comm]
  intro h
  have heq := (slot_eq_iff (by omega) (by omega)).mp h
  omega

/-- The check of push fails exactly when the queue holds its bound. -/
theorem Refines.increment_head_eq_tail_iff (h : Refines s q) :
    increment s.head = s.tail ↔ q.items.length = N - 1 := by
  have hlt := length_items_lt q
  have hlength := q.length_pushed
  rw [h.head, h.tail, increment_slot_eq_iff (by omega) (by omega)]
  omega

/-- The check of pop fails exactly when the queue is empty. -/
theorem Refines.tail_eq_head_iff (h : Refines s q) : s.tail = s.head ↔ q.items = [] := by
  have hlt := length_items_lt q
  have hlength := q.length_pushed
  rw [h.head, h.tail, eq_comm, slot_eq_iff (by omega) (by omega), ← List.length_eq_zero_iff]
  omega

/-- The slot the producer is about to write holds nothing still to be read. -/
theorem Refines.unread_of_checked (h : Refines s q) {item : α} {head : Fin N}
    (hproducer : s.producer = .checked item head) : s.unread head = false := by
  have hknows := h.producer
  rw [hproducer] at hknows
  obtain ⟨rfl, _⟩ := hknows
  rw [← Bool.not_eq_true]
  intro hunread
  obtain ⟨k, _, hk, hslot⟩ | hwritten := h.unread _ hunread
  · exact slot_queued_ne_slot_head hk hslot.symm
  · rw [hproducer] at hwritten
    exact hwritten

/-- A push leaves the oldest value where it is. -/
theorem Consumer.Knows.push {consumer : Consumer α N} (h : consumer.Knows q) (item : α)
    (hroom : q.items.length < N - 1) : consumer.Knows (q.push item hroom) := by
  cases consumer with
  | idle result => trivial
  | loadedTail tail => exact h
  | checked tail =>
    refine ⟨h.1, ?_⟩
    exact List.append_ne_nil_of_left_ne_nil h.2 _
  | hasRead tail value =>
    refine ⟨h.1, ?_⟩
    change (q.items ++ [item]).head? = some value
    rw [List.head?_append, h.2, Option.some_or]

theorem Consumer.Knows.readCount_le {consumer : Consumer α N} (h : consumer.Knows q) :
    consumer.readCount ≤ q.items.length := by
  cases consumer with
  | hasRead tail item => exact List.length_pos_of_mem (List.mem_of_mem_head? h.2)
  | _ => exact Nat.zero_le _

/-- A pop leaves the head where it is and makes room. -/
theorem Producer.Knows.pop {producer : Producer α N} {buffer : Fin N → α}
    (h : producer.Knows buffer q) : producer.Knows buffer q.pop := by
  have hroom : q.items.length < N - 1 → q.pop.items.length < N - 1 := by
    intro hlt
    rw [Fifo.pop, List.length_tail]
    omega
  cases producer with
  | idle result => trivial
  | loadedHead item head => exact h.trans (by rw [q.pushed_pop])
  | checked item head => exact ⟨h.1.trans (by rw [q.pushed_pop]), hroom h.2⟩
  | written item head => exact ⟨h.1.trans (by rw [q.pushed_pop]), hroom h.2.1, h.2.2⟩

section Producer

theorem step_push (h : Refines s q) {item : α} (hs : step s (.push item) = some s') :
    Refines s' q := by
  simp only [step] at hs
  split at hs
  · rename_i result hproducer
    cases hs
    refine ⟨h.pushed, h.popped, h.head, h.tail, h.stored, h.head, h.consumer, ?_⟩
    intro i hi
    obtain hqueued | hwritten := h.unread i hi
    · exact Or.inl hqueued
    · rw [hproducer] at hwritten
      exact hwritten.elim
  · cases hs

theorem stepProducer_loadedHead (h : Refines s q) {item : α} {head : Fin N}
    (hproducer : s.producer = .loadedHead item head) (hs : stepProducer s = some s') :
    Simulates q (s.producer.operation s.tail) s' := by
  have hknows := h.producer
  have hunread := h.unread
  have hfull := h.increment_head_eq_tail_iff
  simp only [hproducer, Producer.Knows] at hknows
  simp only [State.Holds, hproducer, Producer.HasWritten, or_false] at hunread
  rw [h.head, ← hknows] at hfull
  simp only [stepProducer, hproducer] at hs
  simp only [hproducer, Producer.operation]
  split at hs
  · rename_i hincrement
    cases hs
    rw [if_pos hincrement]
    refine ⟨q, ⟨hfull.mp hincrement, rfl⟩, h.pushed, h.popped, h.head, h.tail, h.stored, trivial,
      h.consumer, fun i hi => Or.inl (hunread i hi)⟩
  · rename_i hincrement
    cases hs
    rw [if_neg hincrement]
    have hroom := Nat.lt_of_le_of_ne q.bounded (mt hfull.mpr hincrement)
    exact ⟨h.pushed, h.popped, h.head, h.tail, h.stored, ⟨hknows, hroom⟩, h.consumer,
      fun i hi => Or.inl (hunread i hi)⟩

theorem stepProducer_checked (h : Refines s q) {item : α} {head : Fin N}
    (hproducer : s.producer = .checked item head) (hs : stepProducer s = some s') :
    Simulates q (s.producer.operation s.tail) s' := by
  have hknows := h.producer
  have hunread := h.unread
  simp only [hproducer, Producer.Knows] at hknows
  simp only [State.Holds, hproducer, Producer.HasWritten, or_false] at hunread
  obtain ⟨rfl, hroom⟩ := hknows
  simp only [stepProducer, hproducer] at hs
  cases hs
  simp only [hproducer, Producer.operation]
  refine ⟨h.pushed, h.popped, h.head, h.tail, ?_, ⟨rfl, hroom, Function.update_self ..⟩,
    h.consumer, ?_⟩
  · intro k value hvalue
    have hk := (List.getElem?_eq_some_iff.mp hvalue).1
    change Function.update s.buffer _ item _ = value
    rw [Function.update_of_ne (slot_queued_ne_slot_head hk)]
    exact h.stored k value hvalue
  · intro i hi
    by_cases hslot : i = slot N q.pushed.length
    · exact Or.inr hslot
    · change Function.update s.unread _ true i = true at hi
      rw [Function.update_of_ne hslot] at hi
      exact Or.inl (hunread i hi)

theorem stepProducer_written (h : Refines s q) {item : α} {head : Fin N}
    (hproducer : s.producer = .written item head) (hs : stepProducer s = some s') :
    Simulates q (s.producer.operation s.tail) s' := by
  have hknows := h.producer
  have hunread := h.unread
  simp only [hproducer, Producer.Knows] at hknows
  simp only [State.Holds, hproducer, Producer.HasWritten] at hunread
  obtain ⟨rfl, hroom, hwritten⟩ := hknows
  simp only [stepProducer, hproducer] at hs
  cases hs
  simp only [hproducer, Producer.operation]
  have hhead : (q.push item hroom).pushed.length = q.pushed.length + 1 := by
    rw [q.pushed_push, List.length_append, List.length_singleton]
  refine ⟨q.push item hroom, ⟨hroom, rfl⟩, ?_, h.popped, ?_, h.tail, ?_, trivial, ?_, ?_⟩
  · rw [q.pushed_push, ← h.pushed]
  · rw [hhead, increment_slot]
  · intro k value hvalue
    rcases Fifo.getElem?_items_push.mp hvalue with hold | ⟨rfl, rfl⟩
    · exact h.stored k value hold
    · rw [← hwritten, q.length_pushed]
      rfl
  · exact h.consumer.push item hroom
  · intro i hi
    obtain ⟨k, hread, hk, hslot⟩ | hslot := hunread i hi
    · refine Or.inl ⟨k, hread, ?_, hslot⟩
      exact Nat.lt_of_lt_of_le hk (List.length_append ▸ Nat.le_add_right ..)
    · refine Or.inl ⟨q.items.length, h.consumer.readCount_le, ?_, ?_⟩
      · rw [Fifo.push, List.length_append]
        exact Nat.lt_add_one _
      · rw [hslot, q.length_pushed]
        rfl

end Producer

section Consumer

theorem step_pop (h : Refines s q) (hs : step s .pop = some s') : Refines s' q := by
  simp only [step] at hs
  split at hs
  · rename_i result hconsumer
    cases hs
    refine ⟨h.pushed, h.popped, h.head, h.tail, h.stored, h.producer, h.tail, ?_⟩
    intro i hi
    obtain ⟨k, _, hk, hslot⟩ | hwritten := h.unread i hi
    · exact Or.inl ⟨k, Nat.zero_le k, hk, hslot⟩
    · exact Or.inr hwritten
  · cases hs

theorem stepConsumer_loadedTail (h : Refines s q) {tail : Fin N}
    (hconsumer : s.consumer = .loadedTail tail) (hs : stepConsumer s = some s') :
    Simulates q (s.consumer.operation s.head) s' := by
  have hknows := h.consumer
  have hunread := h.unread
  have hempty := h.tail_eq_head_iff
  simp only [hconsumer, Consumer.Knows] at hknows
  simp only [State.Holds, hconsumer, Consumer.readCount] at hunread
  rw [h.tail, ← hknows] at hempty
  simp only [stepConsumer, hconsumer] at hs
  simp only [hconsumer, Consumer.operation]
  split at hs
  · rename_i htail
    cases hs
    rw [if_pos htail]
    exact ⟨q, ⟨hempty.mp htail, rfl⟩, h.pushed, h.popped, h.head, h.tail, h.stored, h.producer,
      trivial, hunread⟩
  · rename_i htail
    cases hs
    rw [if_neg htail]
    exact ⟨h.pushed, h.popped, h.head, h.tail, h.stored, h.producer,
      ⟨hknows, mt hempty.mpr htail⟩, hunread⟩

theorem stepConsumer_checked (h : Refines s q) {tail : Fin N}
    (hconsumer : s.consumer = .checked tail) (hs : stepConsumer s = some s') :
    Simulates q (s.consumer.operation s.head) s' := by
  have hknows := h.consumer
  have hunread := h.unread
  simp only [hconsumer, Consumer.Knows] at hknows
  simp only [State.Holds, hconsumer, Consumer.readCount] at hunread
  obtain ⟨rfl, hnonempty⟩ := hknows
  obtain ⟨item, items, hitems⟩ := List.exists_cons_of_ne_nil hnonempty
  have hstored : s.buffer (slot N q.popped.length) = item :=
    h.stored 0 item (by rw [hitems, List.getElem?_cons_zero])
  simp only [stepConsumer, hconsumer] at hs
  cases hs
  simp only [hconsumer, Consumer.operation]
  refine ⟨h.pushed, h.popped, h.head, h.tail, h.stored, h.producer, ⟨rfl, ?_⟩, ?_⟩
  · rw [hstored, hitems, List.head?_cons]
  · intro i hi
    change Function.update s.unread _ false i = true at hi
    by_cases hslot : i = slot N q.popped.length
    · rw [hslot, Function.update_self] at hi
      cases hi
    · rw [Function.update_of_ne hslot] at hi
      apply (hunread i hi).imp_left
      rintro ⟨k, _, hk, rfl⟩
      have hpos : 1 ≤ k := Nat.one_le_iff_ne_zero.mpr (by rintro rfl; exact hslot rfl)
      exact ⟨k, hpos, hk, rfl⟩

theorem stepConsumer_hasRead (h : Refines s q) {tail : Fin N} {item : α}
    (hconsumer : s.consumer = .hasRead tail item) (hs : stepConsumer s = some s') :
    Simulates q (s.consumer.operation s.head) s' := by
  have hknows := h.consumer
  have hunread := h.unread
  simp only [hconsumer, Consumer.Knows] at hknows
  simp only [State.Holds, hconsumer, Consumer.readCount] at hunread
  obtain ⟨rfl, hitem⟩ := hknows
  have hpopped := Fifo.popped_pop hitem
  have htail : q.pop.popped.length = q.popped.length + 1 := by
    rw [hpopped, List.length_append, List.length_singleton]
  simp only [stepConsumer, hconsumer] at hs
  cases hs
  simp only [hconsumer, Consumer.operation]
  refine ⟨q.pop, ⟨hitem, rfl⟩, ?_, ?_, ?_, ?_, ?_, h.producer.pop, trivial, ?_⟩
  · rw [q.pushed_pop, ← h.pushed]
  · rw [hpopped, ← h.popped]
  · rw [q.pushed_pop, ← h.head]
  · rw [htail, increment_slot]
  · intro k value hvalue
    rw [htail, Nat.add_assoc, Nat.add_comm 1 k]
    exact h.stored (k + 1) value (by rwa [Fifo.pop, List.getElem?_tail] at hvalue)
  · intro i hi
    apply (hunread i hi).imp_left
    rintro ⟨k, hread, hk, rfl⟩
    refine ⟨k - 1, Nat.zero_le _, ?_, ?_⟩
    · rw [Fifo.pop, List.length_tail]
      omega
    · rw [htail, Nat.add_assoc, Nat.add_sub_cancel' hread]

end Consumer

/-- Every step refines the bounded queue. -/
theorem step_simulates (h : Refines s q) {e : Event α} (hs : step s e = some s') :
    Simulates q (s.operation e) s' := by
  cases e with
  | push item => exact step_push h hs
  | pop => exact step_pop h hs
  | producer =>
    cases hproducer : s.producer with
    | idle result =>
      simp only [step, stepProducer, hproducer] at hs
      cases hs
    | loadedHead item head => exact stepProducer_loadedHead h hproducer hs
    | checked item head => exact stepProducer_checked h hproducer hs
    | written item head => exact stepProducer_written h hproducer hs
  | consumer =>
    cases hconsumer : s.consumer with
    | idle result =>
      simp only [step, stepConsumer, hconsumer] at hs
      cases hs
    | loadedTail tail => exact stepConsumer_loadedTail h hconsumer hs
    | checked tail => exact stepConsumer_checked h hconsumer hs
    | hasRead tail item => exact stepConsumer_hasRead h hconsumer hs

theorem always_refines (buffer : Fin N → α) (events : List (Event α)) :
    Always step (fun s => ∃ q, Refines s q) (initial buffer) events := by
  apply always_of_preserved ⟨_, refines_initial buffer⟩
  rintro s e s' ⟨q, hq⟩ hs
  have hsimulates := step_simulates hq hs
  unfold Simulates at hsimulates
  split at hsimulates
  · exact ⟨q, hsimulates⟩
  · obtain ⟨q', _, hq'⟩ := hsimulates
    exact ⟨q', hq'⟩

end Refinement

end RocketGame.RingQueue
