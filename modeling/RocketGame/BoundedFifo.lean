import Mathlib.Data.List.Infix

/-!
A bounded first-in first-out queue together with its history. The values pushed
are the ones popped and then the ones still queued, so what was popped is a
prefix of what was pushed, and no queue holds more than its bound.
-/
namespace RocketGame.BoundedFifo

structure Fifo (α : Type*) (bound : ℕ) where
  popped : List α
  items : List α
  bounded : items.length ≤ bound

inductive Operation (α : Type*)
  | push (item : α) (stored : Bool)
  | pop (result : Option α)

namespace Fifo

variable {α : Type*} {bound : ℕ}

def empty : Fifo α bound := ⟨[], [], Nat.zero_le _⟩

def pushed (q : Fifo α bound) : List α := q.popped ++ q.items

def push (q : Fifo α bound) (item : α) (hroom : q.items.length < bound) : Fifo α bound where
  popped := q.popped
  items := q.items ++ [item]
  bounded := by
    rw [List.length_append, List.length_singleton]
    exact hroom

def pop (q : Fifo α bound) : Fifo α bound where
  popped := q.popped ++ q.items.head?.toList
  items := q.items.tail
  bounded := by
    have hbounded := q.bounded
    rw [List.length_tail]
    omega

/-- What a call does to the queue. A push is refused when the queue holds its
bound, and nothing is popped when it is empty. -/
def Performs (q : Fifo α bound) : Operation α → Fifo α bound → Prop
  | .push item true, q' => ∃ hroom, q' = q.push item hroom
  | .push _ false, q' => q.items.length = bound ∧ q' = q
  | .pop (some item), q' => q.items.head? = some item ∧ q' = q.pop
  | .pop none, q' => q.items = [] ∧ q' = q

theorem popped_prefix_pushed (q : Fifo α bound) : q.popped <+: q.pushed :=
  List.prefix_append ..

theorem length_pushed (q : Fifo α bound) :
    q.pushed.length = q.popped.length + q.items.length :=
  List.length_append

theorem pushed_push (q : Fifo α bound) (item : α) (hroom : q.items.length < bound) :
    (q.push item hroom).pushed = q.pushed ++ [item] :=
  (List.append_assoc ..).symm

/-- The item pushed comes after all those queued. -/
theorem getElem?_items_push {q : Fifo α bound} {item value : α} {hroom : q.items.length < bound}
    {k : ℕ} : (q.push item hroom).items[k]? = some value ↔
      q.items[k]? = some value ∨ k = q.items.length ∧ value = item := by
  rw [push, List.getElem?_append]
  split
  · rename_i hk
    exact ⟨Or.inl, fun h => h.resolve_right fun hlast => Nat.ne_of_lt hk hlast.1⟩
  · rename_i hk
    rw [List.getElem?_eq_none (Nat.le_of_not_lt hk), List.getElem?_singleton]
    split
    · rename_i hzero
      have hlast : k = q.items.length := by omega
      simp only [Option.some.injEq, reduceCtorEq, hlast, true_and, false_or, eq_comm]
    · rename_i hzero
      have hlast : k ≠ q.items.length := by omega
      simp only [reduceCtorEq, hlast, false_and, or_false]

theorem pushed_pop (q : Fifo α bound) : q.pop.pushed = q.pushed := by
  have hsplit : q.items.head?.toList ++ q.items.tail = q.items := by cases q.items <;> rfl
  calc
    _ = q.popped ++ (q.items.head?.toList ++ q.items.tail) := List.append_assoc ..
    _ = _ := by rw [hsplit, pushed]

theorem popped_pop {q : Fifo α bound} {item : α} (h : q.items.head? = some item) :
    q.pop.popped = q.popped ++ [item] := by
  rw [pop, h, Option.toList_some]

/-- The oldest item is the next one of those pushed. -/
theorem pushed_getElem?_length_popped (q : Fifo α bound) :
    q.pushed[q.popped.length]? = q.items.head? := by
  rw [pushed, List.getElem?_append_right (Nat.le_refl _), Nat.sub_self, List.head?_eq_getElem?]

end Fifo

end RocketGame.BoundedFifo
