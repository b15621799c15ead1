import Mathlib.Data.List.Nodup

/-!
Lists to which values are added at the end, each only if it is not there yet.
What was there stays in front, and what is added comes in the order given.
-/
namespace RocketGame.Additions

variable {α : Type*} [DecidableEq α]

def add (l : List α) (x : α) : List α := if x ∈ l then l else l ++ [x]

def addAll (l xs : List α) : List α := xs.foldl add l

theorem mem_add {l : List α} {x y : α} : y ∈ add l x ↔ y ∈ l ∨ y = x := by
  unfold add
  split
  · rename_i hx
    refine (or_iff_left_of_imp fun heq => ?_).symm
    rwa [heq]
  · rw [List.mem_append, List.mem_singleton]

theorem prefix_add (l : List α) (x : α) : l <+: add l x := by
  unfold add
  split
  · exact List.prefix_refl l
  · exact List.prefix_append l [x]

theorem nodup_add {l : List α} (h : l.Nodup) (x : α) : (add l x).Nodup := by
  unfold add
  split
  · exact h
  · rename_i hx
    rw [← List.concat_eq_append]
    exact h.concat hx

theorem addAll_cons (l : List α) (x : α) (xs : List α) :
    addAll l (x :: xs) = addAll (add l x) xs := rfl

theorem mem_addAll {l xs : List α} {y : α} : y ∈ addAll l xs ↔ y ∈ l ∨ y ∈ xs := by
  induction xs generalizing l with
  | nil => simp [addAll]
  | cons x xs ih => rw [addAll_cons, ih, mem_add, List.mem_cons, or_assoc]

theorem prefix_addAll (l xs : List α) : l <+: addAll l xs := by
  induction xs generalizing l with
  | nil => exact List.prefix_refl l
  | cons x xs ih => exact (prefix_add l x).trans (ih (add l x))

theorem nodup_addAll {l : List α} (h : l.Nodup) (xs : List α) : (addAll l xs).Nodup := by
  induction xs generalizing l with
  | nil => exact h
  | cons x xs ih => exact ih (nodup_add h x)

/-- Values that are all there change nothing. -/
theorem addAll_of_subset {l xs : List α} (h : xs ⊆ l) : addAll l xs = l := by
  induction xs with
  | nil => rfl
  | cons x xs ih =>
    have hx : add l x = l := if_pos (h List.mem_cons_self)
    rw [addAll_cons, hx, ih fun y hy => h (List.mem_cons_of_mem x hy)]

/-- Different values: the absent ones are appended. -/
theorem addAll_eq_append {l xs : List α} (h : xs.Nodup) :
    addAll l xs = l ++ xs.filter (· ∉ l) := by
  induction xs generalizing l with
  | nil => simp [addAll]
  | cons x xs ih =>
    obtain ⟨hx, hxs⟩ := List.nodup_cons.mp h
    rw [addAll_cons, ih hxs]
    by_cases hmem : x ∈ l
    · rw [add, if_pos hmem, List.filter_cons_of_neg (by simpa using hmem)]
    · have hfilter : xs.filter (· ∉ l ++ [x]) = xs.filter (· ∉ l) := by
        apply List.filter_congr
        intro y hy
        have hne : y ≠ x := fun heq => hx (heq ▸ hy)
        simp [hne]
      rw [add, if_neg hmem, hfilter, List.filter_cons_of_pos (by simpa using hmem),
        List.append_assoc, List.singleton_append]

end RocketGame.Additions
