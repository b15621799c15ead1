import Mathlib.Data.List.Basic

/-!
The first element of a list that satisfies a test, with the elements before
and after it. This is what a loop with an early return sees: the record it
stops at, and a place to write the changed record back to.
-/
namespace RocketGame.FirstMatch

variable {α : Type*}

def locate (p : α → Bool) : List α → Option (List α × α × List α)
  | [] => none
  | x :: xs =>
      if p x then some ([], x, xs)
      else (locate p xs).map fun (before, y, after) => (x :: before, y, after)

theorem locate_eq_some {p : α → Bool} {l before after : List α} {x : α} :
    locate p l = some (before, x, after) ↔
      l = before ++ x :: after ∧ p x = true ∧ ∀ y ∈ before, p y = false := by
  induction l generalizing before with
  | nil => simp [locate]
  | cons y ys ih =>
    by_cases hy : p y = true
    · simp only [locate, hy, if_true, Option.some.injEq, Prod.mk.injEq]
      constructor
      · rintro ⟨rfl, rfl, rfl⟩
        exact ⟨rfl, hy, by simp⟩
      · rintro ⟨heq, _, hbefore⟩
        cases before with
        | nil =>
          obtain ⟨rfl, rfl⟩ := List.cons.inj heq
          exact ⟨rfl, rfl, rfl⟩
        | cons z zs =>
          obtain ⟨rfl, _⟩ := List.cons.inj heq
          have := hbefore y (List.mem_cons_self ..)
          simp [hy] at this
    · have hy' : p y = false := by simpa using hy
      simp only [locate, hy', Bool.false_eq_true, if_false, Option.map_eq_some_iff, Prod.exists,
        Prod.mk.injEq]
      constructor
      · rintro ⟨b, z, a, hloc, rfl, rfl, rfl⟩
        obtain ⟨rfl, hz, hb⟩ := ih.mp hloc
        refine ⟨rfl, hz, ?_⟩
        intro w hw
        rcases List.mem_cons.mp hw with rfl | hw
        · exact hy'
        · exact hb w hw
      · rintro ⟨heq, hx, hbefore⟩
        cases before with
        | nil =>
          obtain ⟨rfl, _⟩ := List.cons.inj heq
          exact absurd hx hy
        | cons z zs =>
          obtain ⟨rfl, rfl⟩ := List.cons.inj heq
          refine ⟨zs, x, after, ih.mpr ⟨rfl, hx, fun w hw => ?_⟩, rfl, rfl, rfl⟩
          exact hbefore w (List.mem_cons_of_mem _ hw)

theorem locate_eq_none {p : α → Bool} {l : List α} :
    locate p l = none ↔ ∀ x ∈ l, p x = false := by
  induction l with
  | nil => simp [locate]
  | cons y ys ih =>
    by_cases hy : p y = true
    · simp [locate, hy]
    · simp [locate, hy, ih]

/-- The located element is the one find? returns. -/
theorem find?_eq_map_locate (p : α → Bool) (l : List α) :
    l.find? p = (locate p l).map fun found => found.2.1 := by
  induction l with
  | nil => rfl
  | cons y ys ih =>
    by_cases hy : p y = true
    · simp [locate, hy]
    · simp [locate, hy, ih, Function.comp_def]

theorem find?_of_locate {p : α → Bool} {l before after : List α} {x : α}
    (h : locate p l = some (before, x, after)) : l.find? p = some x := by
  rw [find?_eq_map_locate, h]
  rfl

theorem locate_of_find? {p : α → Bool} {l : List α} {x : α} (h : l.find? p = some x) :
    ∃ before after, locate p l = some (before, x, after) := by
  rw [find?_eq_map_locate, Option.map_eq_some_iff] at h
  obtain ⟨⟨before, y, after⟩, hloc, rfl⟩ := h
  exact ⟨before, after, hloc⟩

theorem mem_of_locate {p : α → Bool} {l before after : List α} {x : α}
    (h : locate p l = some (before, x, after)) : x ∈ l := by
  rw [(locate_eq_some.mp h).1]
  exact List.mem_append_right _ List.mem_cons_self

/-- A map that the test does not see moves the located element and both sides along. -/
theorem locate_map {β : Type*} (p : β → Bool) (f : α → β) (l : List α) :
    locate p (l.map f) = (locate (fun x => p (f x)) l).map fun found =>
      (found.1.map f, f found.2.1, found.2.2.map f) := by
  induction l with
  | nil => rfl
  | cons y ys ih =>
    rw [List.map_cons, locate, locate, ih]
    by_cases hy : p (f y) = true
    · simp only [hy, if_true, Option.map_some, List.map_nil]
    · simp only [hy, Bool.false_eq_true, if_false, Option.map_map]
      rfl

/-- Elements that fail the test can be left out of the search. -/
theorem locate_filter {p q : α → Bool} (hpq : ∀ x, p x = true → q x = true) (l : List α) :
    locate p (l.filter q) = (locate p l).map fun found =>
      (found.1.filter q, found.2.1, found.2.2.filter q) := by
  induction l with
  | nil => rfl
  | cons y ys ih =>
    by_cases hp : p y = true
    · rw [List.filter_cons_of_pos (hpq y hp), locate, locate, if_pos hp, if_pos hp]
      rfl
    · rw [locate, if_neg hp, Option.map_map]
      by_cases hq : q y = true
      · rw [List.filter_cons_of_pos hq, locate, if_neg hp, ih, Option.map_map]
        refine congrArg (Option.map · _) (funext fun found => ?_)
        simp only [Function.comp_def, List.filter_cons_of_pos hq]
      · rw [List.filter_cons_of_neg hq, ih]
        refine congrArg (Option.map · _) (funext fun found => ?_)
        simp only [Function.comp_def, List.filter_cons_of_neg hq]

/-- What holds of every element survives the change of one, if the change keeps it. -/
theorem forall_mem_replace {P : α → Prop} {before after : List α} {x x' : α}
    (h : ∀ y ∈ before ++ x :: after, P y) (hx : P x → P x') :
    ∀ y ∈ before ++ x' :: after, P y := by
  intro y hy
  rcases List.mem_append.mp hy with hbefore | hrest
  · exact h y (List.mem_append_left _ hbefore)
  · rcases List.mem_cons.mp hrest with rfl | hafter
    · exact hx (h x (List.mem_append_right _ List.mem_cons_self))
    · exact h y (List.mem_append_right _ (List.mem_cons_of_mem _ hafter))

theorem forall_mem_erase {P : α → Prop} {before after : List α} {x : α}
    (h : ∀ y ∈ before ++ x :: after, P y) : ∀ y ∈ before ++ after, P y :=
  fun y hy => h y (((List.sublist_cons_self x after).append_left before).subset hy)

/-- The change of one element is seen at its place only. -/
theorem eq_length_of_replace {before after : List α} {x x' : α} {i : ℕ}
    (h : (before ++ x' :: after)[i]? ≠ (before ++ x :: after)[i]?) : i = before.length := by
  by_contra hne
  apply h
  by_cases hlt : i < before.length
  · rw [List.getElem?_append_left hlt, List.getElem?_append_left hlt]
  · obtain ⟨k, hk⟩ : ∃ k, i - before.length = k + 1 := ⟨i - before.length - 1, by omega⟩
    have hle : before.length ≤ i := Nat.le_of_not_lt hlt
    rw [List.getElem?_append_right hle, List.getElem?_append_right hle, hk,
      List.getElem?_cons_succ, List.getElem?_cons_succ]

/-- Writing a matching element back at the located place keeps the place. -/
theorem locate_replace {p : α → Bool} {l before after : List α} {x x' : α}
    (h : locate p l = some (before, x, after)) (hx' : p x' = true) :
    locate p (before ++ x' :: after) = some (before, x', after) := by
  obtain ⟨_, _, hbefore⟩ := locate_eq_some.mp h
  exact locate_eq_some.mpr ⟨rfl, hx', hbefore⟩

end RocketGame.FirstMatch
