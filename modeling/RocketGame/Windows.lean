import Mathlib.Data.List.DropRight
import Mathlib.Data.List.Lemmas

/-!
Lists of increasing numbers that go up to a newest one. Entries may be dropped
from such a list, the newest number may move on, and a number above the newest
may be appended. In any list of numbers the exposed ones are those below
everything after them: what a scan from the end meets as it looks for less and less.
-/
namespace RocketGame.Windows

open Std

section Order

variable {α : Type*} [LT α] [LE α]

structure Window (numbers : List α) (newest : α) : Prop where
  increasing : numbers.Pairwise (· < ·)
  le_newest : ∀ n ∈ numbers, n ≤ newest

variable {numbers numbers' : List α} {newest next : α}

theorem Window.nil (newest : α) : Window [] newest := ⟨List.Pairwise.nil, by simp⟩

theorem Window.sublist (h : Window numbers newest) (hsub : numbers'.Sublist numbers) :
    Window numbers' newest :=
  ⟨h.increasing.sublist hsub, fun n hn => h.le_newest n (hsub.subset hn)⟩

theorem Window.mono [IsPreorder α] (h : Window numbers newest) (hle : newest ≤ next) :
    Window numbers next :=
  ⟨h.increasing, fun n hn => le_trans (h.le_newest n hn) hle⟩

theorem Window.append [IsPreorder α] [LawfulOrderLT α] (h : Window numbers newest)
    (hlt : newest < next) : Window (numbers ++ [next]) next := by
  constructor
  · rw [List.pairwise_append]
    refine ⟨h.increasing, List.pairwise_singleton .., fun n hn n' hn' => ?_⟩
    obtain rfl := List.mem_singleton.mp hn'
    exact lt_of_le_of_lt (h.le_newest n hn) hlt
  · intro n hn
    rcases List.mem_append.mp hn with hold | hnew
    · exact le_of_lt (lt_of_le_of_lt (h.le_newest n hold) hlt)
    · obtain rfl := List.mem_singleton.mp hnew
      exact le_refl n

end Order

section Exposed

variable {α : Type*} [LT α]

def Exposed (x : α) : List α → Prop
  | [] => False
  | y :: rest => Exposed x rest ∨ y = x ∧ ∀ z ∈ rest, x < z

variable {l r : List α} {x : α}

theorem Exposed.mem (h : Exposed x l) : x ∈ l := by
  induction l with
  | nil => exact h.elim
  | cons y rest ih =>
    rcases h with hrest | ⟨rfl, -⟩
    · exact List.mem_cons_of_mem y (ih hrest)
    · exact List.mem_cons_self

theorem exposed_append : Exposed x (l ++ r) ↔ Exposed x r ∨ Exposed x l ∧ ∀ z ∈ r, x < z := by
  induction l with
  | nil => simp [Exposed]
  | cons y rest ih =>
    simp only [List.cons_append, Exposed, ih, List.forall_mem_append]
    grind

/-- In an increasing list every number is exposed. -/
theorem exposed_of_increasing (hl : l.Pairwise (· < ·)) (hx : x ∈ l) : Exposed x l := by
  induction l with
  | nil => cases hx
  | cons y rest ih =>
    obtain ⟨hy, hrest⟩ := List.pairwise_cons.mp hl
    rcases List.mem_cons.mp hx with rfl | hmem
    · exact Or.inr ⟨rfl, hy⟩
    · exact Or.inl (ih hrest hmem)

/-- In a decreasing list only the least number is exposed. -/
theorem exposed_iff_of_decreasing [LE α] [IsPreorder α] [LawfulOrderLT α]
    (hl : l.Pairwise (fun y z => z < y)) : Exposed x l ↔ x ∈ l ∧ ∀ y ∈ l, x ≤ y := by
  induction l with
  | nil => simp [Exposed]
  | cons y rest ih =>
    obtain ⟨hy, hrest⟩ := List.pairwise_cons.mp hl
    rw [Exposed, ih hrest, List.mem_cons, List.forall_mem_cons]
    constructor
    · rintro (⟨hmem, hle⟩ | ⟨rfl, hlt⟩)
      · exact ⟨Or.inr hmem, le_of_lt (hy x hmem), hle⟩
      · exact ⟨Or.inl rfl, le_refl _, fun z hz => le_of_lt (hlt z hz)⟩
    · rintro ⟨rfl | hmem, -, hle⟩
      · refine Or.inr ⟨rfl, fun z hz => ?_⟩
        exact (not_le_of_gt (hy z hz) (hle z hz)).elim
      · exact Or.inl ⟨hmem, hle⟩

theorem exposed_iff_getElem? :
    Exposed x l ↔ ∃ i : ℕ, l[i]? = some x ∧ ∀ j z, i < j → l[j]? = some z → x < z := by
  induction l with
  | nil => simp [Exposed]
  | cons y rest ih =>
    rw [Exposed, ih]
    constructor
    · rintro (⟨i, hi, hafter⟩ | ⟨rfl, hafter⟩)
      · refine ⟨i + 1, hi, fun j z hj hz => ?_⟩
        cases j with
        | zero => omega
        | succ j => exact hafter j z (by omega) hz
      · refine ⟨0, rfl, fun j z hj hz => ?_⟩
        cases j with
        | zero => omega
        | succ j => exact hafter z (List.mem_of_getElem? hz)
    · rintro ⟨i, hi, hafter⟩
      cases i with
      | zero =>
        refine Or.inr ⟨Option.some.inj hi, fun z hz => ?_⟩
        obtain ⟨j, hj⟩ := List.mem_iff_getElem?.mp hz
        exact hafter (j + 1) z (by omega) hj
      | succ i => exact Or.inl ⟨i, hi, fun j z hj hz => hafter (j + 1) z (by omega) hz⟩

end Exposed

section Last

variable {α : Type*} {numbers : List α} {newest : α}

def EndsIn (numbers : List α) (newest : α) : Prop := ∀ n ∈ numbers.getLast?, n = newest

theorem endsIn_nil (newest : α) : EndsIn [] newest := fun _ hn => nomatch hn

theorem endsIn_append (numbers : List α) (next : α) : EndsIn (numbers ++ [next]) next := by
  intro n hn
  rw [List.getLast?_append, List.getLast?_singleton, Option.some_or] at hn
  exact (Option.some.inj hn).symm

/-- Dropping from the front keeps the last entry, as long as one is left. -/
theorem EndsIn.drop (h : EndsIn numbers newest) (k : ℕ) : EndsIn (numbers.drop k) newest := by
  intro n hn
  rw [List.getLast?_drop] at hn
  split at hn
  · cases hn
  · exact h n hn

/-- Increasing numbers go up to the last of them. -/
theorem window_of_endsIn [LT α] [LE α] [IsPreorder α] [LawfulOrderLT α]
    (hincreasing : numbers.Pairwise (· < ·)) (h : EndsIn numbers newest) :
    Window numbers newest := by
  refine ⟨hincreasing, fun n hn => ?_⟩
  obtain ⟨i, hi, rfl⟩ := List.mem_iff_getElem.mp hn
  have hpos : numbers.length - 1 < numbers.length := by omega
  have hlast : numbers.getLast? = some numbers[numbers.length - 1] := by
    rw [List.getLast?_eq_getElem?, List.getElem?_eq_getElem hpos]
  have heq := h _ hlast
  by_cases hi' : i = numbers.length - 1
  · subst hi'
    rw [heq]
    exact le_refl newest
  · have hlt := List.pairwise_iff_getElem.mp hincreasing i _ hi hpos (by omega)
    rw [heq] at hlt
    exact le_of_lt hlt

/-- A list and its last entries end alike. -/
theorem endsIn_rtake_iff {k : ℕ} (hk : 0 < k) :
    EndsIn (numbers.rtake k) newest ↔ EndsIn numbers newest := by
  have hlast : (numbers.rtake k).getLast? = numbers.getLast? := by
    rw [List.rtake, List.getLast?_drop]
    split
    · rename_i hle
      obtain rfl : numbers = [] := List.eq_nil_of_length_eq_zero (by omega)
      rfl
    · rfl
  rw [EndsIn, EndsIn, hlast]

/-- Entries dropped from the front before others are appended would be dropped after. -/
theorem rtake_rtake_append (l m : List α) (k : ℕ) :
    (l.rtake k ++ m).rtake k = (l ++ m).rtake k := by
  by_cases hle : l.length ≤ k
  · have hall : l.rtake k = l := by
      rw [List.rtake, Nat.sub_eq_zero_of_le hle, List.drop_zero]
    rw [hall]
  · have hdrop : (l ++ m).drop (l.length - k) = l.rtake k ++ m := by
      rw [List.drop_append_of_le_length (by omega), List.rtake]
    rw [← hdrop, List.rtake, List.rtake, List.drop_drop]
    congr 1
    rw [List.length_drop, List.length_append]
    omega

end Last

theorem pairwise_toNat {l : List UInt64} (hl : l.Pairwise (· < ·)) :
    (l.map UInt64.toNat).Pairwise (· < ·) :=
  List.pairwise_map.mpr (hl.imp fun h => UInt64.lt_iff_toNat_lt.mp h)

/-- Increasing natural numbers grow at least as fast as their places. -/
theorem add_le_of_increasing {l : List ℕ} (hl : l.Pairwise (· < ·)) {i k a b : ℕ}
    (ha : l[i]? = some a) (hb : l[i + k]? = some b) : a + k ≤ b := by
  induction k generalizing b with
  | zero => exact Nat.le_of_eq (Option.some.inj (ha.symm.trans hb))
  | succ k ih =>
    obtain ⟨hi, rfl⟩ := List.getElem?_eq_some_iff.mp hb
    have hbefore : i + k < l.length := by omega
    have hlt := List.pairwise_iff_getElem.mp hl (i + k) (i + (k + 1)) hbefore hi (by omega)
    have hle := ih (List.getElem?_eq_getElem hbefore)
    omega

/-- Increasing numbers from a range are at most as many as the range has. -/
theorem length_le_of_increasing {l : List ℕ} (hl : l.Pairwise (· < ·)) {m k : ℕ}
    (hlow : ∀ n ∈ l, m ≤ n) (hhigh : ∀ n ∈ l, n < m + k) : l.length ≤ k := by
  by_cases hempty : l.length = 0
  · omega
  · have hfirst : l[0]? = some (l.get ⟨0, by omega⟩) := List.getElem?_eq_getElem (by omega)
    have hlast : l[0 + (l.length - 1)]? = some (l.get ⟨0 + (l.length - 1), by omega⟩) :=
      List.getElem?_eq_getElem (by omega)
    have hspan := add_le_of_increasing hl hfirst hlast
    have hlow := hlow _ (List.mem_of_getElem? hfirst)
    have hhigh := hhigh _ (List.mem_of_getElem? hlast)
    omega

end RocketGame.Windows
