import Mathlib.Algebra.BigOperators.Group.List.Basic
import RocketGame.Words

/-!
Signed 64-bit arithmetic that stops at an overflow. A checked operation returns none
where the exact result does not fit, and otherwise the word that the wrapping operation
returns too. A sum of many words is checked at every step of the addition.
-/
namespace RocketGame.CheckedArithmetic

open Words

instance (x : ℤ) : Decidable (Fits64 x) := inferInstanceAs (Decidable (_ ∧ _))

def checked (x : ℤ) : Option Int64 := if Fits64 x then some (Int64.ofInt x) else none

def checkedAdd (a b : Int64) : Option Int64 := checked (a.toInt + b.toInt)

def checkedSub (a b : Int64) : Option Int64 := checked (a.toInt - b.toInt)

def checkedSum (values : List Int64) : Option Int64 := values.foldlM checkedAdd 0

def SumsFit (values : List ℤ) : Prop := ∀ l, l <+: values → Fits64 l.sum

theorem fits64_toInt (w : Int64) : Fits64 w.toInt := ⟨w.le_toInt, w.toInt_lt⟩

variable {a b w : Int64} {x : ℤ}

theorem checked_eq_some_iff : checked x = some w ↔ w.toInt = x := by
  rw [checked]
  split
  · rename_i hfits
    have hexact : (Int64.ofInt x).toInt = x := Int64.toInt_ofInt_of_le hfits.1 hfits.2
    rw [Option.some.injEq, ← Int64.toInt_inj, hexact, eq_comm]
  · rename_i hfits
    refine iff_of_false nofun ?_
    rintro rfl
    exact hfits (fits64_toInt w)

theorem isSome_checked_iff : (checked x).isSome = true ↔ Fits64 x := by
  rw [checked]
  split
  · exact iff_of_true rfl ‹Fits64 x›
  · exact iff_of_false Bool.false_ne_true ‹¬ Fits64 x›

theorem checkedAdd_eq_some_iff : checkedAdd a b = some w ↔ w.toInt = a.toInt + b.toInt :=
  checked_eq_some_iff

theorem checkedSub_eq_some_iff : checkedSub a b = some w ↔ w.toInt = a.toInt - b.toInt :=
  checked_eq_some_iff

theorem eq_add_of_checkedAdd (h : checkedAdd a b = some w) : w = a + b := by
  have hexact := checkedAdd_eq_some_iff.mp h
  rw [← Int64.toInt_inj, toInt_add_of_fits (hexact ▸ fits64_toInt w), hexact]

theorem eq_sub_of_checkedSub (h : checkedSub a b = some w) : w = a - b := by
  have hexact := checkedSub_eq_some_iff.mp h
  rw [← Int64.toInt_inj, toInt_sub_of_fits (hexact ▸ fits64_toInt w), hexact]

theorem checkedAdd_of_fits (h : Fits64 (a.toInt + b.toInt)) : checkedAdd a b = some (a + b) :=
  checkedAdd_eq_some_iff.mpr (toInt_add_of_fits h)

theorem checkedSub_of_fits (h : Fits64 (a.toInt - b.toInt)) : checkedSub a b = some (a - b) :=
  checkedSub_eq_some_iff.mpr (toInt_sub_of_fits h)

/-- The checked addition of further values to a word. -/
theorem eq_foldl_of_checked {values : List Int64} (h : values.foldlM checkedAdd a = some w) :
    w = values.foldl (· + ·) a := by
  induction values generalizing a with
  | nil => exact (Option.some.inj h).symm
  | cons b values ih =>
    obtain ⟨c, hc, hrest⟩ := Option.bind_eq_some_iff.mp h
    obtain rfl := eq_add_of_checkedAdd hc
    exact ih hrest

theorem isSome_foldlM_checkedAdd_iff {values : List Int64} :
    (values.foldlM checkedAdd a).isSome = true ↔
      ∀ l, l <+: values.map Int64.toInt → Fits64 (a.toInt + l.sum) := by
  induction values generalizing a with
  | nil =>
    refine iff_of_true rfl fun l hl => ?_
    obtain rfl := List.prefix_nil.mp hl
    rw [List.sum_nil, add_zero]
    exact fits64_toInt a
  | cons b values ih =>
    rw [List.foldlM_cons, List.map_cons]
    cases hsum : checkedAdd a b with
    | none =>
      refine iff_of_false Bool.false_ne_true fun h => ?_
      have hfits : Fits64 (a.toInt + [b.toInt].sum) := h [b.toInt] ⟨_, rfl⟩
      rw [List.sum_singleton, ← isSome_checked_iff] at hfits
      rw [checkedAdd] at hsum
      rw [hsum] at hfits
      cases hfits
    | some c =>
      have hexact := checkedAdd_eq_some_iff.mp hsum
      rw [Option.bind_eq_bind, Option.bind_some, ih]
      constructor
      · intro h l hl
        rcases List.prefix_cons_iff.mp hl with rfl | ⟨t, rfl, ht⟩
        · rw [List.sum_nil, add_zero]
          exact fits64_toInt a
        · rw [List.sum_cons, ← add_assoc, ← hexact]
          exact h t ht
      · intro h t ht
        have hfits := h (b.toInt :: t) (List.prefix_cons_iff.mpr (Or.inr ⟨t, rfl, ht⟩))
        rwa [List.sum_cons, ← add_assoc, ← hexact] at hfits

theorem eq_foldl_of_checkedSum {values : List Int64} (h : checkedSum values = some w) :
    w = values.foldl (fun sum value => sum + value) 0 :=
  eq_foldl_of_checked h

theorem isSome_checkedSum_iff {values : List Int64} :
    (checkedSum values).isSome = true ↔ SumsFit (values.map Int64.toInt) := by
  rw [checkedSum, isSome_foldlM_checkedAdd_iff]
  exact forall₂_congr fun l _ => by rw [Int64.toInt_zero, zero_add]

/-- A computation over a list returns when it returns for every element. -/
theorem mapM_eq_some_iff {α β : Type*} {f : α → Option β} {l : List α} {ws : List β} :
    l.mapM f = some ws ↔ l.map f = ws.map some := by
  induction l generalizing ws with
  | nil =>
    rw [List.mapM_nil, Option.pure_def, Option.some.injEq, List.map_nil, List.nil_eq,
      List.nil_eq, List.map_eq_nil_iff]
  | cons a l ih =>
    rw [List.mapM_cons]
    constructor
    · intro h
      obtain ⟨b, hb, h⟩ := Option.bind_eq_some_iff.mp h
      obtain ⟨bs, hbs, h⟩ := Option.bind_eq_some_iff.mp h
      obtain rfl := Option.some.inj h
      rw [List.map_cons, List.map_cons, hb, ih.mp hbs]
    · intro h
      cases ws with
      | nil => cases h
      | cons b bs =>
        obtain ⟨hb, hbs⟩ := List.cons.inj h
        rw [hb, ih.mpr hbs]
        rfl

end RocketGame.CheckedArithmetic
