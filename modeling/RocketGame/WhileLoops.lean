import Mathlib.Logic.Function.Iterate
import Mathlib.Order.Basic

/-!
A while loop with a bound on its rounds. What it returns does not depend on the bound;
the loop ends when some bound is enough. One rule carries an invariant to the result, one
shows by a decreasing bound that the loop ends, and one shows that it never does.
-/
namespace RocketGame.WhileLoops

variable {α : Type*}

/-- None when the rounds are used up before the condition fails. -/
def runWhile (cond : α → Bool) (body : α → α) : ℕ → α → Option α
  | 0, x => if cond x then none else some x
  | n + 1, x => if cond x then runWhile cond body n (body x) else some x

def Ends (cond : α → Bool) (body : α → α) (x : α) : Prop :=
  ∃ n y, runWhile cond body n x = some y

variable {cond : α → Bool} {body : α → α} {x y : α} {n m : ℕ}

theorem runWhile_of_not (h : cond x = false) (n : ℕ) : runWhile cond body n x = some x := by
  cases n with
  | zero => exact if_neg (by rw [h]; exact Bool.false_ne_true)
  | succ n => exact if_neg (by rw [h]; exact Bool.false_ne_true)

theorem runWhile_succ (h : cond x = true) (n : ℕ) :
    runWhile cond body (n + 1) x = runWhile cond body n (body x) := if_pos h

theorem runWhile_zero (h : cond x = true) : runWhile cond body 0 x = none := if_pos h

theorem runWhile_mono (h : runWhile cond body n x = some y) (hle : n ≤ m) :
    runWhile cond body m x = some y := by
  induction m generalizing n x with
  | zero =>
    obtain rfl : n = 0 := Nat.le_zero.mp hle
    exact h
  | succ m ih =>
    cases hcond : cond x with
    | true =>
      cases n with
      | zero =>
        rw [runWhile_zero hcond] at h
        cases h
      | succ n =>
        rw [runWhile_succ hcond] at h ⊢
        exact ih h (Nat.le_of_succ_le_succ hle)
    | false => rwa [runWhile_of_not hcond] at h ⊢

/-- Invariant rule. -/
theorem runWhile_invariant {I : α → Prop} (hI : I x)
    (hstep : ∀ x, I x → cond x = true → I (body x)) (h : runWhile cond body n x = some y) :
    I y ∧ cond y = false := by
  induction n generalizing x with
  | zero =>
    cases hcond : cond x with
    | true =>
      rw [runWhile_zero hcond] at h
      cases h
    | false =>
      rw [runWhile_of_not hcond] at h
      obtain rfl := Option.some.inj h
      exact ⟨hI, hcond⟩
  | succ n ih =>
    cases hcond : cond x with
    | true =>
      rw [runWhile_succ hcond] at h
      exact ih (hstep x hI hcond) h
    | false =>
      rw [runWhile_of_not hcond] at h
      obtain rfl := Option.some.inj h
      exact ⟨hI, hcond⟩

/-- Termination rule. The index of the invariant bounds the rounds that are left. -/
theorem exists_runWhile {I : ℕ → α → Prop} (hI : I n x)
    (hstep : ∀ n x, I n x → cond x = true → ∃ m < n, I m (body x)) :
    ∃ y, runWhile cond body n x = some y := by
  induction n using Nat.strongRecOn generalizing x with
  | ind n ih =>
    cases hcond : cond x with
    | true =>
      obtain ⟨m, hlt, hm⟩ := hstep n x hI hcond
      obtain ⟨y, hy⟩ := ih m hlt hm
      obtain ⟨k, rfl⟩ := Nat.exists_eq_add_of_lt hlt
      refine ⟨y, ?_⟩
      rw [runWhile_succ hcond]
      exact runWhile_mono hy (Nat.le_add_right m k)
    | false => exact ⟨x, runWhile_of_not hcond n⟩

/-- Divergence rule. -/
theorem runWhile_eq_none {I : α → Prop} (hI : I x)
    (hstep : ∀ x, I x → cond x = true ∧ I (body x)) (n : ℕ) :
    runWhile cond body n x = none := by
  induction n generalizing x with
  | zero => exact runWhile_zero (hstep x hI).1
  | succ n ih =>
    rw [runWhile_succ (hstep x hI).1]
    exact ih (hstep x hI).2

end RocketGame.WhileLoops
