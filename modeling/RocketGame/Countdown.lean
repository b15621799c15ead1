import Mathlib.Algebra.Order.Ring.Nat
import Mathlib.Data.List.Induction

/-!
A counter that a signal sets to a limit and every tick takes down by one, the ticks of
the signals included. After a number of ticks it has not run out exactly when one of
the last ticks, as many as the limit but for one, had a signal.
-/
namespace RocketGame.Countdown

def tick (limit count : ℕ) (signal : Bool) : ℕ := (if signal then limit else count) - 1

def ticks (limit : ℕ) (signals : List Bool) : ℕ := signals.foldl (tick limit) 0

variable {limit : ℕ} {signals : List Bool} {signal : Bool}

theorem tick_le {count : ℕ} (h : count ≤ limit) : tick limit count signal ≤ limit := by
  unfold tick
  split <;> omega

theorem ticks_concat : ticks limit (signals ++ [signal]) =
    tick limit (ticks limit signals) signal := by
  rw [ticks, List.foldl_append, List.foldl_cons, List.foldl_nil, ← ticks]

theorem ticks_le : ticks limit signals ≤ limit := by
  induction signals using List.reverseRecOn with
  | nil => exact Nat.zero_le limit
  | append_singleton signals signal ih =>
    rw [ticks_concat]
    exact tick_le ih

def latest {α : Type*} (n : ℕ) (l : List α) : List α := l.drop (l.length - n)

theorem latest_zero : latest 0 signals = [] := List.drop_length

theorem latest_concat (n : ℕ) : latest (n + 1) (signals ++ [signal]) =
    latest n signals ++ [signal] := by
  rw [latest, List.length_append, List.length_singleton, Nat.add_sub_add_right,
    List.drop_append_of_le_length (Nat.sub_le _ _), latest]

/-- The counter stands above n exactly when the last signal was recent enough. -/
theorem lt_ticks_iff (n : ℕ) : n < ticks limit signals ↔
    true ∈ latest (limit - 1 - n) signals := by
  induction signals using List.reverseRecOn generalizing n with
  | nil => simp [ticks, latest]
  | append_singleton signals signal ih =>
    have hbefore := ih (n + 1)
    rw [← Nat.sub_sub] at hbefore
    rw [ticks_concat, tick]
    cases hrest : limit - 1 - n with
    | zero =>
      rw [hrest, Nat.zero_sub, latest_zero] at hbefore
      rw [latest_zero]
      refine iff_of_false ?_ List.not_mem_nil
      cases signal with
      | true =>
        rw [if_pos rfl]
        omega
      | false =>
        rw [if_neg Bool.false_ne_true, Nat.lt_sub_iff_add_lt, hbefore]
        exact List.not_mem_nil
    | succ k =>
      rw [hrest, Nat.add_sub_cancel] at hbefore
      rw [latest_concat, List.mem_append, List.mem_singleton]
      cases signal with
      | true =>
        rw [if_pos rfl]
        exact iff_of_true (by omega) (Or.inr rfl)
      | false =>
        rw [if_neg Bool.false_ne_true, Nat.lt_sub_iff_add_lt, hbefore]
        simp only [Bool.true_eq_false, or_false]

theorem ticks_ne_zero_iff : ticks limit signals ≠ 0 ↔ true ∈ latest (limit - 1) signals := by
  rw [← Nat.pos_iff_ne_zero, lt_ticks_iff, Nat.sub_zero]

end RocketGame.Countdown
