import Mathlib.Algebra.Order.Group.Basic
import Mathlib.Algebra.Order.Ring.Nat
import Mathlib.Order.Monotone.Basic

/-!
Rounding to the nearest term of an increasing sequence, up to a top one, with ties to
the even index. The index below is found bit by bit. Rounding is monotone and leaves
the terms as they are; these two facts bound the result between any two terms.
-/
namespace RocketGame.NearestIndex

variable {K : Type*} [LinearOrder K]

/-- The greatest index not above x, from its high bits down. -/
def descend (u : ℕ → K) (x : K) : ℕ → ℕ → ℕ
  | 0, n => n
  | k + 1, n => if u (n + 2 ^ k) ≤ x then descend u x k (n + 2 ^ k) else descend u x k n

variable {u : ℕ → K} {x : K} {bits top n m : ℕ}

theorem descend_spec {k : ℕ} (hlow : u n ≤ x) (hhigh : x < u (n + 2 ^ k)) :
    u (descend u x k n) ≤ x ∧ x < u (descend u x k n + 1) := by
  induction k generalizing n with
  | zero => exact ⟨hlow, hhigh⟩
  | succ k ih =>
    rw [descend]
    by_cases hmiddle : u (n + 2 ^ k) ≤ x
    · rw [if_pos hmiddle]
      refine ih hmiddle ?_
      rwa [add_assoc, ← two_mul, ← pow_succ']
    · rw [if_neg hmiddle]
      exact ih hlow (not_le.mp hmiddle)

/-- The two neighbours of a place in the sequence are unique. -/
theorem le_of_between (hu : StrictMono u) (hn : u n ≤ x) (hm : x < u (m + 1)) : n ≤ m :=
  Nat.lt_succ_iff.mp (hu.lt_iff_lt.mp (hn.trans_lt hm))

/-- Below the top there is always a place between two neighbours. -/
theorem exists_between (hu : StrictMono u) (htop : top < 2 ^ bits) (hzero : u 0 ≤ x)
    (hx : x < u top) : ∃ n < top, u n ≤ x ∧ x < u (n + 1) := by
  obtain ⟨hlow, hhigh⟩ := descend_spec (n := 0) (k := bits) hzero
    (hx.trans_le (hu.monotone (htop.le.trans (Nat.zero_add _).ge)))
  exact ⟨_, hu.lt_iff_lt.mp (hlow.trans_lt hx), hlow, hhigh⟩

variable [AddCommGroup K]

/-- One of two neighbours: the nearer one, else the even one. -/
def nearer (u : ℕ → K) (x : K) (n : ℕ) : ℕ :=
  if x - u n < u (n + 1) - x then n
  else if u (n + 1) - x < x - u n then n + 1
  else if n % 2 = 0 then n else n + 1

def nearest (u : ℕ → K) (bits top : ℕ) (x : K) : ℕ :=
  if u top ≤ x then top else nearer u x (descend u x bits 0)

theorem nearer_eq_or (u : ℕ → K) (x : K) (n : ℕ) : nearer u x n = n ∨ nearer u x n = n + 1 := by
  unfold nearer
  split
  · exact Or.inl rfl
  · split
    · exact Or.inr rfl
    · split
      · exact Or.inl rfl
      · exact Or.inr rfl

theorem nearest_of_between (hu : StrictMono u) (htop : top < 2 ^ bits) (hn : u n ≤ x)
    (hx : x < u (n + 1)) (hlt : n < top) : nearest u bits top x = nearer u x n := by
  have hbelow : x < u top := hx.trans_le (hu.monotone hlt)
  obtain ⟨hlow, hhigh⟩ := descend_spec (n := 0) (k := bits)
    ((hu.monotone n.zero_le).trans hn)
    (hbelow.trans_le (hu.monotone (htop.le.trans (Nat.zero_add _).ge)))
  have hsame : descend u x bits 0 = n :=
    le_antisymm (le_of_between hu hlow hx) (le_of_between hu hn hhigh)
  rw [nearest, if_neg (not_le.mpr hbelow), hsame]

theorem nearest_le_top (hu : StrictMono u) (htop : top < 2 ^ bits) (hzero : u 0 ≤ x) :
    nearest u bits top x ≤ top := by
  by_cases hx : u top ≤ x
  · rw [nearest, if_pos hx]
  · obtain ⟨n, hlt, hn, hnext⟩ := exists_between hu htop hzero (not_le.mp hx)
    rw [nearest_of_between hu htop hn hnext hlt]
    rcases nearer_eq_or u x n with h | h <;> rw [h] <;> omega

theorem le_nearest (hu : StrictMono u) (htop : top < 2 ^ bits) (hle : n ≤ top) (hn : u n ≤ x) :
    n ≤ nearest u bits top x := by
  by_cases hx : u top ≤ x
  · rw [nearest, if_pos hx]
    exact hle
  · obtain ⟨m, hlt, hm, hnext⟩ :=
      exists_between hu htop ((hu.monotone n.zero_le).trans hn) (not_le.mp hx)
    have hnm := le_of_between hu hn hnext
    rw [nearest_of_between hu htop hm hnext hlt]
    rcases nearer_eq_or u x m with h | h <;> rw [h] <;> omega

variable [IsOrderedAddMonoid K]

/-- Nothing at or below the middle of two neighbours is rounded above the lower one,
if not by a tie. -/
theorem nearest_le_of_nearer (hu : StrictMono u) (htop : top < 2 ^ bits) (hzero : u 0 ≤ x)
    (hlt : n < top) (hnear : x - u n < u (n + 1) - x) : nearest u bits top x ≤ n := by
  have hbelow : x < u (n + 1) := by
    by_contra hnot
    have hnext := not_lt.mp hnot
    have hpos : 0 ≤ x - u n := sub_nonneg.mpr ((hu.monotone n.le_succ).trans hnext)
    exact absurd (hpos.trans_lt hnear) (not_lt.mpr (sub_nonpos.mpr hnext))
  obtain ⟨m, hm, hlow, hhigh⟩ :=
    exists_between hu htop hzero (hbelow.trans_le (hu.monotone hlt))
  have hmn : m ≤ n := le_of_between hu hlow hbelow
  rw [nearest_of_between hu htop hlow hhigh hm]
  rcases hmn.lt_or_eq with h | rfl
  · rcases nearer_eq_or u x m with hnearer | hnearer <;> rw [hnearer] <;> omega
  · rw [nearer, if_pos hnear]

theorem lt_nearest_of_nearer (hu : StrictMono u) (htop : top < 2 ^ bits) (hlt : n < top)
    (hnear : u (n + 1) - x < x - u n) : n + 1 ≤ nearest u bits top x := by
  have habove : u n < x := by
    by_contra hnot
    have hle := not_lt.mp hnot
    have hpos : 0 ≤ u (n + 1) - x := sub_nonneg.mpr (hle.trans (hu.monotone n.le_succ))
    exact absurd (hpos.trans_lt hnear) (not_lt.mpr (sub_nonpos.mpr hle))
  by_cases hx : u (n + 1) ≤ x
  · exact le_nearest hu htop hlt hx
  · rw [nearest_of_between hu htop habove.le (not_le.mp hx) hlt, nearer,
      if_neg (lt_asymm hnear), if_pos hnear]

/-- A term, and whatever lies below it, is not rounded above it. -/
theorem nearest_le (hu : StrictMono u) (htop : top < 2 ^ bits) (hzero : u 0 ≤ x)
    (hle : n ≤ top) (hn : x ≤ u n) : nearest u bits top x ≤ n := by
  rcases hle.lt_or_eq with hlt | rfl
  · refine nearest_le_of_nearer hu htop hzero hlt ?_
    exact (sub_nonpos.mpr hn).trans_lt (sub_pos.mpr (hn.trans_lt (hu n.lt_succ_self)))
  · exact nearest_le_top hu htop hzero

theorem nearest_apply (hu : StrictMono u) (htop : top < 2 ^ bits) (hle : n ≤ top) :
    nearest u bits top (u n) = n :=
  le_antisymm (nearest_le hu htop (hu.monotone n.zero_le) hle le_rfl)
    (le_nearest hu htop hle le_rfl)

end RocketGame.NearestIndex
