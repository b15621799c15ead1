import Mathlib.Data.List.Basic
import Mathlib.Order.Lattice
import Mathlib.Order.MinMax

/-!
The running maxima of a list: the elements with a larger key than a bound and than all
elements before them. They do not depend on how the list is cut into batches. Whoever
keeps only them restores the order of a sequence with growing keys that was thinned
out, doubled or shuffled on its way.
-/
namespace RocketGame.RunningMaxima

variable {α β : Type*} [LinearOrder β] (key : α → β)

def maxima : β → List α → List α
  | _, [] => []
  | bound, x :: xs => if key x ≤ bound then maxima bound xs else x :: maxima (key x) xs

def top (bound : β) (xs : List α) : β := xs.foldl (fun bound x => max bound (key x)) bound

variable {key} {bound : β} {x : α} {xs ys : List α}

theorem top_cons : top key bound (x :: xs) = top key (max bound (key x)) xs := rfl

theorem top_append : top key bound (xs ++ ys) = top key (top key bound xs) ys :=
  List.foldl_append

theorem le_top : bound ≤ top key bound xs := by
  induction xs generalizing bound with
  | nil => exact le_rfl
  | cons x xs ih => exact (le_max_left bound (key x)).trans ih

theorem key_le_top (hx : x ∈ xs) : key x ≤ top key bound xs := by
  induction xs generalizing bound with
  | nil => exact absurd hx List.not_mem_nil
  | cons y ys ih =>
    rcases List.mem_cons.mp hx with rfl | hx
    · exact (le_max_right bound (key x)).trans le_top
    · exact ih hx

theorem maxima_append :
    maxima key bound (xs ++ ys) = maxima key bound xs ++ maxima key (top key bound xs) ys := by
  induction xs generalizing bound with
  | nil => rfl
  | cons x xs ih =>
    by_cases hx : key x ≤ bound
    · have hbound : max bound (key x) = bound := max_eq_left hx
      rw [List.cons_append, maxima, if_pos hx, maxima, if_pos hx, ih, top_cons, hbound]
    · have hbound : max bound (key x) = key x := max_eq_right (not_le.mp hx).le
      rw [List.cons_append, maxima, if_neg hx, maxima, if_neg hx, ih, List.cons_append, top_cons,
        hbound]

theorem maxima_sublist : (maxima key bound xs).Sublist xs := by
  induction xs generalizing bound with
  | nil => exact List.Sublist.refl _
  | cons x xs ih =>
    rw [maxima]
    split
    · exact ih.cons x
    · exact ih.cons_cons x

theorem bound_lt_of_mem (hx : x ∈ maxima key bound xs) : bound < key x := by
  induction xs generalizing bound with
  | nil => exact absurd hx List.not_mem_nil
  | cons y ys ih =>
    rw [maxima] at hx
    split at hx
    · exact ih hx
    · next hy =>
      rcases List.mem_cons.mp hx with rfl | hx
      · exact not_le.mp hy
      · exact (not_le.mp hy).trans (ih hx)

/-- The keys of the maxima grow. -/
theorem pairwise_maxima : (maxima key bound xs).Pairwise fun x y => key x < key y := by
  induction xs generalizing bound with
  | nil => exact List.Pairwise.nil
  | cons x xs ih =>
    rw [maxima]
    split
    · exact ih
    · exact List.pairwise_cons.mpr ⟨fun y hy => bound_lt_of_mem hy, ih⟩

theorem maxima_eq_nil_iff : maxima key bound xs = [] ↔ ∀ x ∈ xs, key x ≤ bound := by
  induction xs with
  | nil => exact iff_of_true rfl fun _ h => absurd h List.not_mem_nil
  | cons x xs ih =>
    rw [maxima]
    split
    · next hx => rw [ih, List.forall_mem_cons, and_iff_right hx]
    · next hx =>
      exact iff_of_false (List.cons_ne_nil _ _) fun h => hx (h x List.mem_cons_self)

/-- Some element is a maximum exactly when one exceeds the bound. -/
theorem maxima_ne_nil_iff : maxima key bound xs ≠ [] ↔ ∃ x ∈ xs, bound < key x := by
  rw [Ne, maxima_eq_nil_iff]
  push Not
  rfl

theorem top_lt_iff {b : β} : top key bound xs < b ↔ bound < b ∧ ∀ x ∈ xs, key x < b := by
  induction xs generalizing bound with
  | nil => exact ⟨fun h => ⟨h, fun _ hx => absurd hx List.not_mem_nil⟩, And.left⟩
  | cons x xs ih =>
    rw [top_cons, ih, max_lt_iff, List.forall_mem_cons, and_assoc]

/-- Elements with growing keys that all occur in a sequence whose keys never fall, occur
there in their order. -/
theorem sublist_of_growing (hxs : xs.Pairwise fun x y => key x < key y)
    (hys : ys.Pairwise fun x y => key x ≤ key y) (hmem : ∀ x ∈ xs, x ∈ ys) : xs.Sublist ys := by
  induction ys generalizing xs with
  | nil =>
    obtain rfl : xs = [] := List.eq_nil_iff_forall_not_mem.mpr fun x hx =>
      List.not_mem_nil (hmem x hx)
    exact List.Sublist.refl _
  | cons y ys ih =>
    obtain ⟨hy, hys'⟩ := List.pairwise_cons.mp hys
    cases xs with
    | nil => exact List.nil_sublist _
    | cons x xs =>
      obtain ⟨hx, hxs'⟩ := List.pairwise_cons.mp hxs
      -- only the head of one list can be the head of the other
      have hrest : ∀ z ∈ xs, z ∈ ys := by
        intro z hz
        rcases List.mem_cons.mp (hmem z (List.mem_cons_of_mem x hz)) with rfl | hz'
        · have hxz := hx z hz
          rcases List.mem_cons.mp (hmem x List.mem_cons_self) with rfl | hx'
          · exact absurd hxz (lt_irrefl _)
          · exact absurd hxz (not_lt.mpr (hy x hx'))
        · exact hz'
      rcases List.mem_cons.mp (hmem x List.mem_cons_self) with rfl | hx'
      · exact (ih hxs' hys' hrest).cons_cons x
      · refine (ih hxs hys' fun z hz => ?_).cons y
        rcases List.mem_cons.mp hz with rfl | hz
        · exact hx'
        · exact hrest z hz

section Batches

variable (key) in
def fresh : β → List (List α) → List Bool
  | _, [] => []
  | bound, b :: bs => (!(maxima key bound b).isEmpty) :: fresh (top key bound b) bs

variable {b : List α} {bs : List (List α)}

theorem fresh_append (cs : List (List α)) : fresh key bound (bs ++ cs) =
    fresh key bound bs ++ fresh key (top key bound bs.flatten) cs := by
  induction bs generalizing bound with
  | nil => rfl
  | cons b bs ih =>
    rw [List.cons_append, fresh, ih, fresh, List.flatten_cons, top_append, List.cons_append]

theorem length_fresh : (fresh key bound bs).length = bs.length := by
  induction bs generalizing bound with
  | nil => rfl
  | cons b bs ih => rw [fresh, List.length_cons, ih, List.length_cons]

theorem drop_fresh (n : ℕ) : (fresh key bound bs).drop n =
    fresh key (top key bound (bs.take n).flatten) (bs.drop n) := by
  rcases Nat.le_total n bs.length with hn | hn
  · have hlen : (fresh key bound (bs.take n)).length = n := by
      rw [length_fresh, List.length_take_of_le hn]
    conv_lhs => rw [← List.take_append_drop n bs, fresh_append]
    exact List.drop_left' hlen
  · rw [List.drop_eq_nil_of_le hn, List.drop_eq_nil_of_le (by rwa [length_fresh]), fresh]

/-- Some batch is fresh exactly when one of its elements exceeds the bound. -/
theorem true_mem_fresh_iff : true ∈ fresh key bound bs ↔ ∃ x ∈ bs.flatten, bound < key x := by
  rw [← maxima_ne_nil_iff]
  induction bs generalizing bound with
  | nil => exact iff_of_false List.not_mem_nil fun h => h rfl
  | cons b bs ih =>
    rw [fresh, List.mem_cons, ih, List.flatten_cons, maxima_append, Ne, Ne, List.append_eq_nil_iff,
      not_and_or]
    refine or_congr_left ?_
    cases maxima key bound b with
    | nil => simp
    | cons x xs => simp

end Batches

end RocketGame.RunningMaxima
