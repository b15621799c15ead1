import Mathlib.Algebra.Order.Group.Basic

/-!
Times that lie at least an interval apart, in the order they are taken in. A sender
that waits for an interval after each message sends only so many in a window of time.
-/
namespace RocketGame.Pacing

variable {T : Type*} [AddCommGroup T] [LinearOrder T]

def Spaced (interval : T) (times : List T) : Prop :=
  times.Pairwise fun s t => s + interval ≤ t

variable {interval t low high : T} {times : List T}

theorem spaced_nil : Spaced interval [] := List.Pairwise.nil

theorem Spaced.concat (h : Spaced interval times) (hlast : ∀ s ∈ times, s + interval ≤ t) :
    Spaced interval (times ++ [t]) :=
  List.pairwise_append.mpr ⟨h, List.pairwise_singleton _ t, fun s hs _ hu =>
    List.mem_singleton.mp hu ▸ hlast s hs⟩

theorem Spaced.filter (h : Spaced interval times) (p : T → Bool) :
    Spaced interval (times.filter p) :=
  List.Pairwise.sublist List.filter_sublist h

variable [IsOrderedAddMonoid T]

theorem Spaced.nsmul_length_le (h : Spaced interval times)
    (hwithin : ∀ s ∈ times, low ≤ s ∧ s ≤ high) (hle : low ≤ high + interval) :
    times.length • interval ≤ high + interval - low := by
  induction times generalizing low with
  | nil =>
    rw [List.length_nil, zero_nsmul]
    exact sub_nonneg.mpr hle
  | cons t times ih =>
    obtain ⟨hfirst, hrest⟩ := List.pairwise_cons.mp h
    obtain ⟨hlow, hhigh⟩ := hwithin t List.mem_cons_self
    -- all later times lie between this one's successor and the end of the window
    have hlater : times.length • interval ≤ high + interval - (t + interval) :=
      ih hrest (fun s hs => ⟨hfirst s hs, (hwithin s (List.mem_cons_of_mem t hs)).2⟩)
        (add_le_add_left hhigh interval)
    calc (t :: times).length • interval
        = times.length • interval + interval := by rw [List.length_cons, succ_nsmul]
      _ ≤ high + interval - (t + interval) + interval := add_le_add_left hlater interval
      _ = high + interval - t := by rw [add_comm t, ← sub_sub, sub_add_eq_add_sub, sub_add_cancel]
      _ ≤ high + interval - low := sub_le_sub_left hlow _

end RocketGame.Pacing
