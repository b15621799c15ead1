import RocketGame.Runs

/-!
Noninterference by unwinding, for a step function that may fail and one observer
with a view of the state. If the events of others leave the view as it is, and the
observer's own events are decided by the view, then every run shows the observer
what the run of its own events alone shows.
-/
namespace RocketGame.Unwinding

open Runs

variable {σ ε β : Type*} (step : σ → ε → Option σ) (view : σ → β) (own : ε → Bool)

structure Unwinds : Prop where
  other : ∀ s e s', own e = false → step s e = some s' → view s' = view s
  own : ∀ s t e, own e = true → view s = view t → (step s e).map view = (step t e).map view

variable {step view own} {s t s' t' : σ} {es fs : List ε}

/-- The events of others can be taken out of a run. -/
theorem Unwinds.purge (h : Unwinds step view own) (hview : view s = view t)
    (hrun : run step s es = some s') :
    ∃ t', run step t (es.filter own) = some t' ∧ view t' = view s' := by
  induction es generalizing s t with
  | nil =>
    obtain rfl := Option.some.inj hrun
    exact ⟨t, rfl, hview.symm⟩
  | cons e es ih =>
    obtain ⟨s₁, hs₁, hrest⟩ := run_cons_eq_some.mp hrun
    by_cases hown : own e = true
    · rw [List.filter_cons_of_pos hown]
      have hstep := h.own s t e hown hview
      rw [hs₁, Option.map_some, eq_comm, Option.map_eq_some_iff] at hstep
      obtain ⟨t₁, ht₁, hview₁⟩ := hstep
      obtain ⟨t', ht', hview'⟩ := ih hview₁.symm hrest
      exact ⟨t', run_cons_eq_some.mpr ⟨t₁, ht₁, ht'⟩, hview'⟩
    · rw [List.filter_cons_of_neg hown]
      exact ih ((h.other s e s₁ (Bool.eq_false_iff.mpr hown) hs₁).trans hview) hrest

/-- Runs with the same own events from states with the same view end with the same view. -/
theorem Unwinds.agree (h : Unwinds step view own) (hview : view s = view t)
    (hown : es.filter own = fs.filter own)
    (hs : run step s es = some s') (ht : run step t fs = some t') : view s' = view t' := by
  obtain ⟨u, hu, hsu⟩ := h.purge rfl hs
  obtain ⟨v, hv, htv⟩ := h.purge hview.symm ht
  rw [hown, hv, Option.some.injEq] at hu
  rw [← hsu, ← htv, hu]

end RocketGame.Unwinding
