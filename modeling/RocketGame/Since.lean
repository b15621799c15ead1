import RocketGame.Runs

/-!
The past operator "since" over runs: a condition held of some step taken, and
another of every step after it. A property of states that one kind of step
establishes and one kind of step keeps is a since of the two: it needs no
invariant, only the recurrence over one step.
-/
namespace RocketGame.Since

open Runs

variable {σ ε : Type*} {step : σ → ε → Option σ} {R C : σ → ε → Prop} {P : σ → Prop}

/-- The first condition held of some step of the run, the second of all steps after it. -/
def HeldSince (step : σ → ε → Option σ) (R C : σ → ε → Prop) (init : σ) (es : List ε) : Prop :=
  ∃ past e later s s', es = past ++ e :: later ∧ run step init past = some s ∧
    step s e = some s' ∧ R s e ∧ Throughout step C s' later

theorem throughout_of_append {s : σ} {es fs : List ε} (h : Throughout step C s (es ++ fs)) :
    Throughout step C s es := by
  induction es generalizing s with
  | nil => exact True.intro
  | cons e es ih => exact ⟨h.1, fun s' hs' => ih (h.2 s' hs')⟩

theorem not_heldSince_nil {init : σ} : ¬ HeldSince step R C init [] := by
  rintro ⟨past, e, later, s, s', hes, -⟩
  exact absurd hes.symm (List.append_ne_nil_of_right_ne_nil past (List.cons_ne_nil e later))

/-- The recurrence of the operator over the last step. -/
theorem heldSince_concat_iff {init s s' : σ} {es : List ε} {e : ε}
    (hrun : run step init es = some s) (hs : step s e = some s') :
    HeldSince step R C init (es ++ [e]) ↔ R s e ∨ (HeldSince step R C init es ∧ C s e) := by
  constructor
  · rintro ⟨past, d, later, t, t', hes, hpast, ht, hR, hC⟩
    rcases List.eq_nil_or_concat later with rfl | ⟨later, f, rfl⟩
    · obtain ⟨rfl, hlast⟩ := List.append_inj' hes rfl
      obtain rfl : e = d := List.singleton_inj.mp hlast
      obtain rfl : s = t := Option.some.inj (hrun.symm.trans hpast)
      exact Or.inl hR
    · rw [List.concat_eq_append, ← List.cons_append, ← List.append_assoc] at hes
      obtain ⟨rfl, hlast⟩ := List.append_inj' hes rfl
      obtain rfl : e = f := List.singleton_inj.mp hlast
      obtain ⟨u, hu, hrest⟩ := run_append_eq_some.mp hrun
      obtain rfl : t = u := Option.some.inj (hpast.symm.trans hu)
      obtain ⟨u, hu, hrest⟩ := run_cons_eq_some.mp hrest
      obtain rfl : t' = u := Option.some.inj (ht.symm.trans hu)
      rw [List.concat_eq_append] at hC
      refine Or.inr ⟨⟨past, d, later, t, t', rfl, hpast, ht, hR, ?_⟩, hC.last hrest⟩
      exact throughout_of_append hC
  · rintro (hR | ⟨⟨past, d, later, t, t', rfl, hpast, ht, hR, hC⟩, hCe⟩)
    · exact ⟨es, e, [], s, s', rfl, hrun, hs, hR, True.intro⟩
    · refine ⟨past, d, later ++ [e], t, t', ?_, hpast, ht, hR, ?_⟩
      · rw [List.append_assoc, List.cons_append]
      · refine throughout_append hC fun u hu => ⟨?_, fun _ _ => True.intro⟩
        have hfront := run_append hpast (run_step ht hu)
        obtain rfl : s = u := Option.some.inj (hrun.symm.trans hfront)
        exact hCe

/-- Since rule. A property that fails at first, and holds after a step exactly when the
step establishes it or keeps it. -/
theorem iff_heldSince {init t : σ} {es : List ε} (hinit : ¬ P init)
    (hstep : ∀ s e s', step s e = some s' → (P s' ↔ R s e ∨ (P s ∧ C s e)))
    (hrun : run step init es = some t) : P t ↔ HeldSince step R C init es := by
  refine run_history (J := fun es t => P t ↔ HeldSince step R C init es) ?_ ?_ hrun
  · exact iff_of_false hinit not_heldSince_nil
  · intro es s e s' hfront ih hs
    rw [heldSince_concat_iff hfront hs, hstep s e s' hs, ih]

end RocketGame.Since
