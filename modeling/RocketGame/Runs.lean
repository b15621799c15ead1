import Mathlib.Data.List.Induction
import Mathlib.Logic.Basic
import Mathlib.Order.Basic

/-!
Finite runs of a partial step function over a list of events. A step that
returns none stops the run, so a successful run executes every event.
Properties of runs are stated on every state reached; a condition on steps is
stated on each state together with the event handled in it. The two rules
derive the first from the second through an inductive invariant.
-/
namespace RocketGame.Runs

variable {σ ε : Type*}

def run (step : σ → ε → Option σ) : σ → List ε → Option σ
  | s, [] => some s
  | s, e :: es => (step s e).bind fun s' => run step s' es

/-- The property holds in every state reached, the first one included. -/
def Always (step : σ → ε → Option σ) (P : σ → Prop) : σ → List ε → Prop
  | s, [] => P s
  | s, e :: es => P s ∧ ∀ s', step s e = some s' → Always step P s' es

/-- The condition holds of every step taken, on the state before it. -/
def Throughout (step : σ → ε → Option σ) (C : σ → ε → Prop) : σ → List ε → Prop
  | _, [] => True
  | s, e :: es => C s e ∧ ∀ s', step s e = some s' → Throughout step C s' es

def Once (step : σ → ε → Option σ) (C : σ → ε → Prop) : σ → List ε → Prop
  | _, [] => False
  | s, e :: es => C s e ∨ ∃ s', step s e = some s' ∧ Once step C s' es

instance decidableAlways (step : σ → ε → Option σ) (P : σ → Prop) [DecidablePred P] :
    ∀ s es, Decidable (Always step P s es)
  | s, [] => inferInstanceAs (Decidable (P s))
  | s, e :: es =>
    match hs : step s e with
    | none => decidable_of_iff (P s)
        ⟨fun h => ⟨h, fun _ hs' => nomatch hs.symm.trans hs'⟩, And.left⟩
    | some s' =>
      have := decidableAlways step P s' es
      decidable_of_iff (P s ∧ Always step P s' es)
        ⟨fun h => ⟨h.1, fun _ ht => Option.some.inj (hs.symm.trans ht) ▸ h.2⟩,
          fun h => ⟨h.1, h.2 s' hs⟩⟩

instance decidableThroughout (step : σ → ε → Option σ) (C : σ → ε → Prop)
    [∀ s e, Decidable (C s e)] : ∀ s es, Decidable (Throughout step C s es)
  | _, [] => isTrue True.intro
  | s, e :: es =>
    match hs : step s e with
    | none => decidable_of_iff (C s e)
        ⟨fun h => ⟨h, fun _ hs' => nomatch hs.symm.trans hs'⟩, And.left⟩
    | some s' =>
      have := decidableThroughout step C s' es
      decidable_of_iff (C s e ∧ Throughout step C s' es)
        ⟨fun h => ⟨h.1, fun _ ht => Option.some.inj (hs.symm.trans ht) ▸ h.2⟩,
          fun h => ⟨h.1, h.2 s' hs⟩⟩

def Reachable (step : σ → ε → Option σ) (init s : σ) : Prop :=
  ∃ events, run step init events = some s

variable {step : σ → ε → Option σ} {P Q I : σ → Prop} {C : σ → ε → Prop}

theorem run_cons_eq_some {s t : σ} {e : ε} {es : List ε} :
    run step s (e :: es) = some t ↔ ∃ s', step s e = some s' ∧ run step s' es = some t := by
  simp only [run, Option.bind_eq_some_iff]

theorem run_step {s s' t : σ} {e : ε} {es : List ε} (hs : step s e = some s')
    (h : run step s' es = some t) : run step s (e :: es) = some t :=
  run_cons_eq_some.mpr ⟨s', hs, h⟩

theorem run_append_eq_some {s u : σ} {es fs : List ε} :
    run step s (es ++ fs) = some u ↔ ∃ t, run step s es = some t ∧ run step t fs = some u := by
  induction es generalizing s with
  | nil => simp only [List.nil_append, run, Option.some.injEq, exists_eq_left']
  | cons e es ih =>
    rw [List.cons_append, run_cons_eq_some]
    constructor
    · rintro ⟨s', hs', hrest⟩
      obtain ⟨t, hfront, hback⟩ := ih.mp hrest
      exact ⟨t, run_cons_eq_some.mpr ⟨s', hs', hfront⟩, hback⟩
    · rintro ⟨t, hfront, hback⟩
      obtain ⟨s', hs', hrest⟩ := run_cons_eq_some.mp hfront
      exact ⟨s', hs', ih.mpr ⟨t, hrest, hback⟩⟩

theorem run_append {s t u : σ} {es fs : List ε} (h : run step s es = some t)
    (h' : run step t fs = some u) : run step s (es ++ fs) = some u :=
  run_append_eq_some.mpr ⟨t, h, h'⟩

theorem run_singleton (s : σ) (e : ε) : run step s [e] = step s e := by
  cases h : step s e <;> simp only [run, h, Option.bind_none, Option.bind_some]

/-- A map of states that commutes with every step commutes with runs. -/
theorem run_map {τ : Type*} {step' : τ → ε → Option τ} {f : τ → σ}
    (h : ∀ s e, step (f s) e = (step' s e).map f) (s : τ) (es : List ε) :
    run step (f s) es = (run step' s es).map f := by
  induction es generalizing s with
  | nil => rfl
  | cons e es ih =>
    rw [run, run, h, Option.bind_map, Option.map_bind]
    exact congrArg _ (funext ih)

/-- Such a map carries a condition on the steps of one run over to the other. -/
theorem throughout_map {τ : Type*} {step' : τ → ε → Option τ} {f : τ → σ}
    (h : ∀ s e, step (f s) e = (step' s e).map f) {s : τ} {es : List ε} :
    Throughout step C (f s) es ↔ Throughout step' (fun s e => C (f s) e) s es := by
  induction es generalizing s with
  | nil => exact Iff.rfl
  | cons e es ih =>
    refine and_congr_right fun _ => ?_
    simp only [h, Option.map_eq_some_iff, forall_exists_index, and_imp]
    constructor
    · exact fun hrest s' hs' => ih.mp (hrest _ s' hs' rfl)
    · rintro hrest _ s' hs' rfl
      exact ih.mpr (hrest s' hs')

/-- An event repeated until it can no longer happen ends in one state only. -/
theorem run_replicate_unique {F : σ → Prop} {s t u : σ} {e : ε} {m n : ℕ}
    (hfinal : ∀ s, F s → step s e = none)
    (ht : run step s (List.replicate m e) = some t) (hFt : F t)
    (hu : run step s (List.replicate n e) = some u) (hFu : F u) : t = u := by
  have hstuck : ∀ {k s v}, F s → run step s (List.replicate k e) = some v → s = v := by
    intro k s v hFs hrun
    cases k with
    | zero => exact Option.some.inj hrun
    | succ k =>
      obtain ⟨s', hs', _⟩ := run_cons_eq_some.mp hrun
      rw [hfinal s hFs] at hs'
      cases hs'
  induction m generalizing s n with
  | zero =>
    obtain rfl : s = t := Option.some.inj ht
    exact hstuck hFt hu
  | succ m ih =>
    cases n with
    | zero =>
      obtain rfl : s = u := Option.some.inj hu
      exact (hstuck hFu ht).symm
    | succ n =>
      obtain ⟨s', hs', ht'⟩ := run_cons_eq_some.mp ht
      obtain ⟨s'', hs'', hu'⟩ := run_cons_eq_some.mp hu
      obtain rfl := Option.some.inj (hs'.symm.trans hs'')
      exact ih ht' hu'

theorem Reachable.refl (s : σ) : Reachable step s s := ⟨[], rfl⟩

theorem Reachable.tail {init s s' : σ} {e : ε} (h : Reachable step init s)
    (hs : step s e = some s') : Reachable step init s' := by
  obtain ⟨es, hes⟩ := h
  refine ⟨es ++ [e], run_append hes ?_⟩
  exact run_cons_eq_some.mpr ⟨s', hs, rfl⟩

theorem Always.head {s : σ} {es : List ε} (h : Always step P s es) : P s := by
  cases es with
  | nil => exact h
  | cons e es => exact h.1

theorem Always.last {s t : σ} {es : List ε} (h : Always step P s es)
    (hrun : run step s es = some t) : P t := by
  induction es generalizing s with
  | nil =>
    obtain rfl : s = t := Option.some.inj hrun
    exact h
  | cons e es ih =>
    obtain ⟨s', hs', hrest⟩ := run_cons_eq_some.mp hrun
    exact ih (h.2 s' hs') hrest

theorem Always.mono {s : σ} {es : List ε} (h : Always step P s es)
    (hPQ : ∀ s, P s → Q s) : Always step Q s es := by
  induction es generalizing s with
  | nil => exact hPQ s h
  | cons e es ih => exact ⟨hPQ s h.1, fun s' hs' => ih (h.2 s' hs')⟩

theorem Always.of_forall {s : σ} {es : List ε} (h : ∀ s, P s) : Always step P s es := by
  induction es generalizing s with
  | nil => exact h s
  | cons e es ih => exact ⟨h s, fun _ _ => ih⟩

theorem Throughout.mono {s : σ} {es : List ε} {C' : σ → ε → Prop} (h : Throughout step C s es)
    (hC : ∀ s e, C s e → C' s e) : Throughout step C' s es := by
  induction es generalizing s with
  | nil => exact True.intro
  | cons e es ih => exact ⟨hC s e h.1, fun s' hs' => ih (h.2 s' hs')⟩

theorem Throughout.last {s t : σ} {es : List ε} {e : ε} (h : Throughout step C s (es ++ [e]))
    (hrun : run step s es = some t) : C t e := by
  induction es generalizing s with
  | nil =>
    obtain rfl : s = t := Option.some.inj hrun
    exact h.1
  | cons e' es ih =>
    obtain ⟨s', hs', hrest⟩ := run_cons_eq_some.mp hrun
    exact ih (h.2 s' hs') hrest

theorem throughout_of_forall_mem {s : σ} {es : List ε} {D : ε → Prop} (h : ∀ e ∈ es, D e) :
    Throughout step (fun _ e => D e) s es := by
  induction es generalizing s with
  | nil => exact True.intro
  | cons e es ih =>
    exact ⟨h e (List.mem_cons_self ..), fun s' _ => ih fun e he => h e (List.mem_cons_of_mem _ he)⟩

/-- A condition on the events alone, when events that meet it are always taken. -/
theorem throughout_iff_forall_mem {s : σ} {es : List ε} {D : ε → Prop}
    (htaken : ∀ s e, D e → ∃ s', step s e = some s') :
    Throughout step (fun _ e => D e) s es ↔ ∀ e ∈ es, D e := by
  constructor
  · intro h
    induction es generalizing s with
    | nil => exact fun e he => absurd he List.not_mem_nil
    | cons e es ih =>
      obtain ⟨s', hs'⟩ := htaken s e h.1
      exact List.forall_mem_cons.mpr ⟨h.1, ih (h.2 s' hs')⟩
  · exact throughout_of_forall_mem

theorem throughout_cons {s s' : σ} {e : ε} {es : List ε} (hs : step s e = some s') (hC : C s e)
    (h : Throughout step C s' es) : Throughout step C s (e :: es) := by
  refine ⟨hC, fun t ht => ?_⟩
  obtain rfl := Option.some.inj (hs.symm.trans ht)
  exact h

theorem throughout_append {s : σ} {es fs : List ε} (h : Throughout step C s es)
    (h' : ∀ t, run step s es = some t → Throughout step C t fs) :
    Throughout step C s (es ++ fs) := by
  induction es generalizing s with
  | nil => exact h' s rfl
  | cons e es ih =>
    refine ⟨h.1, fun s' hs' => ih (h.2 s' hs') fun t ht => ?_⟩
    exact h' t (run_cons_eq_some.mpr ⟨s', hs', ht⟩)

theorem Once.append {s : σ} {es : List ε} (h : Once step C s es) (fs : List ε) :
    Once step C s (es ++ fs) := by
  induction es generalizing s with
  | nil => exact h.elim
  | cons e es ih =>
    rcases h with hC | ⟨s', hs', hrest⟩
    · exact Or.inl hC
    · exact Or.inr ⟨s', hs', ih hrest⟩

theorem once_last {s t : σ} {es : List ε} {e : ε} (hrun : run step s es = some t) (hC : C t e) :
    Once step C s (es ++ [e]) := by
  induction es generalizing s with
  | nil =>
    obtain rfl : s = t := Option.some.inj hrun
    exact Or.inl hC
  | cons e' es ih =>
    obtain ⟨s', hs', hrest⟩ := run_cons_eq_some.mp hrun
    exact Or.inr ⟨s', hs', ih hrest⟩

theorem Once.exists_mem {s : σ} {es : List ε} (h : Once step C s es) : ∃ t, ∃ e ∈ es, C t e := by
  induction es generalizing s with
  | nil => exact h.elim
  | cons e es ih =>
    rcases h with hC | ⟨s', -, hrest⟩
    · exact ⟨s, e, List.mem_cons_self, hC⟩
    · obtain ⟨t, e', he', hC⟩ := ih hrest
      exact ⟨t, e', List.mem_cons_of_mem _ he', hC⟩

/-- The step was one of the first ones, or it is the last. -/
theorem once_concat_iff {s t : σ} {es : List ε} {e : ε} (hrun : run step s es = some t) :
    Once step C s (es ++ [e]) ↔ Once step C s es ∨ C t e := by
  constructor
  · intro h
    induction es generalizing s with
    | nil =>
      obtain rfl : s = t := Option.some.inj hrun
      rcases h with hC | ⟨_, -, hnone⟩
      · exact Or.inr hC
      · exact hnone.elim
    | cons e' es ih =>
      obtain ⟨s', hs', hrest⟩ := run_cons_eq_some.mp hrun
      rcases h with hC | ⟨s'', hs'', hlater⟩
      · exact Or.inl (Or.inl hC)
      · obtain rfl := Option.some.inj (hs'.symm.trans hs'')
        exact (ih hrest hlater).imp_left fun h => Or.inr ⟨s', hs', h⟩
  · rintro (h | hC)
    · exact h.append [e]
    · exact once_last hrun hC

/-- Invariant rule. The steps meet the condition, every state reached lies in
the domain, and the invariant survives each such step. -/
theorem always_of_invariant {s : σ} {es : List ε} (hI : I s)
    (hstep : ∀ s e s', I s → C s e → step s e = some s' → Q s' → I s')
    (hQ : Always step Q s es) (hC : Throughout step C s es) : Always step I s es := by
  induction es generalizing s with
  | nil => exact hI
  | cons e es ih =>
    refine ⟨hI, fun s' hs' => ?_⟩
    have hQ' := hQ.2 s' hs'
    exact ih (hstep s e s' hI hC.1 hs' hQ'.head) hQ' (hC.2 s' hs')

/-- Invariant rule without a domain. -/
theorem always_of_step {s : σ} {es : List ε} (hI : I s)
    (hstep : ∀ s e s', I s → C s e → step s e = some s' → I s')
    (hC : Throughout step C s es) : Always step I s es := by
  induction es generalizing s with
  | nil => exact hI
  | cons e es ih => exact ⟨hI, fun s' hs' => ih (hstep s e s' hI hC.1 hs') (hC.2 s' hs')⟩

/-- Invariant rule where every step preserves the invariant. -/
theorem always_of_preserved {s : σ} {es : List ε} (hI : I s)
    (hstep : ∀ s e s', I s → step s e = some s' → I s') : Always step I s es := by
  induction es generalizing s with
  | nil => exact hI
  | cons e es ih => exact ⟨hI, fun s' hs' => ih (hstep s e s' hI hs')⟩

/-- What an invariant and a condition imply of one step holds of every step. -/
theorem throughout_of_always {s : σ} {es : List ε} {D : σ → ε → Prop} (hI : Always step I s es)
    (hC : Throughout step C s es) (h : ∀ s e, I s → C s e → D s e) : Throughout step D s es := by
  induction es generalizing s with
  | nil => exact True.intro
  | cons e es ih =>
    exact ⟨h s e hI.1 hC.1, fun s' hs' => ih (hI.2 s' hs') (hC.2 s' hs')⟩

/-- Two conditions that agree on every step under an invariant, which the steps
that meet them keep, hold throughout the same runs. -/
theorem throughout_congr {s : σ} {es : List ε} {D : σ → ε → Prop} (hI : I s)
    (hiff : ∀ s e, I s → (D s e ↔ C s e))
    (hstep : ∀ s e s', I s → C s e → step s e = some s' → I s') :
    Throughout step D s es ↔ Throughout step C s es := by
  induction es generalizing s with
  | nil => exact Iff.rfl
  | cons e es ih =>
    constructor
    · rintro ⟨hD, hrest⟩
      have hC := (hiff s e hI).mp hD
      exact ⟨hC, fun s' hs' => (ih (hstep s e s' hI hC hs')).mp (hrest s' hs')⟩
    · rintro ⟨hC, hrest⟩
      exact ⟨(hiff s e hI).mpr hC, fun s' hs' => (ih (hstep s e s' hI hC hs')).mpr (hrest s' hs')⟩

/-- Invariant rule on the last state, when no domain restriction is needed. -/
theorem run_invariant {s t : σ} {es : List ε} (hI : I s)
    (hstep : ∀ s e s', I s → C s e → step s e = some s' → I s')
    (hC : Throughout step C s es) (hrun : run step s es = some t) : I t := by
  induction es generalizing s with
  | nil =>
    obtain rfl : s = t := Option.some.inj hrun
    exact hI
  | cons e es ih =>
    obtain ⟨s', hs', hrest⟩ := run_cons_eq_some.mp hrun
    exact ih (hstep s e s' hI hC.1 hs') (hC.2 s' hs') hrest

/-- History rule. An invariant that relates the state to the events that led to it. -/
theorem run_history {J : List ε → σ → Prop} {init t : σ} {es : List ε} (hinit : J [] init)
    (hstep : ∀ es s e s', run step init es = some s → J es s → step s e = some s' →
      J (es ++ [e]) s')
    (hrun : run step init es = some t) : J es t := by
  induction es using List.reverseRecOn generalizing t with
  | nil =>
    obtain rfl : init = t := Option.some.inj hrun
    exact hinit
  | append_singleton es e ih =>
    obtain ⟨s, hfront, hlast⟩ := run_append_eq_some.mp hrun
    rw [run_singleton] at hlast
    exact hstep es s e t hfront (ih hfront) hlast

/-- Progress rule. The invariant makes every step that meets the condition succeed. -/
theorem exists_run {D : ε → Prop} {s : σ} {es : List ε} (hI : I s)
    (hstep : ∀ s e, I s → D e → ∃ s', step s e = some s' ∧ I s') (hD : ∀ e ∈ es, D e) :
    ∃ t, run step s es = some t ∧ I t := by
  induction es generalizing s with
  | nil => exact ⟨s, rfl, hI⟩
  | cons e es ih =>
    obtain ⟨he, hes⟩ := List.forall_mem_cons.mp hD
    obtain ⟨s', hs', hI'⟩ := hstep s e hI he
    obtain ⟨t, ht, hIt⟩ := ih hI' hes
    exact ⟨t, run_cons_eq_some.mpr ⟨s', hs', ht⟩, hIt⟩

/-- Totality rule. A run succeeds exactly when every step taken does. -/
theorem run_isSome_iff {s : σ} {es : List ε} (hC : ∀ s e, (step s e).isSome = true ↔ C s e) :
    (run step s es).isSome = true ↔ Throughout step C s es := by
  induction es generalizing s with
  | nil => exact iff_of_true rfl True.intro
  | cons e es ih =>
    cases hs : step s e with
    | none =>
      have hnot : ¬ C s e := by
        rw [← hC, hs]
        exact Bool.false_ne_true
      rw [run, hs, Option.bind_none]
      exact iff_of_false Bool.false_ne_true fun h => hnot h.1
    | some s' =>
      have hhere : C s e := by rw [← hC, hs, Option.isSome_some]
      rw [run, hs, Option.bind_some, ih]
      exact ⟨throughout_cons hs hhere, fun h => h.2 s' hs⟩

/-- Exactness rule. When a step outside the condition breaks the property at
once, the runs that keep it are exactly the runs whose steps all meet it. -/
theorem always_iff_throughout {s t : σ} {es : List ε} (hI : I s)
    (hIP : ∀ s, I s → P s)
    (hgood : ∀ s e s', I s → C s e → step s e = some s' → I s')
    (hbad : ∀ s e s', I s → ¬ C s e → step s e = some s' → ¬ P s')
    (hrun : run step s es = some t) : Always step P s es ↔ Throughout step C s es := by
  induction es generalizing s with
  | nil => exact ⟨fun _ => True.intro, fun _ => hIP s hI⟩
  | cons e es ih =>
    obtain ⟨s', hs', hrest⟩ := run_cons_eq_some.mp hrun
    constructor
    · intro h
      have hnext := h.2 s' hs'
      have hC : C s e := by
        by_contra hnot
        exact hbad s e s' hI hnot hs' hnext.head
      refine ⟨hC, fun s'' hs'' => ?_⟩
      obtain rfl : s' = s'' := Option.some.inj (hs'.symm.trans hs'')
      exact (ih (hgood s e s' hI hC hs') hrest).mp hnext
    · intro h
      refine ⟨hIP s hI, fun s'' hs'' => ?_⟩
      obtain rfl : s' = s'' := Option.some.inj (hs'.symm.trans hs'')
      exact (ih (hgood s e s' hI h.1 hs') hrest).mpr (h.2 s' hs')

/-- The same rule where a step outside the condition is always taken: then it also
speaks of runs that stop at some event. The states reached lie in the domain. -/
theorem always_iff_throughout_within {s : σ} {es : List ε} (hI : I s) (hQ : Always step Q s es)
    (hIP : ∀ s, I s → P s)
    (hgood : ∀ s e s', I s → Q s → C s e → step s e = some s' → I s')
    (hbad : ∀ s e, I s → Q s → ¬ C s e → ∃ s', step s e = some s' ∧ ¬ P s') :
    Always step P s es ↔ Throughout step C s es := by
  induction es generalizing s with
  | nil => exact ⟨fun _ => True.intro, fun _ => hIP s hI⟩
  | cons e es ih =>
    constructor
    · intro h
      have hC : C s e := by
        by_contra hnot
        obtain ⟨s', hs', hbroken⟩ := hbad s e hI hQ.1 hnot
        exact hbroken (h.2 s' hs').head
      exact ⟨hC, fun s' hs' =>
        (ih (hgood s e s' hI hQ.1 hC hs') (hQ.2 s' hs')).mp (h.2 s' hs')⟩
    · intro h
      exact ⟨hIP s hI, fun s' hs' =>
        (ih (hgood s e s' hI hQ.1 h.1 hs') (hQ.2 s' hs')).mpr (h.2 s' hs')⟩

theorem always_iff_throughout_of_taken {s : σ} {es : List ε} (hI : I s)
    (hIP : ∀ s, I s → P s)
    (hgood : ∀ s e s', I s → C s e → step s e = some s' → I s')
    (hbad : ∀ s e, I s → ¬ C s e → ∃ s', step s e = some s' ∧ ¬ P s') :
    Always step P s es ↔ Throughout step C s es :=
  always_iff_throughout_within hI (Q := fun _ => True) (Always.of_forall fun _ => True.intro) hIP
    (fun s e s' h _ => hgood s e s' h) (fun s e h _ => hbad s e h)

end RocketGame.Runs
