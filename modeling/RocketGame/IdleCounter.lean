import Mathlib.Algebra.Order.Group.Basic
import RocketGame.Runs

/-!
A counter of silent intervals. It advances when nothing was heard and an interval has
passed since its mark, which it moves. A signal sets it back to zero and leaves the mark
where it is, so that the first interval counted after a signal may have begun before it.
All the others lie after the signal: a system that stops when the counter has passed a
limit has been without a signal for that many intervals.
-/
namespace RocketGame.IdleCounter

open Runs

structure Counter (T : Type*) where
  count : ℕ := 0
  mark : T
  deriving DecidableEq

inductive Observation (T : Type*)
  | silence (now : T)
  | signal (now : T)

def Observation.time {T : Type*} : Observation T → T
  | .silence now | .signal now => now

theorem map_arrival_concat {T ε : Type*} (arrival : ε → T) (start : T) (es : List ε) (e : ε) :
    start :: (es ++ [e]).map arrival = (start :: es.map arrival) ++ [arrival e] := by
  rw [List.map_append, List.map_singleton, List.cons_append]

section Clock

variable {T ε : Type*} [LE T]

def NeverBack (arrival : ε → T) (start : T) (es : List ε) : Prop :=
  (start :: es.map arrival).Pairwise (· ≤ ·)

instance [DecidableLE T] (arrival : ε → T) (start : T) (es : List ε) :
    Decidable (NeverBack arrival start es) :=
  inferInstanceAs (Decidable (List.Pairwise _ _))

variable {arrival : ε → T} {start t : T} {es : List ε} {e : ε}

theorem NeverBack.le_last (h : NeverBack arrival start (es ++ [e]))
    (ht : t ∈ start :: es.map arrival) : t ≤ arrival e := by
  rw [NeverBack, map_arrival_concat, List.pairwise_append] at h
  exact h.2.2 t ht (arrival e) (List.mem_singleton_self _)

theorem NeverBack.of_concat (h : NeverBack arrival start (es ++ [e])) :
    NeverBack arrival start es := by
  rw [NeverBack, map_arrival_concat, List.pairwise_append] at h
  exact h.1

end Clock

variable {T : Type*} [AddCommGroup T] [LinearOrder T]

/-- A counter may wait longer than an interval, but not count earlier. -/
inductive Counter.Step (interval : T) : Counter T → Option (Observation T) → Counter T → Prop
  | unobserved (c : Counter T) : Step interval c none c
  | waits (c : Counter T) (now : T) : Step interval c (some (.silence now)) c
  | counts (c : Counter T) (now : T) (hpassed : interval ≤ now - c.mark) :
      Step interval c (some (.silence now)) ⟨c.count + 1, now⟩
  | clears (c : Counter T) (now : T) :
      Step interval c (some (.signal now)) { c with count := 0 }

def Counter.QuietSince (interval t : T) (c : Counter T) : Prop :=
  ∀ n, c.count = n + 1 → t + n • interval ≤ c.mark

section Counter

variable {interval t now : T} {c c' : Counter T} {o : Option (Observation T)}

/-- The mark stays, or moves to the time of the observation. -/
theorem Counter.Step.mark_eq (hstep : c.Step interval o c') :
    c'.mark = c.mark ∨ ∃ o', o = some o' ∧ c'.mark = o'.time := by
  cases hstep with
  | unobserved => exact Or.inl rfl
  | waits => exact Or.inl rfl
  | counts now => exact Or.inr ⟨_, rfl, rfl⟩
  | clears => exact Or.inl rfl

theorem quietSince_of_count_eq_zero (h : c.count = 0) : c.QuietSince interval t := by
  intro n hn
  omega

theorem Counter.Step.quietSince_of_signal (hstep : c.Step interval (some (.signal now)) c') :
    c'.QuietSince interval t := by
  cases hstep with
  | clears => exact quietSince_of_count_eq_zero rfl

variable [IsOrderedAddMonoid T]

/-- The interval that has just passed can be counted as well. -/
theorem Counter.QuietSince.add_le (h : c.QuietSince interval t) (ht : t ≤ now)
    (hpassed : interval ≤ now - c.mark) : t + c.count • interval ≤ now := by
  cases hcount : c.count with
  | zero => rwa [zero_nsmul, add_zero]
  | succ n =>
    calc t + (n + 1) • interval = t + n • interval + interval := by rw [succ_nsmul, add_assoc]
      _ ≤ c.mark + interval := add_le_add_left (h n hcount) interval
      _ ≤ now := le_sub_iff_add_le'.mp hpassed

/-- A step keeps the silence since any time that lies before it. -/
theorem Counter.Step.quietSince (hstep : c.Step interval o c') (h : c.QuietSince interval t)
    (ht : ∀ o', o = some o' → t ≤ o'.time) : c'.QuietSince interval t := by
  cases hstep with
  | unobserved => exact h
  | waits => exact h
  | counts now hpassed =>
    intro n hn
    obtain rfl : c.count = n := Nat.succ.inj hn
    exact h.add_le (ht _ rfl) hpassed
  | clears => exact quietSince_of_count_eq_zero rfl

end Counter

section System

variable {σ ε : Type*}

/-- A system that keeps a counter while it runs. Its events arrive at their times. -/
structure Keeps (interval : T) (step : σ → ε → Option σ) (counter : σ → Option (Counter T))
    (observation : σ → ε → Option (Observation T)) (arrival : ε → T) : Prop where
  timed : ∀ {s e o}, observation s e = some o → o.time = arrival e
  stepped : ∀ {s e s' c'}, step s e = some s' → counter s' = some c' →
    ∃ c, counter s = some c ∧ (c.mark ≤ arrival e → c.Step interval (observation s e) c')

def StartOrSignal (step : σ → ε → Option σ) (observation : σ → ε → Option (Observation T))
    (init : σ) (start : T) (es : List ε) (t : T) : Prop :=
  t = start ∨ Once step (fun s e => observation s e = some (.signal t)) init es

variable {interval start t : T} {step : σ → ε → Option σ} {counter : σ → Option (Counter T)}
  {observation : σ → ε → Option (Observation T)} {arrival : ε → T}
  {init s : σ} {es : List ε} {e : ε} {c c' : Counter T}

/-- The start and the signals are among the times of the run. -/
theorem StartOrSignal.mem (h : StartOrSignal step observation init start es t)
    (hkeeps : Keeps interval step counter observation arrival) :
    t ∈ start :: es.map arrival := by
  rcases h with rfl | hsignal
  · exact List.mem_cons_self
  · obtain ⟨s, e, he, hobserved⟩ := hsignal.exists_mem
    have htime : t = arrival e := hkeeps.timed hobserved
    rw [htime]
    exact List.mem_cons_of_mem _ (List.mem_map_of_mem he)

structure Sound (interval : T) (step : σ → ε → Option σ)
    (observation : σ → ε → Option (Observation T)) (arrival : ε → T) (init : σ) (start : T)
    (es : List ε) (c : Counter T) : Prop where
  mark : c.mark ∈ start :: es.map arrival
  quiet : ∀ t, StartOrSignal step observation init start es t → c.QuietSince interval t

variable [IsOrderedAddMonoid T]

theorem Sound.concat (hkeeps : Keeps interval step counter observation arrival)
    (hrun : run step init es = some s) (hclock : NeverBack arrival start (es ++ [e]))
    (h : Sound interval step observation arrival init start es c)
    (hcounter : c.mark ≤ arrival e → c.Step interval (observation s e) c') :
    Sound interval step observation arrival init start (es ++ [e]) c' := by
  have hstep := hcounter (hclock.le_last h.mark)
  constructor
  · rw [map_arrival_concat, List.mem_append, List.mem_singleton]
    rcases hstep.mark_eq with hsame | ⟨o, hobserved, hmoved⟩
    · exact Or.inl (hsame ▸ h.mark)
    · exact Or.inr (hmoved.trans (hkeeps.timed hobserved))
  · intro t ht
    have hearlier (hbefore : StartOrSignal step observation init start es t) :
        c'.QuietSince interval t := by
      apply hstep.quietSince (h.quiet t hbefore)
      intro o hobserved
      rw [hkeeps.timed hobserved]
      exact hclock.le_last (hbefore.mem hkeeps)
    rcases ht with hstart | hsignal
    · exact hearlier (Or.inl hstart)
    · rcases (once_concat_iff hrun).mp hsignal with hbefore | hnow
      · exact hearlier (Or.inr hbefore)
      · rw [hnow] at hstep
        exact hstep.quietSince_of_signal

/-- A run that starts with an empty counter leaves it sound. -/
theorem Keeps.sound (hkeeps : Keeps interval step counter observation arrival)
    (hinit : counter init = some ⟨0, start⟩) (hrun : run step init es = some s)
    (hclock : NeverBack arrival start es) (hc : counter s = some c) :
    Sound interval step observation arrival init start es c := by
  induction es using List.reverseRecOn generalizing s c with
  | nil =>
    obtain rfl : init = s := Option.some.inj hrun
    obtain rfl := Option.some.inj (hinit.symm.trans hc)
    exact ⟨List.mem_cons_self, fun _ _ => quietSince_of_count_eq_zero rfl⟩
  | append_singleton es e ih =>
    obtain ⟨s', hprefix, hlast⟩ := run_append_eq_some.mp hrun
    rw [run_singleton] at hlast
    obtain ⟨c', hc', hcounter⟩ := hkeeps.stepped hlast hc
    exact (ih hprefix hclock.of_concat hc').concat hkeeps hprefix hclock hcounter

/-- A counter that reads the limit when one more interval has passed tells that since the
start and every signal at least as many intervals have passed. -/
theorem Keeps.silence (hkeeps : Keeps interval step counter observation arrival)
    (hinit : counter init = some ⟨0, start⟩) (hrun : run step init es = some s)
    (hclock : NeverBack arrival start (es ++ [e])) (hc : counter s = some c)
    (hpassed : c.mark ≤ arrival e → interval ≤ arrival e - c.mark)
    (ht : StartOrSignal step observation init start es t) :
    t + c.count • interval ≤ arrival e := by
  have hsound := hkeeps.sound hinit hrun hclock.of_concat hc
  apply (hsound.quiet t ht).add_le (hclock.le_last (ht.mem hkeeps))
  exact hpassed (hclock.le_last hsound.mark)

end System

end RocketGame.IdleCounter
