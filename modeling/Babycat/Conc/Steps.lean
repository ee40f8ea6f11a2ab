/-
  Babycat.Conc.Steps

  Guarded runs of a labelled step function, and the induction rules that go
  with them.  `Steps step G s s'` says that `s'` is reached from `s` by
  finitely many steps, each of which the guard `G` allows in the state it
  starts from; `free` allows every step, so `Steps step free` is plain
  reachability.

  A guard states the condition under which a run is considered: a property
  proved of `Steps step G` holds of every run all of whose steps meet `G`.
  `Trace step G s l` keeps the states of the run, for properties of its past.
  Concrete schedules are executed by `run`, and `Steps.of_run` and
  `Steps.of_runGuarded` turn the result of an execution into a run.
-/

import Mathlib.Logic.Relation
import Mathlib.Data.List.Basic

namespace Babycat.Conc

variable {σ ε : Type*}

/-- `s'` is reached from `s` by steps that `G` allows. -/
def Steps (step : σ → ε → Option σ) (G : σ → ε → Prop) : σ → σ → Prop :=
  Relation.ReflTransGen fun a b => ∃ e, G a e ∧ step a e = some b

/-- The guard that allows every step. -/
def free : σ → ε → Prop := fun _ _ => True

/-- Executes a schedule; `none` when some step of it is not enabled. -/
def run (step : σ → ε → Option σ) (s : σ) (es : List ε) : Option σ :=
  es.foldlM step s

/-- The state an executable schedule ends in. -/
def exec (step : σ → ε → Option σ) (s : σ) (es : List ε) : σ := (run step s es).getD s

theorem run_exec {step : σ → ε → Option σ} {s : σ} {es : List ε}
    (h : (run step s es).isSome = true) : run step s es = some (exec step s es) := by
  obtain ⟨s', hs⟩ := Option.isSome_iff_exists.mp h
  simp [exec, hs]

theorem step_exec {step : σ → ε → Option σ} {s : σ} {e : ε}
    (h : (run step s [e]).isSome = true) : step s e = some (exec step s [e]) := by
  have hrun := run_exec h
  simpa [run] using hrun

/-- The step function that also refuses what the guard does not allow. -/
def guardedStep (step : σ → ε → Option σ) (G : σ → ε → Prop)
    [∀ s e, Decidable (G s e)] (s : σ) (e : ε) : Option σ :=
  if G s e then step s e else none

namespace Steps

variable {step : σ → ε → Option σ} {G G' : σ → ε → Prop} {s s' s'' : σ} {e : ε}

theorem refl : Steps step G s s := Relation.ReflTransGen.refl

theorem single (hG : G s e) (h : step s e = some s') : Steps step G s s' :=
  Relation.ReflTransGen.single ⟨e, hG, h⟩

theorem trans (h : Steps step G s s') (h' : Steps step G s' s'') : Steps step G s s'' :=
  Relation.ReflTransGen.trans h h'

/-- The invariant rule: what every allowed step preserves, every run preserves. -/
theorem invariant {K : σ → Prop}
    (hstep : ∀ a e b, K a → G a e → step a e = some b → K b)
    (h : Steps step G s s') (h0 : K s) : K s' := by
  induction h with
  | refl => exact h0
  | tail _ hab ih =>
      obtain ⟨e, hge, hs⟩ := hab
      exact hstep _ e _ ih hge hs

/-- The invariant rule for a property that needs another invariant `J`. -/
theorem invariant_under {J K : σ → Prop}
    (hJ : ∀ a e b, J a → G a e → step a e = some b → J b)
    (hstep : ∀ a e b, J a → K a → G a e → step a e = some b → K b)
    (h : Steps step G s s') (hJ0 : J s) (h0 : K s) : K s' := by
  have hboth : ∀ a e b, (J a ∧ K a) → G a e → step a e = some b → J b ∧ K b :=
    fun a e b hi hge hs => ⟨hJ a e b hi.1 hge hs, hstep a e b hi.1 hi.2 hge hs⟩
  exact (h.invariant hboth ⟨hJ0, h0⟩).2

/-- The invariant rule for a property whose steps start in states that the run has reached. -/
theorem invariant_run {K : σ → Prop}
    (hstep : ∀ a e b, Steps step G s a → K a → G a e → step a e = some b → K b)
    (h : Steps step G s s') (h0 : K s) : K s' := by
  induction h with
  | refl => exact h0
  | tail hrun hab ih =>
      obtain ⟨e, hge, hs⟩ := hab
      exact hstep _ e _ hrun ih hge hs

/-- What every step does to a preorder, every run does. -/
theorem relation {R : σ → σ → Prop} (hrefl : ∀ a, R a a)
    (htrans : ∀ a b c, R a b → R b c → R a c)
    (hstep : ∀ a e b, G a e → step a e = some b → R a b)
    (h : Steps step G s s') : R s s' := by
  induction h with
  | refl => exact hrefl s
  | tail _ hab ih =>
      obtain ⟨e, hge, hs⟩ := hab
      exact htrans _ _ _ ih (hstep _ e _ hge hs)

/-- An executed schedule of steps that the guard allows in any state is a run. -/
theorem of_run_all {es : List ε} (h : run step s es = some s')
    (hall : ∀ e ∈ es, ∀ a, G a e) : Steps step G s s' := by
  induction es generalizing s with
  | nil =>
      obtain rfl : s = s' := by simpa [run] using h
      exact refl
  | cons e es ih =>
      obtain ⟨m, hm, hrest⟩ : ∃ m, step s e = some m ∧ run step m es = some s' := by
        simpa [run, List.foldlM_cons, Option.bind_eq_some_iff] using h
      exact (single (hall e List.mem_cons_self s) hm).trans
        (ih hrest fun e' he' => hall e' (List.mem_cons_of_mem e he'))

/-- An executed schedule is a run. -/
theorem of_run {es : List ε} (h : run step s es = some s') : Steps step free s s' :=
  of_run_all h fun _ _ _ => trivial

/-- The state an executable schedule ends in is reached. -/
theorem exec {es : List ε} (h : (run step s es).isSome = true) :
    Steps step free s (Conc.exec step s es) :=
  of_run (run_exec h)

/-- An executed schedule whose steps all pass a decidable guard is a guarded run. -/
theorem of_runGuarded [∀ s e, Decidable (G s e)] {es : List ε}
    (h : run (guardedStep step G) s es = some s') : Steps step G s s' := by
  refine Relation.ReflTransGen.mono ?_ _ _ (of_run h)
  rintro a b ⟨e, -, he⟩
  simp only [guardedStep] at he
  by_cases hge : G a e
  · exact ⟨e, hge, by simpa [hge] using he⟩
  · simp [hge] at he

theorem execGuarded [∀ s e, Decidable (G s e)] {es : List ε}
    (h : (run (guardedStep step G) s es).isSome = true) :
    Steps step G s (Conc.exec (guardedStep step G) s es) :=
  of_runGuarded (run_exec h)

end Steps

-- ============================================================================
-- Traces
-- ============================================================================

/-- The states of a run from `s₀` that `G` allows, newest first. -/
inductive Trace (step : σ → ε → Option σ) (G : σ → ε → Prop) (s₀ : σ) : List σ → Prop
  | start : Trace step G s₀ [s₀]
  | next {s s' : σ} {past : List σ} {e : ε} : Trace step G s₀ (s :: past) → G s e →
      step s e = some s' → Trace step G s₀ (s' :: s :: past)

section Traces

variable {step : σ → ε → Option σ} {G : σ → ε → Prop} {s₀ s : σ} {past : List σ}

/-- Every run has a trace. -/
theorem Steps.trace (h : Steps step G s₀ s) : ∃ past, Trace step G s₀ (s :: past) := by
  induction h with
  | refl => exact ⟨[], .start⟩
  | tail _ hab ih =>
      obtain ⟨e, hge, hs⟩ := hab
      obtain ⟨past, hpast⟩ := ih
      exact ⟨_, .next hpast hge hs⟩

/-- The invariant rule for a property of the state and the states before it. -/
theorem Trace.invariant {K : σ → List σ → Prop} (h0 : K s₀ [])
    (hstep : ∀ a l e b, K a l → G a e → step a e = some b → K b (a :: l))
    (h : Trace step G s₀ (s :: past)) : K s past := by
  generalize hl : s :: past = l at h
  induction h generalizing s past with
  | start =>
      cases hl
      exact h0
  | next hprev hge hs ih =>
      cases hl
      exact hstep _ _ _ _ (ih rfl) hge hs

end Traces

end Babycat.Conc
