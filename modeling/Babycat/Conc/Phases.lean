/-
  Babycat.Conc.Phases

  Abstraction of a pool of threads by phases.

  `Phases P view phase fresh Step Env` says that seen through `view` and
  `phase` every step of a thread of `P` is a step of the transition system
  `Step`, that a request enters in the phase `fresh`, and that the environment
  moves the view by `Env`.  An invariant of the view and the list of the phases
  is then proved on `Step` and `Env` alone (`Phases.step`).
-/

import Babycat.Conc.Pool

namespace Babycat.Conc

universe u v

variable {σ τ ρ κ ε : Type u} {α β : Type v}

/-- Through `view` and `phase` the threads of `P` take the steps of `Step`. -/
structure Phases (P : Prog σ τ ρ κ ε) (view : σ → α) (phase : τ → β) (fresh : β)
    (Step : Nat → κ → α → β → α → β → Prop) (Env : α → α → Prop) : Prop where
  enter : ∀ r, phase (P.enter r) = fresh
  next : ∀ {i s t k s' t'}, P.next i s t k = some (s', t') →
    Step i k (view s) (phase t) (view s') (phase t')
  env : ∀ {s x s'}, P.env s x = some s' → Env (view s) (view s')

variable {P : Prog σ τ ρ κ ε} {view : σ → α} {phase : τ → β} {fresh : β}
variable {Step : Nat → κ → α → β → α → β → Prop} {Env : α → α → Prop}

theorem map_phase_get {pool : List τ} {i : Nat} {t : τ} (ht : pool[i]? = some t) :
    (pool.map phase)[i]? = some (phase t) := by
  rw [List.getElem?_map, ht]
  rfl

/-- What a new phase, every step of a phase and the environment keep, every step of the
    program keeps. -/
theorem Phases.step (hP : Phases P view phase fresh Step Env) {K : α → List β → Prop}
    {c c' : Conf σ τ} {e : Event ρ κ ε}
    (henter : K (view c.shared) (c.pool.map phase ++ [fresh]))
    (henv : ∀ a', Env (view c.shared) a' → K a' (c.pool.map phase))
    (hstep : ∀ i k t a' q', e = .sched i k → c.pool[i]? = some t →
      Step i k (view c.shared) (phase t) a' q' → K a' ((c.pool.map phase).set i q'))
    (hs : P.step c e = some c') : K (view c'.shared) (c'.pool.map phase) := by
  rcases Prog.step_cases hs with ⟨r, rfl, rfl⟩ | ⟨i, k, t, s, t', rfl, ht, hn, rfl⟩ |
      ⟨x, s, rfl, hx, rfl⟩
  · rw [List.map_append, List.map_singleton, hP.enter r]
    exact henter
  · have hmoved := hstep i k t (view s) (phase t') rfl ht (hP.next hn)
    rw [List.map_set]
    exact hmoved
  · exact henv (view s) (hP.env hx)

/-- The rule for an environment that moves nothing of the view. -/
theorem Phases.step_still (hP : Phases P view phase fresh Step fun a b => b = a)
    {K : α → List β → Prop} {c c' : Conf σ τ} {e : Event ρ κ ε}
    (h : K (view c.shared) (c.pool.map phase))
    (henter : K (view c.shared) (c.pool.map phase ++ [fresh]))
    (hstep : ∀ i k t a' q', e = .sched i k → c.pool[i]? = some t →
      Step i k (view c.shared) (phase t) a' q' → K a' ((c.pool.map phase).set i q'))
    (hs : P.step c e = some c') : K (view c'.shared) (c'.pool.map phase) :=
  hP.step henter (fun _ ha => ha ▸ h) hstep hs

end Babycat.Conc
