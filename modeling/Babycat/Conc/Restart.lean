/-
  Babycat.Conc.Restart

  A program whose process can be killed, and what its threads cannot avoid.

  A restart ends every thread at whatever step it is; what the shared state
  keeps is for `boot` to say.  `Inevitable P can goal i t` says that thread `i`
  in state `t`, whatever the others do to the shared state meanwhile, always
  has a step and reaches `goal` after finitely many steps of its own.
-/

import Babycat.Conc.Pool

namespace Babycat.Conc

universe u

variable {σ τ ρ κ ε : Type u}

-- ============================================================================
-- Restarts
-- ============================================================================

/-- A step of the process, or the process is killed and starts again. -/
inductive Life (ρ κ ε : Type u)
  | run (e : Event ρ κ ε)
  | restart

/-- One step of a process that starts again with `boot`. -/
def Prog.life (P : Prog σ τ ρ κ ε) (boot : σ → σ) (c : Conf σ τ) : Life ρ κ ε → Option (Conf σ τ)
  | .run e => P.step c e
  | .restart => some ⟨boot c.shared, []⟩

section Restart

variable {P : Prog σ τ ρ κ ε} {boot : σ → σ} {G : Conf σ τ → Life ρ κ ε → Prop}
variable {I : σ → Prop} {A : Nat → σ → τ → Prop} {c c' : Conf σ τ}

/-- The steps of a run without restarts are those of the program. -/
theorem life_cases {e : Life ρ κ ε} (h : P.life boot c e = some c') :
    (∃ x, e = .run x ∧ P.step c x = some c') ∨ (e = .restart ∧ c' = ⟨boot c.shared, []⟩) := by
  cases e with
  | run x => exact .inl ⟨x, rfl, h⟩
  | restart => exact .inr ⟨rfl, (Option.some.inj h).symm⟩

/-- An annotation that every allowed restart keeps is kept by every allowed step. -/
theorem OwickiGries.life (h : OwickiGries P (fun c e => G c (.run e)) I A)
    (hboot : ∀ c, Annotated I A c → G c .restart → I (boot c.shared)) :
    ∀ (c : Conf σ τ) (e : Life ρ κ ε) (c' : Conf σ τ),
      Annotated I A c → G c e → P.life boot c e = some c' → Annotated I A c' := by
  intro c e c' hc hG hs
  rcases life_cases hs with ⟨x, rfl, hx⟩ | ⟨rfl, rfl⟩
  · exact h.step c x c' hc hG hx
  · exact ⟨hboot c hc hG, fun i t ht => by cases ht⟩

end Restart

-- ============================================================================
-- What a thread cannot avoid
-- ============================================================================

/-- Thread `i` in state `t` can always move, and its own steps come to `goal`.  `can` says
    which steps of it are considered. -/
inductive Inevitable (P : Prog σ τ ρ κ ε) (can : τ → κ → Prop) (goal : σ → σ → τ → Prop) (i : Nat) :
    τ → Prop
  | step {t : τ} (moves : ∀ s, ∃ k, can t k ∧ (P.next i s t k).isSome = true)
      (own : ∀ s k s' t', can t k → P.next i s t k = some (s', t') →
        ¬ goal s s' t' → Inevitable P can goal i t') : Inevitable P can goal i t

section Inevitable

variable {P : Prog σ τ ρ κ ε} {can : τ → κ → Prop} {goal : σ → σ → τ → Prop} {i : Nat}
variable {α : Type u} {r : α → α → Prop}

/-- The rule for a rank that every step lowers. -/
theorem Inevitable.of_rank (hr : WellFounded r) (rank : τ → α) {J : τ → Prop}
    (moves : ∀ t s, J t → ∃ k, can t k ∧ (P.next i s t k).isSome = true)
    (own : ∀ t s k s' t', J t → can t k → P.next i s t k = some (s', t') →
      goal s s' t' ∨ (J t' ∧ r (rank t') (rank t))) {t : τ} (ht : J t) :
    Inevitable P can goal i t := by
  induction hx : rank t using hr.induction generalizing t with
  | _ x ih =>
      subst hx
      refine .step (fun s => moves t s ht) fun s k s' t' hk hn hgoal => ?_
      obtain ⟨hJ, hlt⟩ := (own t s k s' t' ht hk hn).resolve_left hgoal
      exact ih _ hlt hJ rfl

end Inevitable

end Babycat.Conc
