/-
  Babycat.Conc.Pending

  Facts that hold once nobody is left to see to them.

  `Owed R todo c` says that `R` holds of the shared state or that some thread is
  still to see to it.  A step breaks this only when the last such thread stops
  being one and leaves `R` false, so a guard has to look at those steps alone
  (`Owed.step`); in a configuration with no such thread `R` holds
  (`Owed.settled`).
-/

import Babycat.Conc.Pool

namespace Babycat.Conc

universe u

variable {σ τ ρ κ ε : Type u}

/-- `R` holds, or some thread is still to see to it. -/
def Owed (R : σ → Prop) (todo : τ → Bool) (c : Conf σ τ) : Prop :=
  R c.shared ∨ ∃ t ∈ c.pool, todo t = true

/-- A thread other than the one that moves is still there after the move. -/
theorem exists_mem_of_eraseIdx {todo : τ → Bool} {l : List τ} {i : Nat}
    (h : (l.eraseIdx i).any todo = true) (t' : τ) : ∃ v ∈ l.set i t', todo v = true := by
  obtain ⟨v, hv, hw⟩ := List.any_eq_true.mp h
  rw [← List.eraseIdx_set_eq (a := t')] at hv
  exact ⟨v, List.mem_of_mem_eraseIdx hv, hw⟩

/-- A thread that is still to see to it is not the one that moves, when that one is not. -/
theorem any_eraseIdx_of_mem {todo : τ → Bool} {l : List τ} {i : Nat} {t : τ}
    (ht : l[i]? = some t) (hdone : todo t = false) (h : ∃ v ∈ l, todo v = true) :
    (l.eraseIdx i).any todo = true := by
  obtain ⟨v, hv, hw⟩ := h
  obtain ⟨j, hj⟩ := List.mem_iff_getElem?.mp hv
  have hne : j ≠ i := by
    rintro rfl
    obtain rfl : v = t := Option.some.inj (hj.symm.trans ht)
    rw [hdone] at hw
    cases hw
  exact List.any_eq_true.mpr ⟨v, List.mem_eraseIdx_iff_getElem?.mpr ⟨j, hne, hj⟩, hw⟩

/-- What a thread may do: it is still to see to `R`, leaves `R` true or somebody else to see to
    it, or was not to see to it and keeps `R`. -/
def PaysOff (R : σ → Prop) (todo : τ → Bool) (c : Conf σ τ) (i : Nat) (t : τ) (s' : σ) (t' : τ) :
    Prop :=
  todo t' = true ∨ R s' ∨ (c.pool.eraseIdx i).any todo = true ∨
    (todo t = false ∧ (R c.shared → R s'))

variable {P : Prog σ τ ρ κ ε} {R : σ → Prop} {todo : τ → Bool} {c c' : Conf σ τ}

theorem Owed.step {e : Event ρ κ ε} (h : Owed R todo c) (hs : P.step c e = some c')
    (hnext : ∀ i k t s' t', e = .sched i k → c.pool[i]? = some t →
      P.next i c.shared t k = some (s', t') → PaysOff R todo c i t s' t')
    (henv : ∀ x s', e = .env x → P.env c.shared x = some s' → R c.shared → R s') :
    Owed R todo c' := by
  rcases Prog.step_cases hs with ⟨r, rfl, rfl⟩ | ⟨i, k, t, s, t', rfl, ht, hn, rfl⟩ |
      ⟨x, s, rfl, hx, rfl⟩
  · exact h.imp_right fun ⟨v, hv, hw⟩ => ⟨v, List.mem_append_left _ hv, hw⟩
  · rcases hnext i k t s t' rfl ht hn with htodo | hR | hother | ⟨hdone, hkeeps⟩
    · exact .inr ⟨t', mem_set_self ht, htodo⟩
    · exact .inl hR
    · exact .inr (exists_mem_of_eraseIdx hother t')
    · rcases h with hR | hex
      · exact .inl (hkeeps hR)
      · exact .inr (exists_mem_set ht hex fun htodo => by rw [hdone] at htodo; cases htodo)
  · exact h.imp_left (henv x s rfl hx)

/-- A thread that was not to see to `Q` and turns it into `R`. -/
theorem Owed.paysOff {Q : σ → Prop} {i : Nat} {t t' : τ} {s' : σ} (h : Owed Q todo c)
    (ht : c.pool[i]? = some t) (hdone : todo t = false) (hR : Q c.shared → R s') :
    PaysOff R todo c i t s' t' := by
  rcases h with hQ | hex
  · exact .inr (.inl (hR hQ))
  · exact .inr (.inr (.inl (any_eraseIdx_of_mem ht hdone hex)))

/-- With nobody left to see to it, `R` holds. -/
theorem Owed.settled (h : Owed R todo c) (hdone : ∀ t ∈ c.pool, todo t = false) : R c.shared := by
  rcases h with hR | ⟨t, ht, htodo⟩
  · exact hR
  · rw [hdone t ht] at htodo
    cases htodo

end Babycat.Conc
