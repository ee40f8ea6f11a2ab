/-
  Babycat.Conc.Pool

  Interleaving semantics of a pool of threads over a shared state, and the
  Owicki-Gries rule for it.

  A `Prog` says what a newly entered request starts as, what a thread in a
  given local state does next to the shared state (one atomic step), and what
  the environment may do.  A configuration is the shared state with the list
  of the threads that ever entered; a thread is known by its position in the
  list and keeps it, so a finished thread stays as the record of its outcome.
  The number of threads is not bounded and any thread may move at any time.

  `OwickiGries` asks for a global invariant `I` and an assertion `A i s t` for
  a thread `i` in local state `t`: a thread's own step keeps both, and no step
  of another thread breaks the assertion (interference freedom).
-/

import Babycat.Conc.Steps
import Mathlib.Algebra.BigOperators.Group.List.Basic
import Mathlib.Tactic.Ring

namespace Babycat.Conc

universe u

/-- The shared state and the local state of every thread that ever entered. -/
structure Conf (σ τ : Type u) where
  shared : σ
  pool : List τ

/-- The configuration without the second part of the shared state. -/
def Conf.base {σ α τ : Type u} (c : Conf (σ × α) τ) : Conf σ τ := ⟨c.shared.1, c.pool⟩

/-- One move of the system: a request enters, thread `i` takes its next step
    (`k` resolves what the step leaves open), or the environment moves. -/
inductive Event (ρ κ ε : Type u)
  | enter (r : ρ)
  | sched (i : Nat) (k : κ)
  | env (e : ε)

/-- The program every thread runs, and the environment's moves. -/
structure Prog (σ τ ρ κ ε : Type u) where
  enter : ρ → τ
  next : Nat → σ → τ → κ → Option (σ × τ)
  env : σ → ε → Option σ

-- ============================================================================
-- Pools
-- ============================================================================

section Pools

variable {τ : Type u} {l : List τ} {i j : Nat} {t t' v : τ}

theorem getElem?_set_of_get (h : l[i]? = some t) :
    (l.set i t')[j]? = if i = j then some t' else l[j]? := by
  obtain ⟨hi, -⟩ := List.getElem?_eq_some_iff.mp h
  rw [List.getElem?_set]
  by_cases hij : i = j
  · subst hij; simp [hi]
  · simp [hij]

/-- A thread of the pool after thread `i` moved is thread `i` in its new state or
    another thread in its old one. -/
theorem getElem?_set_cases (h : l[i]? = some t) (hj : (l.set i t')[j]? = some v) :
    (j = i ∧ v = t') ∨ (j ≠ i ∧ l[j]? = some v) := by
  rw [getElem?_set_of_get h] at hj
  by_cases hij : i = j
  · left; simpa [hij, eq_comm] using hj
  · right; exact ⟨Ne.symm hij, by simpa [hij] using hj⟩

theorem getElem?_append_cases (hj : (l ++ [t])[j]? = some v) :
    l[j]? = some v ∨ (j = l.length ∧ v = t) := by
  rw [List.getElem?_append] at hj
  by_cases hlt : j < l.length
  · left; simpa [hlt] using hj
  · right
    rw [if_neg hlt, List.getElem?_singleton] at hj
    by_cases h0 : j - l.length = 0
    · rw [if_pos h0] at hj
      exact ⟨by omega, (Option.some.inj hj).symm⟩
    · rw [if_neg h0] at hj; cases hj

/-- A thread with property `Q` is still there after a step of a thread without it. -/
theorem exists_mem_set {Q : τ → Prop} (h : l[i]? = some t) (hQ : ∃ v ∈ l, Q v)
    (ht : ¬ Q t) : ∃ v ∈ l.set i t', Q v := by
  obtain ⟨v, hv, hq⟩ := hQ
  obtain ⟨j, hj⟩ := List.mem_iff_getElem?.mp hv
  refine ⟨v, List.mem_iff_getElem?.mpr ⟨j, ?_⟩, hq⟩
  rw [getElem?_set_of_get h]
  by_cases hij : i = j
  · subst hij
    rw [h] at hj
    exact absurd hq (by rw [← Option.some.inj hj]; exact ht)
  · rw [if_neg hij]; exact hj

/-- What one thread had before a step, one has after it, when the thread that moved hands it on. -/
theorem exists_mem_move {Q Q' : τ → Prop} (h : l[i]? = some t) (hQ : ∃ v ∈ l, Q v)
    (hown : Q t → Q' t') (hothers : ∀ v, Q v → Q' v) : ∃ v ∈ l.set i t', Q' v := by
  by_cases ht : Q t
  · refine ⟨t', ?_, hown ht⟩
    exact List.mem_iff_getElem?.mpr ⟨i, by rw [getElem?_set_of_get h, if_pos rfl]⟩
  · obtain ⟨v, hv, hq⟩ := exists_mem_set h hQ ht
    exact ⟨v, hv, hothers v hq⟩

/-- The thread that moved is in the pool in its new state. -/
theorem mem_set_self (h : l[i]? = some t) : t' ∈ l.set i t' :=
  List.mem_iff_getElem?.mpr ⟨i, by rw [getElem?_set_of_get h, if_pos rfl]⟩

/-- The total weight of the pool after thread `i` moved. -/
theorem sum_map_set (w : τ → Int) (h : l[i]? = some t) :
    ((l.set i t').map w).sum = (l.map w).sum - w t + w t' := by
  induction l generalizing i with
  | nil => simp at h
  | cons x xs ih =>
      cases i with
      | zero =>
          obtain rfl : x = t := by simpa using h
          simp only [List.set_cons_zero, List.map_cons, List.sum_cons]
          ring
      | succ i =>
          have hi : xs[i]? = some t := by simpa using h
          simp only [List.set_cons_succ, List.map_cons, List.sum_cons, ih hi]
          ring

/-- How many threads have property `q` after thread `i` moved. -/
theorem countP_set_of_get (t' : τ) (q : τ → Bool) (h : l[i]? = some t) :
    (l.set i t').countP q + (q t).toNat = l.countP q + (q t').toNat := by
  obtain ⟨hi, hget⟩ := List.getElem?_eq_some_iff.mp h
  rw [List.countP_set hi, hget]
  cases ht : q t with
  | false => cases q t' <;> simp
  | true =>
      have hpos : 0 < l.countP q :=
        List.countP_pos_iff.mpr ⟨t, List.mem_of_getElem? h, ht⟩
      cases q t' <;> simp <;> omega

/-- What the first thread with an answer says does not change when the thread that moved says
    what it said before. -/
theorem findSome?_set_same {β : Type u} (f : τ → Option β) (h : l[i]? = some t)
    (hf : f t' = f t) : (l.set i t').findSome? f = l.findSome? f := by
  induction l generalizing i with
  | nil => simp at h
  | cons x xs ih =>
      cases i with
      | zero =>
          obtain rfl : x = t := by simpa using h
          simp only [List.set_cons_zero, List.findSome?_cons, hf]
      | succ i =>
          have hi : xs[i]? = some t := by simpa using h
          simp only [List.set_cons_succ, List.findSome?_cons, ih hi]

/-- Only thread `i` has an answer. -/
theorem findSome?_of_alone {β : Type u} (f : τ → Option β) (h : l[i]? = some t)
    (hothers : ∀ j v, j ≠ i → l[j]? = some v → f v = none) : l.findSome? f = f t := by
  cases hl : l.findSome? f with
  | none => exact (List.findSome?_eq_none_iff.mp hl t (List.mem_of_getElem? h)).symm
  | some b =>
      obtain ⟨v, hv, hfv⟩ := List.exists_of_findSome?_eq_some hl
      obtain ⟨j, hj⟩ := List.mem_iff_getElem?.mp hv
      by_cases hji : j = i
      · subst hji
        obtain rfl : v = t := Option.some.inj (hj.symm.trans h)
        exact hfv.symm
      · rw [hothers j v hji hj] at hfv
        cases hfv

end Pools

-- ============================================================================
-- Steps of a program
-- ============================================================================

namespace Prog

variable {σ τ ρ κ ε : Type u} (P : Prog σ τ ρ κ ε)

/-- One step of the system. -/
def step (c : Conf σ τ) : Event ρ κ ε → Option (Conf σ τ)
  | .enter r => some ⟨c.shared, c.pool ++ [P.enter r]⟩
  | .sched i k =>
      match c.pool[i]? with
      | none => none
      | some t =>
          match P.next i c.shared t k with
          | none => none
          | some (s, t') => some ⟨s, c.pool.set i t'⟩
  | .env e => (P.env c.shared e).map fun s => ⟨s, c.pool⟩

variable {P}

/-- What one step can do. -/
theorem step_cases {c c' : Conf σ τ} {e : Event ρ κ ε} (h : P.step c e = some c') :
    (∃ r, e = .enter r ∧ c' = ⟨c.shared, c.pool ++ [P.enter r]⟩) ∨
    (∃ i k t s t', e = .sched i k ∧ c.pool[i]? = some t ∧
      P.next i c.shared t k = some (s, t') ∧ c' = ⟨s, c.pool.set i t'⟩) ∨
    (∃ x s, e = .env x ∧ P.env c.shared x = some s ∧ c' = ⟨s, c.pool⟩) := by
  cases e with
  | enter r => exact .inl ⟨r, rfl, (Option.some.inj h).symm⟩
  | sched i k =>
      simp only [step] at h
      split at h
      · cases h
      · rename_i t ht
        split at h
        · cases h
        · rename_i s t' hn
          exact .inr (.inl ⟨i, k, t, s, t', rfl, ht, hn, (Option.some.inj h).symm⟩)
  | env x =>
      obtain ⟨s, hs, rfl⟩ := Option.map_eq_some_iff.mp h
      exact .inr (.inr ⟨x, s, rfl, hs, rfl⟩)

/-- A thread's step is a step of the system. -/
theorem step_sched {c : Conf σ τ} {i : Nat} {k : κ} {t t' : τ} {s : σ}
    (ht : c.pool[i]? = some t) (hn : P.next i c.shared t k = some (s, t')) :
    P.step c (.sched i k) = some ⟨s, c.pool.set i t'⟩ := by
  simp only [step, ht, hn]

/-- `P` with a history variable, which `upd` moves on at every step of a thread and which no
    step reads. -/
def observed {α : Type u} (P : Prog σ τ ρ κ ε) (upd : Nat → σ → τ → α → α) :
    Prog (σ × α) τ ρ κ ε where
  enter := P.enter
  next i s t k := (P.next i s.1 t k).map fun r => ((r.1, upd i s.1 t s.2), r.2)
  env s x := (P.env s.1 x).map fun s' => (s', s.2)

theorem observed_next {α : Type u} {upd : Nat → σ → τ → α → α} {i : Nat} {s s' : σ × α}
    {t t' : τ} {k : κ} (h : (P.observed upd).next i s t k = some (s', t')) :
    P.next i s.1 t k = some (s'.1, t') ∧ s'.2 = upd i s.1 t s.2 := by
  obtain ⟨r, hr, heq⟩ := Option.map_eq_some_iff.mp h
  cases heq
  exact ⟨hr, rfl⟩

theorem observed_env {α : Type u} {upd : Nat → σ → τ → α → α} {s s' : σ × α} {x : ε}
    (h : (P.observed upd).env s x = some s') : P.env s.1 x = some s'.1 ∧ s'.2 = s.2 := by
  obtain ⟨r, hr, rfl⟩ := Option.map_eq_some_iff.mp h
  exact ⟨hr, rfl⟩

/-- `P` with a state besides that its steps change with `upd`, by the choice they take, and that
    none of them reads. -/
def beside {α : Type u} (P : Prog σ τ ρ κ ε) (upd : Nat → σ → τ → κ → α → α) :
    Prog (σ × α) τ ρ κ ε where
  enter := P.enter
  next i s t k := (P.next i s.1 t k).map fun r => ((r.1, upd i s.1 t k s.2), r.2)
  env s x := (P.env s.1 x).map fun s' => (s', s.2)

theorem beside_next {α : Type u} {upd : Nat → σ → τ → κ → α → α} {i : Nat} {s s' : σ × α}
    {t t' : τ} {k : κ} (h : (P.beside upd).next i s t k = some (s', t')) :
    P.next i s.1 t k = some (s'.1, t') ∧ s'.2 = upd i s.1 t k s.2 := by
  obtain ⟨r, hr, heq⟩ := Option.map_eq_some_iff.mp h
  cases heq
  exact ⟨hr, rfl⟩

/-- `P` with a history variable, which the steps of the threads and of the environment move on and
    which none of them reads. -/
def recorded {α : Type u} (P : Prog σ τ ρ κ ε) (upd : Nat → σ → τ → κ → α → α)
    (updEnv : σ → ε → α → α) : Prog (σ × α) τ ρ κ ε where
  enter := P.enter
  next i s t k := (P.next i s.1 t k).map fun r => ((r.1, upd i s.1 t k s.2), r.2)
  env s x := (P.env s.1 x).map fun s' => (s', updEnv s.1 x s.2)

section Recorded

variable {α : Type u} {upd : Nat → σ → τ → κ → α → α} {updEnv : σ → ε → α → α}

theorem recorded_next {i : Nat} {s s' : σ × α} {t t' : τ} {k : κ}
    (h : (P.recorded upd updEnv).next i s t k = some (s', t')) :
    P.next i s.1 t k = some (s'.1, t') ∧ s'.2 = upd i s.1 t k s.2 := by
  obtain ⟨r, hr, heq⟩ := Option.map_eq_some_iff.mp h
  cases heq
  exact ⟨hr, rfl⟩

theorem recorded_env {s s' : σ × α} {x : ε}
    (h : (P.recorded upd updEnv).env s x = some s') :
    P.env s.1 x = some s'.1 ∧ s'.2 = updEnv s.1 x s.2 := by
  obtain ⟨r, hr, rfl⟩ := Option.map_eq_some_iff.mp h
  exact ⟨hr, rfl⟩

/-- Without the history variable a step is a step of `P`. -/
theorem recorded_step {c c' : Conf (σ × α) τ} {e : Event ρ κ ε}
    (h : (P.recorded upd updEnv).step c e = some c') : P.step c.base e = some c'.base := by
  rcases step_cases h with ⟨r, rfl, rfl⟩ | ⟨i, k, t, s, t', rfl, ht, hn, rfl⟩ |
      ⟨x, s, rfl, hx, rfl⟩
  · rfl
  · exact step_sched ht (recorded_next hn).1
  · show (P.env c.shared.1 x).map _ = _
    rw [(recorded_env hx).1]
    rfl

end Recorded

end Prog

-- ============================================================================
-- The Owicki-Gries rule
-- ============================================================================

section OwickiGries

variable {σ τ ρ κ ε : Type u}

/-- The global invariant holds and every thread's assertion holds. -/
def Annotated (I : σ → Prop) (A : Nat → σ → τ → Prop) (c : Conf σ τ) : Prop :=
  I c.shared ∧ ∀ i t, c.pool[i]? = some t → A i c.shared t

/-- The proof obligations of the rule, for the steps that `G` allows. -/
structure OwickiGries (P : Prog σ τ ρ κ ε) (G : Conf σ τ → Event ρ κ ε → Prop)
    (I : σ → Prop) (A : Nat → σ → τ → Prop) : Prop where
  enter : ∀ i s r, I s → A i s (P.enter r)
  own : ∀ c i k t s' t', Annotated I A c → G c (.sched i k) → c.pool[i]? = some t →
    P.next i c.shared t k = some (s', t') → I s' ∧ A i s' t'
  others : ∀ c i k t s' t' j v, Annotated I A c → G c (.sched i k) → c.pool[i]? = some t →
    P.next i c.shared t k = some (s', t') → j ≠ i → c.pool[j]? = some v → A j s' v
  env : ∀ c x s', Annotated I A c → G c (.env x) → P.env c.shared x = some s' →
    I s' ∧ ∀ j v, c.pool[j]? = some v → A j s' v

variable {P : Prog σ τ ρ κ ε} {G : Conf σ τ → Event ρ κ ε → Prop}
variable {I : σ → Prop} {A : Nat → σ → τ → Prop}

/-- An annotation whose obligations are met is kept by every allowed step. -/
theorem OwickiGries.step (h : OwickiGries P G I A) :
    ∀ (c : Conf σ τ) (e : Event ρ κ ε) (c' : Conf σ τ),
      Annotated I A c → G c e → P.step c e = some c' → Annotated I A c' := by
  intro c e c' hc hG hs
  rcases Prog.step_cases hs with ⟨r, rfl, rfl⟩ | ⟨i, k, t, s, t', rfl, ht, hn, rfl⟩ |
      ⟨x, s, rfl, hx, rfl⟩
  · refine ⟨hc.1, fun j v hj => ?_⟩
    rcases getElem?_append_cases hj with hj | ⟨-, rfl⟩
    · exact hc.2 j v hj
    · exact h.enter j _ r hc.1
  · obtain ⟨hI, hA⟩ := h.own c i k t s t' hc hG ht hn
    refine ⟨hI, fun j v hj => ?_⟩
    rcases getElem?_set_cases ht hj with ⟨rfl, rfl⟩ | ⟨hne, hj⟩
    · exact hA
    · exact h.others c i k t s t' j v hc hG ht hn hne hj
  · exact h.env c x s hc hG hx

/-- An annotation whose obligations are met holds along every allowed run. -/
theorem OwickiGries.steps (h : OwickiGries P G I A) {c c' : Conf σ τ}
    (hr : Steps P.step G c c') (hc : Annotated I A c) : Annotated I A c' :=
  hr.invariant h.step hc

end OwickiGries

end Babycat.Conc
