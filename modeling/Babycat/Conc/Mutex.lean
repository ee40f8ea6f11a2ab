/-
  Babycat.Conc.Mutex

  Critical sections of one lock in a pool of threads, and the proof rule for
  them.

  `Mutex P owner inside` says that a thread becomes `inside` only by taking the
  free lock, keeps it while it is inside and gives it back when it leaves.  The
  rule `Mutex.owickiGries` then asks for a global invariant `I`, an assertion
  `B` for the threads that are inside, and a relation `Q` that bounds what any
  thread that is outside (and the environment) does to the shared state: `I`
  and `B` need only be stable under `Q`, because while one thread is inside all
  the others are outside.
-/

import Babycat.Conc.Pool

namespace Babycat.Conc

universe u

variable {σ τ ρ κ ε : Type u}

/-- The threads of `P` use a lock, held by `owner`, around the states `inside`. -/
structure Mutex (P : Prog σ τ ρ κ ε) (owner : σ → Option Nat) (inside : τ → Bool) : Prop where
  enter : ∀ r, inside (P.enter r) = false
  outside : ∀ {i s t k s' t'}, P.next i s t k = some (s', t') → inside t = false →
    (owner s' = owner s ∧ inside t' = false) ∨
      (owner s = none ∧ owner s' = some i ∧ inside t' = true)
  within : ∀ {i s t k s' t'}, P.next i s t k = some (s', t') → inside t = true →
    (owner s' = owner s ∧ inside t' = true) ∨ (owner s' = none ∧ inside t' = false)
  env : ∀ {s x s'}, P.env s x = some s' → owner s' = owner s

namespace Mutex

variable {P : Prog σ τ ρ κ ε} {owner : σ → Option Nat} {inside : τ → Bool}
variable {I : σ → Prop} {B : Nat → σ → τ → Prop} {Q : σ → σ → Prop}
variable {G : Conf σ τ → Event ρ κ ε → Prop}

/-- A thread that is inside holds the lock, and `B` holds of it. -/
def Holds (owner : σ → Option Nat) (inside : τ → Bool) (B : Nat → σ → τ → Prop)
    (i : Nat) (s : σ) (t : τ) : Prop :=
  inside t = true → owner s = some i ∧ B i s t

/-- While thread `j` is inside, a step of another thread stays outside and leaves the
    lock alone. -/
theorem others_outside (hm : Mutex P owner inside) {i j : Nat} {s s' : σ} {t t' : τ} {k : κ}
    (hj : owner s = some j) (hne : j ≠ i) (hi : inside t = true → owner s = some i)
    (hn : P.next i s t k = some (s', t')) :
    inside t = false ∧ owner s' = owner s := by
  have hout : inside t = false := by
    cases hin : inside t with
    | false => rfl
    | true => exact absurd (Option.some.inj (hj.symm.trans (hi hin))) hne
  rcases hm.outside hn hout with ⟨how, -⟩ | ⟨hfree, -, -⟩
  · exact ⟨hout, how⟩
  · rw [hj] at hfree; cases hfree

/-- The proof rule for critical sections. -/
theorem owickiGries (hm : Mutex P owner inside)
    (henv : ∀ c x s', G c (.env x) → P.env c.shared x = some s' → Q c.shared s')
    (hout : ∀ c i k t s' t', I c.shared → G c (.sched i k) → c.pool[i]? = some t →
      P.next i c.shared t k = some (s', t') → inside t = false →
      Q c.shared s' ∧ (inside t' = true → B i s' t'))
    (hbody : ∀ c i k t s' t', I c.shared → B i c.shared t → G c (.sched i k) →
      c.pool[i]? = some t → P.next i c.shared t k = some (s', t') → inside t = true →
      I s' ∧ (inside t' = true → B i s' t'))
    (hI : ∀ s s', Q s s' → I s → I s')
    (hB : ∀ i s s' t, Q s s' → I s → inside t = true → B i s t → B i s' t) :
    OwickiGries P G I (Holds owner inside B) where
  enter i s r _ hin := by rw [hm.enter r] at hin; cases hin
  own c i k t s' t' hc hG ht hn := by
    cases hin : inside t with
    | false =>
        obtain ⟨hq, hb⟩ := hout c i k t s' t' hc.1 hG ht hn hin
        refine ⟨hI _ _ hq hc.1, fun hin' => ⟨?_, hb hin'⟩⟩
        rcases hm.outside hn hin with ⟨-, hf⟩ | ⟨-, how, -⟩
        · rw [hf] at hin'; cases hin'
        · exact how
    | true =>
        obtain ⟨how, hb⟩ := hc.2 i t ht hin
        obtain ⟨hi', hb'⟩ := hbody c i k t s' t' hc.1 hb hG ht hn hin
        refine ⟨hi', fun hin' => ⟨?_, hb' hin'⟩⟩
        rcases hm.within hn hin with ⟨hsame, -⟩ | ⟨-, hf⟩
        · exact hsame.trans how
        · rw [hf] at hin'; cases hin'
  others c i k t s' t' j v hc hG ht hn hne hj hin := by
    obtain ⟨how, hb⟩ := hc.2 j v hj hin
    obtain ⟨hout', hsame⟩ :=
      hm.others_outside how hne (fun h => (hc.2 i t ht h).1) hn
    obtain ⟨hq, -⟩ := hout c i k t s' t' hc.1 hG ht hn hout'
    exact ⟨hsame.trans how, hB j _ _ v hq hc.1 hin hb⟩
  env c x s' hc hG hx := by
    have hq := henv c x s' hG hx
    refine ⟨hI _ _ hq hc.1, fun j v hj hin => ?_⟩
    obtain ⟨how, hb⟩ := hc.2 j v hj hin
    exact ⟨(hm.env hx).trans how, hB j _ _ v hq hc.1 hin hb⟩

/-- Following thread `i` through its critical section: its own steps move the assertion
    `A` on, the steps of the others only do what `Q` allows. -/
theorem follow_step (hm : Mutex P owner inside) {c c' : Conf σ τ} {e : Event ρ κ ε} {i : Nat}
    {A : σ → τ → Prop}
    (hheld : ∀ j t, c.pool[j]? = some t → inside t = true → owner c.shared = some j)
    (henv : ∀ x s', P.env c.shared x = some s' → Q c.shared s')
    (hout : ∀ j k t s' t', P.next j c.shared t k = some (s', t') → inside t = false →
      Q c.shared s')
    (hstable : ∀ s s' t, Q s s' → inside t = true → A s t → A s' t)
    (hleft : ∀ s s' t, inside t = false → A s t → A s' t)
    (hown : ∀ k t s' t', c.pool[i]? = some t → A c.shared t →
      P.next i c.shared t k = some (s', t') → A s' t')
    (h : ∃ t, c.pool[i]? = some t ∧ A c.shared t) (hs : P.step c e = some c') :
    ∃ t, c'.pool[i]? = some t ∧ A c'.shared t := by
  obtain ⟨t, ht, hat⟩ := h
  rcases Prog.step_cases hs with ⟨r, rfl, rfl⟩ | ⟨j, k, v, s, v', rfl, hv, hn, rfl⟩ |
      ⟨x, s, rfl, hx, rfl⟩
  · refine ⟨t, ?_, hat⟩
    rw [List.getElem?_append_left (List.getElem?_eq_some_iff.mp ht).1]
    exact ht
  · by_cases hij : j = i
    · subst hij
      obtain rfl : v = t := Option.some.inj (hv.symm.trans ht)
      exact ⟨v', by simp [getElem?_set_of_get hv], hown k v s v' hv hat hn⟩
    · refine ⟨t, by simpa [getElem?_set_of_get hv, hij] using ht, ?_⟩
      cases hin : inside t with
      | false => exact hleft _ _ t hin hat
      | true =>
          obtain ⟨hvout, -⟩ :=
            hm.others_outside (hheld i t ht hin) (Ne.symm hij) (hheld j v hv) hn
          exact hstable _ _ t (hout j k v s v' hn hvout) hin hat
  · refine ⟨t, ht, ?_⟩
    cases hin : inside t with
    | false => exact hleft _ _ t hin hat
    | true => exact hstable _ _ t (henv x s hx) hin hat

/-- The thread that holds the lock is inside. -/
def HolderInside (owner : σ → Option Nat) (inside : τ → Bool) (c : Conf σ τ) : Prop :=
  ∀ i, owner c.shared = some i → ∃ t, c.pool[i]? = some t ∧ inside t = true

theorem holder_step (hm : Mutex P owner inside) {c c' : Conf σ τ} {e : Event ρ κ ε}
    (h : HolderInside owner inside c) (hs : P.step c e = some c') :
    HolderInside owner inside c' := by
  intro i hi
  rcases Prog.step_cases hs with ⟨r, rfl, rfl⟩ | ⟨j, k, v, s, v', rfl, hv, hn, rfl⟩ |
      ⟨x, s, rfl, hx, rfl⟩
  · obtain ⟨t, ht, hin⟩ := h i hi
    refine ⟨t, ?_, hin⟩
    rw [List.getElem?_append_left (List.getElem?_eq_some_iff.mp ht).1]
    exact ht
  · have hsame : owner s = owner c.shared → inside v' = inside v →
        ∃ t, (c.pool.set j v')[i]? = some t ∧ inside t = true := by
      intro how hkept
      obtain ⟨t, ht, hin⟩ := h i (how.symm.trans hi)
      by_cases hij : j = i
      · subst hij
        obtain rfl : t = v := Option.some.inj (ht.symm.trans hv)
        exact ⟨v', by simp [getElem?_set_of_get hv], hkept.trans hin⟩
      · exact ⟨t, by simpa [getElem?_set_of_get hv, hij] using ht, hin⟩
    cases hin : inside v with
    | false =>
        rcases hm.outside hn hin with ⟨how, hout⟩ | ⟨-, how, hin'⟩
        · exact hsame how (hout.trans hin.symm)
        · obtain rfl : j = i := Option.some.inj (how.symm.trans hi)
          exact ⟨v', by simp [getElem?_set_of_get hv], hin'⟩
    | true =>
        rcases hm.within hn hin with ⟨how, hin'⟩ | ⟨hfree, -⟩
        · exact hsame how (hin'.trans hin.symm)
        · exact absurd (hi.symm.trans hfree) (by simp)
  · exact h i ((hm.env hx).symm.trans hi)

/-- A history variable does not change who holds the lock. -/
theorem observed {α : Type u} {upd : Nat → σ → τ → α → α} (hm : Mutex P owner inside) :
    Mutex (P.observed upd) (fun s => owner s.1) inside where
  enter := hm.enter
  outside h hout := by
    obtain ⟨r, hr, heq⟩ := Option.map_eq_some_iff.mp h
    cases heq
    exact hm.outside hr hout
  within h hin := by
    obtain ⟨r, hr, heq⟩ := Option.map_eq_some_iff.mp h
    cases heq
    exact hm.within hr hin
  env h := by
    obtain ⟨s, hs, heq⟩ := Option.map_eq_some_iff.mp h
    cases heq
    exact hm.env hs

/-- Threads that are inside hold the lock. -/
theorem held (hm : Mutex P owner inside) :
    OwickiGries P G (fun _ => True) (Holds owner inside fun _ _ _ => True) :=
  hm.owickiGries (Q := fun _ _ => True) (fun _ _ _ _ _ => trivial)
    (fun _ _ _ _ _ _ _ _ _ _ _ => ⟨trivial, fun _ => trivial⟩)
    (fun _ _ _ _ _ _ _ _ _ _ _ _ => ⟨trivial, fun _ => trivial⟩)
    (fun _ _ _ _ => trivial) (fun _ _ _ _ _ _ _ _ => trivial)

end Mutex

end Babycat.Conc
