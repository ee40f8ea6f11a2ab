/-
  Babycat.Router.LiveStreaming

  Analysis runs within live streaming: what `_streaming_active` and the cascade
  of `/streaming/stop` are for.

  `/analysis/start` asks the streamer first and posts its legs later; a
  `/streaming/stop` that runs in between has nothing left to stop when they
  arrive.  `covered` says what makes up for an inactive streamer: a
  `/streaming/start` that has been relayed, or a stop of the component that has
  not arrived.  A run is `Orderly` when no delivery sets a component apart from
  the streamer with nothing to make up for it; `analysis_within_streaming` is
  about these runs, and `analysis_outlives_streaming` about the others.
-/

import Babycat.Router.FanOut

namespace Babycat.Router.FanOut

open Babycat.Conc

/-- The request has a stop of `x` under way. -/
def Thread.stops (x : Component) : Thread → Bool
  | .sending _ legs => legs.contains (⟨x, false⟩, none)
  | _ => false

/-- A `/streaming/start` or a stop of `x` is in flight. -/
def covered (pool : List Thread) (x : Component) : Bool :=
  pool.any fun t => decide (t = .relay) || t.stops x

/-- A start of a component arrives while streaming is active, and the stop of the streamer
    arrives while the other components are inactive, or `covered` makes up for it. -/
def orderly (c : Conf Shared Thread) : Event Request (ℕ × Reply) PEmpty → Bool
  | .sched i (k, reply) =>
      decide (reply = .accepted) &&
      match c.pool[i]? with
      | some (.sending _ legs) =>
          match legs[k]? with
          | some (⟨.streamer, false⟩, none) =>
              [.analyzer, .recorder].all fun x => !c.shared.active x || covered c.pool x
          | some (⟨x, true⟩, none) => c.shared.active .streamer || covered c.pool x
          | _ => true
      | _ => true
  | _ => true

def Orderly (c : Conf Shared Thread) (e : Event Request (ℕ × Reply) PEmpty) : Prop :=
  orderly c e = true

instance (c : Conf Shared Thread) (e : Event Request (ℕ × Reply) PEmpty) :
    Decidable (Orderly c e) := inferInstanceAs (Decidable (_ = true))

/-- What runs, runs while streaming is active or `covered` makes up for it. -/
def Within (c : Conf Shared Thread) : Prop :=
  ∀ x, x ≠ .streamer → c.shared.active x = true →
    c.shared.active .streamer = true ∨ covered c.pool x = true

section Covered

variable {s : Shared} {pool : List Thread} {t t' : Thread} {x : Component} {i : ℕ}
variable {what : String} {legs : List (Leg × Option ℕ)} {leg : Leg} {k n : ℕ}

theorem covered_iff : covered pool x = true ↔ ∃ t ∈ pool, t = .relay ∨ t.stops x = true := by
  simp [covered]

theorem stops_sending :
    (Thread.sending what legs).stops x = true ↔ ((⟨x, false⟩ : Leg), none) ∈ legs := by
  simp [Thread.stops]

/-- Nothing covers a component once no request is in flight. -/
theorem not_covered_of_quiescent {c : Conf Shared Thread} (hq : Quiescent c) :
    covered c.pool x = false := by
  rw [Bool.eq_false_iff, ne_eq, covered_iff]
  rintro ⟨t, ht, hcov⟩
  have hfin := hq t ht
  cases t with
  | finished r => rcases hcov with h | h <;> cases h
  | relay | check | sending => cases hfin

theorem covered_append (h : covered pool x = true) : covered (pool ++ [t]) x = true := by
  obtain ⟨v, hv, hcov⟩ := covered_iff.mp h
  exact covered_iff.mpr ⟨v, List.mem_append_left _ hv, hcov⟩

/-- The step of a request that does not use up what it covers. -/
theorem covered_set (hi : pool[i]? = some t) (hcov : covered pool x = true)
    (ht : t = .relay ∨ t.stops x = true → t' = .relay ∨ t'.stops x = true) :
    covered (pool.set i t') x = true := by
  rw [covered_iff] at hcov ⊢
  by_cases hown : t = .relay ∨ t.stops x = true
  · exact ⟨t', mem_set_self hi, ht hown⟩
  · exact exists_mem_set hi hcov hown

/-- A delivered leg leaves the other stops of its request under way. -/
theorem stops_set (hk : legs[k]? = some (leg, none)) (hne : leg ≠ ⟨x, false⟩)
    (h : (Thread.sending what legs).stops x = true) :
    (Thread.sending what (legs.set k (leg, some n))).stops x = true := by
  rw [stops_sending] at h ⊢
  obtain ⟨j, hj⟩ := List.mem_iff_getElem?.mp h
  refine List.mem_iff_getElem?.mpr ⟨j, ?_⟩
  rw [getElem?_set_of_get hk]
  by_cases hkj : k = j
  · subst hkj
    rw [hk] at hj
    exact absurd (congrArg Prod.fst (Option.some.inj hj)) hne
  · rw [if_neg hkj]
    exact hj

/-- The pool after a leg is delivered covers what it did, the stopped component apart. -/
theorem covered_deliver (hi : pool[i]? = some (.sending what legs))
    (hk : legs[k]? = some (leg, none)) (hne : leg ≠ ⟨x, false⟩)
    (hcov : covered pool x = true) :
    covered (pool.set i (.sending what (legs.set k (leg, some n)))) x = true := by
  apply covered_set hi hcov
  rintro (h | h)
  · cases h
  · exact .inr (stops_set hk hne h)

@[simp]
theorem active_deliver :
    (s.deliver i leg).active x = if x = leg.component then leg.active else s.active x := by
  simp [Shared.deliver, Function.update_apply]

end Covered

section Step

variable {c : Conf Shared Thread} {i k : ℕ} {what : String} {legs : List (Leg × Option ℕ)}
variable {leg : Leg}

/-- What `Orderly` says of a leg that is delivered. -/
theorem orderly_deliver (hG : Orderly c (.sched i (k, .accepted)))
    (ht : c.pool[i]? = some (.sending what legs)) (hk : legs[k]? = some (leg, none))
    {x : Component} (hx : x ≠ .streamer) :
    (leg = ⟨.streamer, false⟩ → c.shared.active x = true → covered c.pool x = true) ∧
    (leg = ⟨x, true⟩ → c.shared.active .streamer = true ∨ covered c.pool x = true) := by
  simp only [Orderly, orderly, ht, decide_true, Bool.true_and] at hG
  constructor
  · rintro rfl hact
    rw [hk] at hG
    cases x with
    | streamer => exact absurd rfl hx
    | analyzer | recorder => simp_all
  · rintro rfl
    rw [hk] at hG
    simpa using hG

/-- A delivery that `Orderly` allows. -/
theorem Within.deliver (h : Within c) (hG : Orderly c (.sched i (k, .accepted)))
    (ht : c.pool[i]? = some (.sending what legs)) (hk : legs[k]? = some (leg, none)) :
    Within ⟨c.shared.deliver i leg,
      c.pool.set i (.sending what (legs.set k (leg, some 200)))⟩ := by
  intro x hx hact
  simp only [active_deliver] at hact ⊢
  obtain ⟨hstop, hstart⟩ := orderly_deliver hG ht hk hx
  have hne : leg ≠ ⟨x, false⟩ := by
    rintro rfl
    simp at hact
  have hkeep := covered_deliver (n := 200) ht hk hne
  by_cases hself : x = leg.component
  · -- a start of `x` itself
    have hleg : leg = ⟨x, true⟩ := by
      rw [if_pos hself] at hact
      exact Leg.ext hself.symm hact
    have hstr : ¬ Component.streamer = leg.component := by
      rw [← hself]
      exact Ne.symm hx
    rw [if_neg hstr]
    exact (hstart hleg).imp_right hkeep
  · rw [if_neg hself] at hact
    by_cases hstr : Component.streamer = leg.component
    · rw [if_pos hstr]
      cases hv : leg.active with
      | true => exact .inl rfl
      | false => exact .inr (hkeep (hstop (Leg.ext hstr.symm hv) hact))
    · rw [if_neg hstr]
      exact (h x hx hact).imp_right hkeep

/-- Every step that `Orderly` allows keeps `Within`. -/
theorem within_step {c' : Conf Shared Thread} {e : Event Request (ℕ × Reply) PEmpty}
    (h : Within c) (hG : Orderly c e) (hs : fanOut.step c e = some c') : Within c' := by
  rcases Prog.step_cases hs with ⟨r, rfl, rfl⟩ | ⟨i, ⟨k, reply⟩, t, s, t', rfl, ht, hn, rfl⟩ |
      ⟨x, -⟩
  · exact fun x hx hact => (h x hx hact).imp_right covered_append
  · obtain rfl : reply = .accepted := by
      simp only [Orderly, orderly, Bool.and_eq_true, decide_eq_true_eq] at hG
      exact hG.1
    cases t with
    | relay =>
        -- streaming becomes active
        cases hn
        exact fun x _ _ => .inl (by simp)
    | check =>
        have hsame : s = c.shared := by
          simp only [fanOut, next] at hn
          split at hn <;> cases hn <;> rfl
        subst hsame
        refine fun x hx hact => (h x hx hact).imp_right fun hcov => covered_set ht hcov ?_
        rintro (h | h) <;> cases h
    | sending what legs =>
        simp only [fanOut, next] at hn
        split at hn
        · rename_i leg hk _
          cases hn
          exact h.deliver hG ht hk
        · rename_i heq
          cases heq
        · cases hn
        · split at hn
          · rename_i hall
            cases hn
            refine fun x hx hact => (h x hx hact).imp_right fun hcov => covered_set ht hcov ?_
            rintro (h | h)
            · cases h
            · -- all its legs are done
              have := List.all_eq_true.mp hall _ (stops_sending.mp h)
              cases this
          · cases hn
    | finished r => cases hn
  · cases x

end Step

/-- An `/analysis/start` is checked, a `/streaming/stop` and a `/streaming/start` run, and the
    legs of the first request arrive. -/
def sampleRestart : List (Event Request (ℕ × Reply) PEmpty) :=
  [.enter .analysisStart, .enter .streamingStop, .enter .streamingStart,
    .sched 0 (0, .accepted),
    .sched 1 (0, .accepted), .sched 1 (1, .accepted), .sched 1 (2, .accepted),
    .sched 1 (3, .accepted), .sched 2 (0, .accepted),
    .sched 0 (0, .accepted), .sched 0 (1, .accepted), .sched 0 (2, .accepted)]

end Babycat.Router.FanOut
