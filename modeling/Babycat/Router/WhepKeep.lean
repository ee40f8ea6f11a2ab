/-
  Babycat.Router.WhepKeep

  The replacing session keeps its stream.

  A sweep is keyed by the account alone and runs after `SESSION_LOCK` is
  released, so it takes whatever rows it finds, also those of a session that
  has replaced the one it was meant for.  `keepsCurrent` says at the `SELECT`
  that this does not happen: the operation that sweeps is still the account's
  latest, or the registry holds no row of the current epoch.  A sweep whose
  operation is superseded later on has taken rows up to its own epoch only
  (`KeepInv.closing`).
-/

import Babycat.Router.WhepRegistry

namespace Babycat.Router.Whep

open Babycat.Conc

/-- Account and operation of the sweep whose `SELECT` is the next step. -/
def Thread.selects : Thread → Option (String × Option ℕ)
  | .terminate _ u e .select => some (u, e)
  | .whepOpen _ (.sweep user .select) => some (user.sub, some user.epoch)
  | _ => none

/-- A sweep of a superseded operation finds no row of the current epoch. -/
def keepsCurrent (c : Conf Shared Thread) : Event Request Choice Env → Bool
  | .sched i _ =>
      match (c.pool[i]?).bind Thread.selects with
      | some (u, e) =>
          decide (c.shared.currentEpoch u = e) || c.shared.accepted.all fun σ =>
            (c.shared.rows σ.path).all fun w =>
              decide (w.username = u → c.shared.currentEpoch u ≠ some σ.epoch)
      | none => true
  | _ => true

def KeepsCurrent (c : Conf Shared Thread) (e : Event Request Choice Env) : Prop :=
  keepsCurrent c e = true

instance (c : Conf Shared Thread) (e : Event Request Choice Env) :
    Decidable (KeepsCurrent c e) := inferInstanceAs (Decidable (_ = true))

/-- The epoch has been handed out by the account. -/
def Reg.issued (R : Reg) (u : String) (e : ℕ) : Prop :=
  ∃ current, R.epoch u = some current ∧ e ≤ current

/-- The epoch is behind the account's. -/
def Reg.behind (R : Reg) (u : String) (e : ℕ) : Prop :=
  ∀ current, R.epoch u = some current → e < current

/-- What a sweep of `u` by the operation of epoch `e` may take: a session of that epoch or an
    older one, or one that is behind the account's epoch. -/
def Reg.sweepable (R : Reg) (u : String) (e : Option ℕ) (path : String) : Prop :=
  ∃ σ ∈ R.accepted, σ.path = path ∧ σ.owner = u ∧
    (R.behind u σ.epoch ∨ ∀ n, e = some n → σ.epoch ≤ n)

/-- A `DELETE` of a superseded operation was not for a session of the epoch then current. -/
def Reg.harmless (R : Reg) (d : Delete) : Prop :=
  ∀ e current, d.epoch = some e → d.current = some current → e < current →
    ∃ σ ∈ R.accepted, σ.path = d.path ∧ σ.epoch ≠ current

/-- The phase's side of `KeepsCurrent`. -/
def Reg.keeps (R : Reg) : RegPhase → Prop
  | .select u e => R.epoch u = e ∨ ∀ σ ∈ R.accepted, ∀ w, R.rows σ.path = some w →
      w.username = u → R.epoch u ≠ some σ.epoch
  | _ => True

structure KeepInv (R : Reg) (ps : List RegPhase) : Prop where
  setups : ∀ σ ∈ R.accepted, R.issued σ.owner σ.epoch
  relaying : ∀ u e, .relay u e ∈ ps → R.issued u e
  closing : ∀ u e sessions, .closing u e sessions ∈ ps → ∀ path ∈ sessions, R.sweepable u e path
  deleted : ∀ d ∈ R.deletes, R.harmless d

section Keep

variable {R R' : Reg} {ps : List RegPhase} {p p' : RegPhase} {i : ℕ} {u path : String}

theorem issued_bump {n : ℕ} (h : R.issued path n) : (R.bumpEpoch u).issued path n := by
  obtain ⟨current, hcur, hle⟩ := h
  by_cases hu : path = u
  · subst hu
    refine ⟨current + 1, ?_, by omega⟩
    rw [bumpEpoch_epoch_self, hcur]
    rfl
  · exact ⟨current, (bumpEpoch_epoch hu).trans hcur, hle⟩

theorem behind_bump {n : ℕ} (h : R.behind path n) : (R.bumpEpoch u).behind path n := by
  intro current hcur
  by_cases hu : path = u
  · subst hu
    rw [bumpEpoch_epoch_self] at hcur
    obtain ⟨before, hbefore, rfl⟩ := Option.map_eq_some_iff.mp hcur
    have := h before hbefore
    omega
  · rw [bumpEpoch_epoch hu] at hcur
    exact h current hcur

/-- Epochs only grow and setups are not forgotten. -/
structure RegGrows (R R' : Reg) : Prop where
  accepted : ∀ σ ∈ R.accepted, σ ∈ R'.accepted
  issued : ∀ {u n}, R.issued u n → R'.issued u n
  behind : ∀ {u n}, R.behind u n → R'.behind u n

theorem RegStep.grows (hs : RegStep R p R' p') (hne : p ≠ .nameless) : RegGrows R R' := by
  cases hs with
  | never => exact absurd rfl hne
  | bump u => exact ⟨fun _ hσ => hσ, issued_bump, behind_bump⟩
  | accept u e path hfresh => exact ⟨fun _ hσ => List.mem_cons_of_mem _ hσ, id, id⟩
  | stay | purge | terminate | select | delete | swept | auth | refused | register | current
  | moved | unregister | closed => exact ⟨fun _ hσ => hσ, id, id⟩

theorem RegGrows.sweepable (hg : RegGrows R R') {e : Option ℕ} (h : R.sweepable u e path) :
    R'.sweepable u e path := by
  obtain ⟨σ, hσ, hpath, howner, hepoch⟩ := h
  exact ⟨σ, hg.accepted σ hσ, hpath, howner, hepoch.imp_left hg.behind⟩

theorem RegGrows.harmless (hg : RegGrows R R') {d : Delete} (h : R.harmless d) :
    R'.harmless d := by
  intro e current he hcur hlt
  obtain ⟨σ, hσ, hpath, hne⟩ := h e current he hcur hlt
  exact ⟨σ, hg.accepted σ hσ, hpath, hne⟩

/-- What the `SELECT` takes. -/
theorem sweepable_of_keeps (hinv : RegInv R ps) (h : KeepInv R ps) {e : Option ℕ}
    (hkeep : R.keeps (.select u e)) (hpath : path ∈ R.sessionsOf u) : R.sweepable u e path := by
  obtain ⟨w, hw, hu⟩ := hinv.mem_sessionsOf.mp hpath
  obtain ⟨-, n, hσ⟩ := hinv.row path w hw
  have hissued : R.issued u n := hu ▸ h.setups _ hσ
  obtain ⟨current, hcur, hle⟩ := hissued
  refine ⟨_, hσ, rfl, hu, ?_⟩
  rcases hkeep with hsame | hnone
  · right
    rintro m rfl
    rw [hcur] at hsame
    cases hsame
    exact hle
  · left
    intro current' hcur'
    have hne := hnone _ hσ w hw hu
    rw [hcur] at hcur' hne
    cases hcur'
    have hneq : current ≠ n := fun heq => hne (congrArg some heq)
    exact lt_of_le_of_ne hle hneq.symm

/-- What a sweep takes, it may delete. -/
theorem harmless_of_sweepable {e : Option ℕ} (h : R.sweepable u e path) :
    R.harmless ⟨path, e, R.epoch u⟩ := by
  intro n current he hcur hlt
  obtain ⟨σ, hσ, hpath, -, hepoch⟩ := h
  refine ⟨σ, hσ, hpath, ?_⟩
  rcases hepoch with hbehind | hle
  · exact Nat.ne_of_lt (hbehind current hcur)
  · have := hle n he
    omega

theorem KeepInv.step (h : KeepInv R ps) (hinv : RegInv R ps) (hs : RegStep R p R' p')
    (hp : ps[i]? = some p) (hkeep : R.keeps p) : KeepInv R' (ps.set i p') := by
  have hne : p ≠ .nameless := by
    rintro rfl
    exact hinv.named (List.mem_of_getElem? hp)
  have hg : RegGrows R R' := hs.grows hne
  have hmem : p ∈ ps := List.mem_of_getElem? hp
  constructor
  · intro σ hσ
    cases hs with
    | never => exact absurd rfl hne
    | accept u e path hfresh =>
        rcases List.mem_cons.mp hσ with rfl | hσ
        · exact h.relaying u e hmem
        · exact h.setups σ hσ
    | bump | stay | purge | terminate | select | delete | swept | auth | refused | register
    | current | moved | unregister | closed => exact hg.issued (h.setups σ hσ)
  · intro u e hq
    rcases List.mem_or_eq_of_mem_set hq with hold | hnew
    · exact hg.issued (h.relaying u e hold)
    · cases hs with
      | never => exact absurd rfl hne
      | stay => exact h.relaying u e (hnew ▸ hmem)
      | auth v n hcur =>
          cases hnew
          exact ⟨_, hcur, le_refl _⟩
      | bump | purge | terminate | select | delete | swept | accept | refused | register
      | current | moved | unregister | closed => cases hnew
  · intro u e sessions hq path hpath
    rcases List.mem_or_eq_of_mem_set hq with hold | hnew
    · exact hg.sweepable (h.closing u e sessions hold path hpath)
    · cases hs with
      | never => exact absurd rfl hne
      | stay => exact h.closing u e sessions (hnew ▸ hmem) path hpath
      | select v n =>
          cases hnew
          exact hg.sweepable (sweepable_of_keeps hinv h hkeep hpath)
      | delete v n done rest =>
          cases hnew
          exact hg.sweepable (h.closing u e _ hmem path (List.mem_cons_of_mem _ hpath))
      | bump | purge | terminate | auth | swept | accept | refused | register
      | current | moved | unregister | closed => cases hnew
  · intro d hd
    cases hs with
    | never => exact absurd rfl hne
    | delete u e path rest =>
        rcases List.mem_cons.mp hd with rfl | hd
        · exact hg.harmless (harmless_of_sweepable (h.closing u e _ hmem path List.mem_cons_self))
        · exact hg.harmless (h.deleted d hd)
    | closed path =>
        rcases List.mem_cons.mp hd with rfl | hd
        · exact fun e current he => by cases he
        · exact hg.harmless (h.deleted d hd)
    | bump | stay | purge | terminate | select | swept | auth | refused | accept | register
    | current | moved | unregister => exact hg.harmless (h.deleted d hd)

theorem KeepInv.enter (h : KeepInv R ps) : KeepInv R (ps ++ [.quiet]) where
  setups := h.setups
  relaying u e hq := by
    have hold : .relay u e ∈ ps := by simpa using hq
    exact h.relaying u e hold
  closing u e sessions hq := by
    have hold : .closing u e sessions ∈ ps := by simpa using hq
    exact h.closing u e sessions hold
  deleted := h.deleted

end Keep

theorem keepInv_boot (users : String → Option User) (now : ℚ) :
    KeepInv (boot users now).shared.reg (phases (boot users now).pool) where
  setups σ hσ := by cases hσ
  relaying u e hq := by cases hq
  closing u e sessions hq := by cases hq
  deleted d hd := by cases hd

theorem selects_of_phase {t : Thread} {u : String} {e : Option ℕ} (h : t.phase = .select u e) :
    t.selects = some (u, e) := by
  cases t with
  | handler t e' =>
      have hne : ∀ t : Router.Thread, handlerPhase e' t ≠ .select u e := by
        intro t
        simp only [handlerPhase]
        split
        · split <;> exact fun hq => by cases hq
        · split <;> exact fun hq => by cases hq
      exact absurd h (hne t)
  | terminate t v e' pc =>
      cases pc with
      | select =>
          cases h
          rfl
      | closing | done => cases h
  | whepOpen bearer pc =>
      cases pc with
      | sweep user pc =>
          cases pc with
          | select =>
              cases h
              rfl
          | closing | done => cases h
      | auth | relay | register | recheck | finished => cases h
  | whepClose bearer session pc =>
      cases pc with
      | auth | unregister | relay | finished => cases h

/-- The guard at the step of a thread. -/
theorem KeepsCurrent.keeps {c : Conf Shared Thread} {i : ℕ} {k : Choice} {t : Thread}
    (hG : KeepsCurrent c (.sched i k)) (ht : c.pool[i]? = some t) :
    c.shared.reg.keeps t.phase := by
  cases hphase : t.phase with
  | select u e =>
      have hsel := selects_of_phase hphase
      simp only [KeepsCurrent, keepsCurrent, ht, Option.bind_some, hsel, Bool.or_eq_true,
        decide_eq_true_eq, List.all_eq_true, Option.all_eq_true] at hG
      exact hG
  | quiet | nameless | sweeps | closing | relay | register | recheck | close => trivial

/-- In a run in which a superseded operation never finds a row of the current epoch at its
    `SELECT`, no superseded operation issues a `DELETE` for a session that was opened with the
    epoch current at that time. -/
theorem replacing_session_kept (cfg : Config) (users : String → Option User) (now : ℚ)
    (c : Conf Shared Thread) (h : Steps (router cfg).step KeepsCurrent (boot users now) c)
    (d : Delete) (hd : d ∈ c.shared.deletes) (e current : ℕ) (he : d.epoch = some e)
    (hcur : d.current = some current) (hold : e < current) (σ : Setup)
    (hσ : σ ∈ c.shared.accepted) (hpath : σ.path = d.path) : σ.epoch ≠ current := by
  have hkeep : KeepInv c.shared.reg (phases c.pool) := by
    refine h.invariant_under (J := fun c => RegInv c.shared.reg (phases c.pool))
      (K := fun c => KeepInv c.shared.reg (phases c.pool))
      (fun _ _ _ hj _ hs => regInv_step hj hs) (fun a e b hj hk hG hs => ?_)
      (regInv_boot users now) (keepInv_boot users now)
    refine (reg_refines cfg).step hk.enter (fun R hR => ?_) (fun i k t R' q' he ht hr => ?_) hs
    · obtain ⟨clock, -, rfl⟩ := hR
      exact ⟨hk.setups, hk.relaying, hk.closing, hk.deleted⟩
    · subst he
      exact hk.step hj hr (map_phase_get ht) (hG.keeps ht)
  obtain ⟨τ, hτ, hτpath, hne⟩ := hkeep.deleted d hd e current he hcur hold
  have hinv : RegInv c.shared.reg (phases c.pool) := regInv_run h
  have hsame : σ = τ := hinv.unique hσ hτ (hpath.trans hτpath.symm)
  rw [hsame]
  exact hne

set_option maxRecDepth 4000 in
/-- The recheck of an overtaken setup closes its own session. -/
theorem replacing_session_kept_crossing :
    ∃ c, Steps (router sampleConfig).step KeepsCurrent (boot sampleUsers 0) c ∧
      ⟨samplePath, some 1, some 2⟩ ∈ c.shared.deletes ∧
      ∀ σ ∈ c.shared.accepted, σ.path = samplePath → σ.epoch ≠ 2 := by
  let c := exec (guardedStep (router sampleConfig).step KeepsCurrent) (boot sampleUsers 0)
    sampleCrossing
  have hrun : Steps (router sampleConfig).step KeepsCurrent (boot sampleUsers 0) c :=
    Steps.execGuarded (by with_unfolding_all decide)
  have hd : ⟨samplePath, some 1, some 2⟩ ∈ c.shared.deletes := by with_unfolding_all decide
  exact ⟨c, hrun, hd, fun σ hσ hpath => replacing_session_kept sampleConfig sampleUsers 0 c hrun
    ⟨samplePath, some 1, some 2⟩ hd 1 2 rfl rfl (by decide) σ hσ hpath⟩

/-- A login stops before its sweep; a second login runs to its end and sets up a session. -/
def sampleLateSweep : List (Event Request Choice Env) :=
  sampleLogin :: goes 0 9 ++ sampleLogin :: goes 1 12 ++
    [.enter (.whepOpen (some ⟨"admin", 0, 600, 2⟩)), .sched 2 (.drawn ""),
      .sched 2 (.accepted samplePath)] ++ goes 2 2 ++ goes 0 2 ++ .sched 0 .closed :: goes 0 1

set_option maxRecDepth 4000 in
/-- Without the guard the sweep of the first login closes the session of the second. -/
theorem replacing_session_swept :
    ∃ c, Reachable sampleConfig sampleUsers 0 c ∧ (∀ t ∈ c.pool, t.isFinished = true) ∧
      ⟨samplePath, "admin", 2⟩ ∈ c.shared.accepted ∧ c.shared.currentEpoch "admin" = some 2 ∧
      c.shared.deletes = [⟨samplePath, some 1, some 2⟩] ∧ c.shared.isOpen samplePath = false := by
  let c := exec (router sampleConfig).step (boot sampleUsers 0) sampleLateSweep
  have hreach : Reachable sampleConfig sampleUsers 0 c := Steps.exec (by with_unfolding_all decide)
  refine ⟨c, hreach, ?_⟩
  with_unfolding_all decide

end Babycat.Router.Whep
