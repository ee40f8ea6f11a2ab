/-
  Babycat.Router.WhepRegistry

  No WebRTC session is lost on the way from the streamer to the `DELETE` that
  closes it.

  Setup and replacement share no lock.  A setup registers its row and then
  reads the epoch; a replacement bumps the epoch and then sweeps.  Whichever
  order the two take, a row whose setup is behind the epoch has a sweep of its
  account ahead of it (`RegInv.stale`).  And a row leaves the registry in two
  ways only: with the request that goes on to issue its `DELETE`, or by age
  (`RegInv.tracked`).
-/

import Babycat.Router.SessionInv
import Babycat.Router.WhepSteps
import Mathlib.Data.List.Nodup

namespace Babycat.Router.Whep

open Babycat.Conc

/-- The request has a sweep of the account ahead. -/
def RegPhase.sweepsAhead (u : String) : RegPhase → Prop
  | .sweeps v _ | .select v _ => v = u
  | _ => False

/-- The request will sweep the account: its sweep is ahead, or its recheck will find that the
    epoch has moved. -/
def RegPhase.willSweep (R : Reg) (u : String) : RegPhase → Prop
  | .sweeps v _ | .select v _ => v = u
  | .recheck v e => v = u ∧ R.epoch v ≠ some e
  | _ => False

/-- The request has taken the row of the path and will issue its `DELETE`. -/
def RegPhase.pending (path : String) : RegPhase → Prop
  | .closing _ _ sessions => path ∈ sessions
  | .close p => p = path
  | _ => False

/-- A session registered at `t` has its row, is older than the age-out, or a request issued its
    `DELETE` or is about to. -/
def Tracked (R : Reg) (ps : List RegPhase) (path : String) (t : ℤ) : Prop :=
  R.rows path ≠ none ∨ t < R.clock - whepSessionMaxAge ∨ (∃ d ∈ R.deletes, d.path = path) ∨
    ∃ q ∈ ps, q.pending path

structure RegInv (R : Reg) (ps : List RegPhase) : Prop where
  named : .nameless ∉ ps
  paths : (R.accepted.map Setup.path).Nodup
  /-- A registration step inserts the row of an accepted session that had none. -/
  registering : ∀ (j : ℕ) u e path, ps[j]? = some (.register u e path) →
    ⟨path, u, e⟩ ∈ R.accepted ∧ R.registeredAt path = none ∧
      ∀ (k : ℕ) v e', ps[k]? = some (.register v e' path) → k = j
  registered : ∀ path t, R.registeredAt path = some t → path ∈ R.accepted.map Setup.path
  row : ∀ path w, R.rows path = some w →
    R.registeredAt path = some w.createdAt ∧ ∃ e, ⟨path, w.username, e⟩ ∈ R.accepted
  tracked : ∀ σ ∈ R.accepted, .register σ.owner σ.epoch σ.path ∈ ps ∨
    ∃ t, R.registeredAt σ.path = some t ∧ Tracked R ps σ.path t
  /-- A row behind the epoch of its account has a sweep ahead of it. -/
  stale : ∀ σ ∈ R.accepted, R.rows σ.path ≠ none → R.epoch σ.owner ≠ some σ.epoch →
    ∃ q ∈ ps, q.willSweep R σ.owner

namespace RegInv

variable {R R' : Reg} {ps : List RegPhase} {p p' : RegPhase} {i : ℕ} {path : String}

/-- Sessions of one path are one. -/
theorem unique (h : RegInv R ps) {σ τ : Setup} (hσ : σ ∈ R.accepted) (hτ : τ ∈ R.accepted)
    (hpath : σ.path = τ.path) : σ = τ :=
  List.inj_on_of_nodup_map h.paths hσ hτ hpath

/-- The row of an accepted session names its owner and the time it was inserted. -/
theorem row_eq (h : RegInv R ps) {σ : Setup} (hσ : σ ∈ R.accepted) {w : WhepRow}
    (hw : R.rows σ.path = some w) :
    w.username = σ.owner ∧ R.registeredAt σ.path = some w.createdAt := by
  obtain ⟨hat, e, hmem⟩ := h.row σ.path w hw
  have heq : σ = ⟨σ.path, w.username, e⟩ := h.unique hσ hmem rfl
  have howner : σ.owner = w.username := congrArg Setup.owner heq
  exact ⟨howner.symm, hat⟩

/-- The list a sweep goes through is the list of the account's rows. -/
theorem mem_sessionsOf (h : RegInv R ps) {u : String} :
    path ∈ R.sessionsOf u ↔ ∃ w, R.rows path = some w ∧ w.username = u := by
  simp only [Reg.sessionsOf, List.mem_filter, Option.any_eq_true, decide_eq_true_eq]
  constructor
  · rintro ⟨-, w, hw, hu⟩
    exact ⟨w, hw, hu⟩
  · rintro ⟨w, hw, hu⟩
    obtain ⟨-, e, hmem⟩ := h.row path w hw
    exact ⟨List.mem_map.mpr ⟨_, hmem, rfl⟩, w, hw, hu⟩

/-! ### One step -/

theorem step_named (h : RegInv R ps) (hs : RegStep R p R' p') (hp : ps[i]? = some p) :
    .nameless ∉ ps.set i p' := by
  intro hmem
  rcases List.mem_or_eq_of_mem_set hmem with hold | hnew
  · exact h.named hold
  · cases hs with
    | stay => exact h.named (hnew ▸ List.mem_of_getElem? hp)
    | never => exact h.named (List.mem_of_getElem? hp)
    | purge | bump | terminate | select | delete | swept | auth | refused | accept | register | current
    | moved | unregister | closed => cases hnew

theorem step_paths (h : RegInv R ps) (hs : RegStep R p R' p') (hp : ps[i]? = some p) :
    (R'.accepted.map Setup.path).Nodup := by
  cases hs with
  | never => exact absurd (List.mem_of_getElem? hp) h.named
  | accept u e path hfresh => exact List.nodup_cons.mpr ⟨hfresh, h.paths⟩
  | stay | purge | bump | terminate | select | delete | swept | auth | refused | register | current
  | moved | unregister | closed => exact h.paths

/-- A step that neither sets up nor registers a session. -/
theorem registering_keep (h : RegInv R ps) (hp : ps[i]? = some p)
    (hold : ∀ u e path, p' = .register u e path → p = p')
    (hacc : R'.accepted = R.accepted) (hat : R'.registeredAt = R.registeredAt)
    (j : ℕ) (u : String) (e : ℕ) (hj : (ps.set i p')[j]? = some (.register u e path)) :
    ⟨path, u, e⟩ ∈ R'.accepted ∧ R'.registeredAt path = none ∧
      ∀ (k : ℕ) v e', (ps.set i p')[k]? = some (.register v e' path) → k = j := by
  have hback : ∀ (k : ℕ) v e', (ps.set i p')[k]? = some (.register v e' path) →
      ps[k]? = some (.register v e' path) := by
    intro k v e' hk
    rcases getElem?_set_cases hp hk with ⟨rfl, hnew⟩ | ⟨-, hk⟩
    · rw [hp, hold v e' path hnew.symm, hnew]
    · exact hk
  obtain ⟨hmem, hnone, honce⟩ := h.registering j u e path (hback j u e hj)
  rw [hacc, hat]
  exact ⟨hmem, hnone, fun k v e' hk => honce k v e' (hback k v e' hk)⟩

theorem step_registering (h : RegInv R ps) (hs : RegStep R p R' p') (hp : ps[i]? = some p)
    (j : ℕ) (u : String) (e : ℕ) (path : String)
    (hj : (ps.set i p')[j]? = some (.register u e path)) :
    ⟨path, u, e⟩ ∈ R'.accepted ∧ R'.registeredAt path = none ∧
      ∀ (k : ℕ) v e', (ps.set i p')[k]? = some (.register v e' path) → k = j := by
  cases hs with
  | never => exact absurd (List.mem_of_getElem? hp) h.named
  | stay => exact h.registering_keep hp (fun _ _ _ _ => rfl) rfl rfl j u e hj
  | purge | bump | terminate | select | delete | swept | auth | refused | current | moved | unregister
  | closed => exact h.registering_keep hp (fun _ _ _ hq => by cases hq) rfl rfl j u e hj
  | accept v e' new hfresh =>
      have hknown : ∀ (k : ℕ) v e', ps[k]? ≠ some (.register v e' new) := fun k v e' hk =>
        hfresh (List.mem_map.mpr ⟨_, (h.registering k v e' new hk).1, rfl⟩)
      rcases getElem?_set_cases hp hj with ⟨rfl, hnew⟩ | ⟨hne, hold⟩
      · cases hnew
        refine ⟨List.mem_cons_self, ?_, fun k v e' hk => ?_⟩
        · refine Option.eq_none_iff_forall_not_mem.mpr fun t ht => ?_
          exact hfresh (h.registered _ t ht)
        · rcases getElem?_set_cases hp hk with ⟨rfl, -⟩ | ⟨-, hk⟩
          · rfl
          · exact absurd hk (hknown k v e')
      · obtain ⟨hmem, hnone, honce⟩ := h.registering j u e path hold
        refine ⟨List.mem_cons_of_mem _ hmem, hnone, fun k v e' hk => ?_⟩
        rcases getElem?_set_cases hp hk with ⟨-, hnew⟩ | ⟨-, hk⟩
        · cases hnew
          exact absurd hold (hknown j u e)
        · exact honce k v e' hk
  | register v e' done =>
      rcases getElem?_set_cases hp hj with ⟨-, hnew⟩ | ⟨hne, hj⟩
      · cases hnew
      · obtain ⟨hmem, hnone, honce⟩ := h.registering j u e path hj
        have hpath : path ≠ done := by
          rintro rfl
          exact hne (honce i v e' hp).symm
        refine ⟨hmem, ?_, fun k v e' hk => ?_⟩
        · rw [insertRow_registeredAt hpath]
          exact hnone
        · rcases getElem?_set_cases hp hk with ⟨-, hnew⟩ | ⟨-, hk⟩
          · cases hnew
          · exact honce k v e' hk

theorem step_registered (h : RegInv R ps) (hs : RegStep R p R' p') (hp : ps[i]? = some p)
    (path : String) (t : ℤ) (ht : R'.registeredAt path = some t) :
    path ∈ R'.accepted.map Setup.path := by
  cases hs with
  | never => exact absurd (List.mem_of_getElem? hp) h.named
  | accept u e new hfresh => exact List.mem_cons_of_mem _ (h.registered path t ht)
  | register u e done =>
      by_cases hpath : path = done
      · subst hpath
        exact List.mem_map.mpr ⟨_, (h.registering i u e path hp).1, rfl⟩
      · rw [insertRow_registeredAt hpath] at ht
        exact h.registered path t ht
  | stay | purge | bump | terminate | select | delete | swept | auth | refused | current | moved
  | unregister | closed => exact h.registered path t ht

theorem step_row (h : RegInv R ps) (hs : RegStep R p R' p') (hp : ps[i]? = some p)
    (path : String) (w : WhepRow) (hw : R'.rows path = some w) :
    R'.registeredAt path = some w.createdAt ∧ ∃ e, ⟨path, w.username, e⟩ ∈ R'.accepted := by
  cases hs with
  | never => exact absurd (List.mem_of_getElem? hp) h.named
  | purge => exact h.row path w (Option.filter_eq_some_iff.mp hw).1
  | select u e => exact h.row path w (Option.filter_eq_some_iff.mp hw).1
  | unregister u gone =>
      simp only at hw
      split at hw
      · exact h.row path w (Option.filter_eq_some_iff.mp hw).1
      · exact h.row path w hw
  | accept u e new hfresh =>
      obtain ⟨hat, e', hmem⟩ := h.row path w hw
      exact ⟨hat, e', List.mem_cons_of_mem _ hmem⟩
  | register u e done =>
      by_cases hpath : path = done
      · subst hpath
        obtain rfl : ⟨u, R.clock⟩ = w := by simpa using hw
        exact ⟨by simp, e, (h.registering i u e path hp).1⟩
      · rw [insertRow_rows hpath] at hw
        rw [insertRow_registeredAt hpath]
        exact h.row path w hw
  | stay | bump | terminate | delete | swept | auth | refused | current | moved | closed =>
      exact h.row path w hw

/-- What is still tracked when another session's row, list or `DELETE` is at stake. -/
theorem tracked_move {t : ℤ} (hp : ps[i]? = some p) (h : Tracked R ps path t)
    (hrows : R.rows path ≠ none → Tracked R' (ps.set i p') path t)
    (hclock : R'.clock = R.clock) (hdeletes : ∀ d ∈ R.deletes, d ∈ R'.deletes)
    (hown : p.pending path → p'.pending path ∨ ∃ d ∈ R'.deletes, d.path = path) :
    Tracked R' (ps.set i p') path t := by
  rcases h with hrow | hold | ⟨d, hd, hdp⟩ | hpend
  · exact hrows hrow
  · exact .inr (.inl (hclock ▸ hold))
  · exact .inr (.inr (.inl ⟨d, hdeletes d hd, hdp⟩))
  · by_cases hdone : ∃ d ∈ R'.deletes, d.path = path
    · exact .inr (.inr (.inl hdone))
    · refine .inr (.inr (.inr ?_))
      exact exists_mem_move hp hpend (fun hq => (hown hq).resolve_right hdone) fun _ hq => hq

/-- What becomes of the row of a tracked session in a step that registers none. -/
theorem tracked_step (h : RegInv R ps) (hs : RegStep R p R' p') (hp : ps[i]? = some p)
    {σ : Setup} (hσ : σ ∈ R.accepted) {t : ℤ} (hat : R.registeredAt σ.path = some t)
    (hne : ∀ u e, p ≠ .register u e σ.path) (ht : Tracked R ps σ.path t) :
    Tracked R' (ps.set i p') σ.path t := by
  have hpast : ∀ w, R.rows σ.path = some w → w.createdAt = t ∧ w.username = σ.owner := by
    intro w hw
    obtain ⟨hu, hat'⟩ := h.row_eq hσ hw
    rw [hat] at hat'
    exact ⟨(Option.some.inj hat').symm, hu⟩
  cases hs with
  | never => exact absurd (List.mem_of_getElem? hp) h.named
  | stay => exact tracked_move hp ht .inl rfl (fun _ hd => hd) .inl
  | bump | terminate | swept | auth | refused | current | moved | accept =>
      exact tracked_move hp ht .inl rfl (fun _ hd => hd) (fun hq => by simp [RegPhase.pending] at hq)
  | purge =>
      refine tracked_move hp ht (fun hrow => ?_) rfl (fun _ hd => hd) .inl
      obtain ⟨w, hw⟩ := Option.ne_none_iff_exists'.mp hrow
      by_cases hold : w.createdAt < R.clock - whepSessionMaxAge
      · rw [(hpast w hw).1] at hold
        exact .inr (.inl hold)
      · left
        simpa [hw] using hold
  | select u e =>
      refine tracked_move hp ht (fun hrow => ?_) rfl (fun _ hd => hd) (fun hq => hq.elim)
      obtain ⟨w, hw⟩ := Option.ne_none_iff_exists'.mp hrow
      by_cases hu : w.username = u
      · have hmem : σ.path ∈ R.sessionsOf u := h.mem_sessionsOf.mpr ⟨w, hw, hu⟩
        exact .inr (.inr (.inr ⟨_, mem_set_self hp, hmem⟩))
      · left
        simp [hw, hu]
  | unregister u gone =>
      refine tracked_move hp ht (fun hrow => ?_) rfl (fun _ hd => hd) (fun hq => hq.elim)
      by_cases hgone : gone = σ.path
      · exact .inr (.inr (.inr ⟨_, mem_set_self hp, hgone⟩))
      · left
        simpa [Ne.symm hgone] using hrow
  | delete u e done rest =>
      refine tracked_move hp ht .inl rfl (fun _ hd => List.mem_cons_of_mem _ hd) fun hq => ?_
      rcases List.mem_cons.mp hq with hdone | hrest
      · exact .inr ⟨_, List.mem_cons_self, hdone.symm⟩
      · exact .inl hrest
  | closed done =>
      refine tracked_move hp ht .inl rfl (fun _ hd => List.mem_cons_of_mem _ hd) fun hq => ?_
      exact .inr ⟨_, List.mem_cons_self, hq⟩
  | register u e done =>
      have hpath : σ.path ≠ done := by
        rintro rfl
        exact hne u e rfl
      refine tracked_move hp ht (fun hrow => .inl ?_) rfl (fun _ hd => hd) (fun hq => hq.elim)
      rw [insertRow_rows hpath]
      exact hrow

/-- A registration step at the path of an accepted session is its own. -/
theorem registers_eq (h : RegInv R ps) {u : String} {e : ℕ} {σ : Setup}
    (hp : ps[i]? = some (.register u e σ.path)) (hσ : σ ∈ R.accepted) :
    σ = ⟨σ.path, u, e⟩ :=
  h.unique hσ (h.registering i u e σ.path hp).1 rfl

theorem step_tracked (h : RegInv R ps) (hs : RegStep R p R' p') (hp : ps[i]? = some p)
    (σ : Setup) (hσ : σ ∈ R'.accepted) : .register σ.owner σ.epoch σ.path ∈ ps.set i p' ∨
      ∃ t, R'.registeredAt σ.path = some t ∧ Tracked R' (ps.set i p') σ.path t := by
  by_cases hown : ∃ u e, p = .register u e σ.path
  · -- the registration step of this session
    obtain ⟨u, e, rfl⟩ := hown
    cases hs with
    | stay => exact .inl (by
        have hold : σ = ⟨σ.path, u, e⟩ := h.registers_eq hp hσ
        rw [hold]
        exact mem_set_self hp)
    | register =>
        exact .inr ⟨R.clock, by simp, .inl (by simp)⟩
  · have hne : ∀ u e, p ≠ .register u e σ.path := fun u e hq => hown ⟨u, e, hq⟩
    by_cases hσold : σ ∈ R.accepted
    · rcases h.tracked σ hσold with hreg | ⟨t, hat, ht⟩
      · obtain ⟨j, hj⟩ := List.mem_iff_getElem?.mp hreg
        have hij : i ≠ j := by
          rintro rfl
          rw [hp] at hj
          exact hne _ _ (Option.some.inj hj)
        refine .inl (List.mem_iff_getElem?.mpr ⟨j, ?_⟩)
        rw [getElem?_set_of_get hp, if_neg hij]
        exact hj
      · refine .inr ⟨t, ?_, h.tracked_step hs hp hσold hat hne ht⟩
        cases hs with
        | never => exact absurd (List.mem_of_getElem? hp) h.named
        | register u e done =>
            have hpath : σ.path ≠ done := by
              rintro rfl
              exact hne u e rfl
            rw [insertRow_registeredAt hpath]
            exact hat
        | stay | purge | bump | terminate | select | delete | swept | auth | refused | accept | current
        | moved | unregister | closed => exact hat
    · cases hs with
      | never => exact absurd (List.mem_of_getElem? hp) h.named
      | accept u e new hfresh =>
          obtain rfl : σ = ⟨new, u, e⟩ := by simpa [hσold] using hσ
          exact .inl (mem_set_self hp)
      | stay | purge | bump | terminate | select | delete | swept | auth | refused | register | current
      | moved | unregister | closed => exact absurd hσ hσold

/-- A stale row keeps its sweep when epochs stay and the sweep is not the step. -/
theorem stale_move (hp : ps[i]? = some p) {u : String} (h : ∃ q ∈ ps, q.willSweep R u)
    (hepoch : R'.epoch u = R.epoch u)
    (hown : p.willSweep R u → p'.willSweep R' u) : ∃ q ∈ ps.set i p', q.willSweep R' u := by
  refine exists_mem_move hp h hown fun q hq => ?_
  cases q with
  | sweeps v e => exact hq
  | select v e => exact hq
  | recheck v e =>
      obtain ⟨rfl, hne⟩ := hq
      exact ⟨rfl, hepoch ▸ hne⟩
  | quiet | nameless | closing | relay | register | close => exact hq.elim

theorem step_stale (h : RegInv R ps) (hs : RegStep R p R' p') (hp : ps[i]? = some p)
    (σ : Setup) (hσ : σ ∈ R'.accepted) (hrow : R'.rows σ.path ≠ none)
    (hepoch : R'.epoch σ.owner ≠ some σ.epoch) : ∃ q ∈ ps.set i p', q.willSweep R' σ.owner := by
  cases hs with
  | never => exact absurd (List.mem_of_getElem? hp) h.named
  | stay => exact stale_move hp (h.stale σ hσ hrow hepoch) rfl id
  | purge =>
      have hrow' : R.rows σ.path ≠ none := fun hnone => hrow (by simp [hnone])
      exact stale_move hp (h.stale σ hσ hrow' hepoch) rfl id
  | bump u =>
      by_cases hu : σ.owner = u
      · exact ⟨_, mem_set_self hp, hu.symm⟩
      · have hsame : (R.bumpEpoch u).epoch σ.owner = R.epoch σ.owner := bumpEpoch_epoch hu
        rw [hsame] at hepoch
        exact stale_move hp (h.stale σ hσ hrow hepoch) hsame fun hq => hq.elim
  | select u e =>
      obtain ⟨w, hw⟩ := Option.ne_none_iff_exists'.mp hrow
      obtain ⟨hw, hu⟩ := Option.filter_eq_some_iff.mp hw
      have howner : σ.owner ≠ u := by
        rw [← (h.row_eq hσ hw).1]
        simpa using hu
      have hrow' : R.rows σ.path ≠ none := by simp [hw]
      exact stale_move hp (h.stale σ hσ hrow' hepoch) rfl fun hq => absurd hq.symm howner
  | unregister u gone =>
      have hrow' : R.rows σ.path ≠ none := fun hnone => hrow (by simp [hnone])
      exact stale_move hp (h.stale σ hσ hrow' hepoch) rfl fun hq => hq.elim
  | accept u e new hfresh =>
      rcases List.mem_cons.mp hσ with rfl | hσ
      · obtain ⟨w, hw⟩ := Option.ne_none_iff_exists'.mp hrow
        obtain ⟨-, e', hmem⟩ := h.row _ w hw
        exact absurd (List.mem_map.mpr ⟨_, hmem, rfl⟩) hfresh
      · exact stale_move hp (h.stale σ hσ hrow hepoch) rfl fun hq => hq.elim
  | register u e done =>
      by_cases hpath : σ.path = done
      · -- the row was inserted after the bump: the recheck is still to come
        subst hpath
        have hown : σ = ⟨σ.path, u, e⟩ := h.registers_eq hp hσ
        have howner : u = σ.owner := (congrArg Setup.owner hown).symm
        have hsetup : e = σ.epoch := (congrArg Setup.epoch hown).symm
        refine ⟨_, mem_set_self hp, howner, ?_⟩
        rw [howner, hsetup]
        exact hepoch
      · have hrow' : R.rows σ.path ≠ none := by
          rw [insertRow_rows hpath] at hrow
          exact hrow
        exact stale_move hp (h.stale σ hσ hrow' hepoch) rfl fun hq => hq.elim
  | current u e hcur =>
      refine stale_move hp (h.stale σ hσ hrow hepoch) rfl fun hq => ?_
      exact absurd hcur hq.2
  | terminate u e => exact stale_move hp (h.stale σ hσ hrow hepoch) rfl id
  | moved u e hne => exact stale_move hp (h.stale σ hσ hrow hepoch) rfl fun hq => hq.1
  | delete | swept | auth | refused | closed =>
      exact stale_move hp (h.stale σ hσ hrow hepoch) rfl fun hq => hq.elim

theorem step (h : RegInv R ps) (hs : RegStep R p R' p') (hp : ps[i]? = some p) :
    RegInv R' (ps.set i p') where
  named := h.step_named hs hp
  paths := h.step_paths hs hp
  registering := h.step_registering hs hp
  registered := h.step_registered hs hp
  row := h.step_row hs hp
  tracked := h.step_tracked hs hp
  stale := h.step_stale hs hp

/-! ### Runs -/

theorem enter (h : RegInv R ps) : RegInv R (ps ++ [.quiet]) where
  named := by simpa using h.named
  paths := h.paths
  registering j u e path hj := by
    have hback : ∀ (k : ℕ) v e', (ps ++ [.quiet])[k]? = some (.register v e' path) →
        ps[k]? = some (.register v e' path) := by
      intro k v e' hk
      rcases getElem?_append_cases hk with hk | ⟨-, hk⟩
      · exact hk
      · cases hk
    obtain ⟨hmem, hnone, honce⟩ := h.registering j u e path (hback j u e hj)
    exact ⟨hmem, hnone, fun k v e' hk => honce k v e' (hback k v e' hk)⟩
  registered := h.registered
  row := h.row
  tracked σ hσ := by
    rcases h.tracked σ hσ with hreg | ⟨t, hat, hrow | hold | hdel | ⟨q, hq, hpend⟩⟩
    · exact .inl (List.mem_append_left _ hreg)
    · exact .inr ⟨t, hat, .inl hrow⟩
    · exact .inr ⟨t, hat, .inr (.inl hold)⟩
    · exact .inr ⟨t, hat, .inr (.inr (.inl hdel))⟩
    · exact .inr ⟨t, hat, .inr (.inr (.inr ⟨q, List.mem_append_left _ hq, hpend⟩))⟩
  stale σ hσ hrow hepoch := by
    obtain ⟨q, hq, hsweep⟩ := h.stale σ hσ hrow hepoch
    exact ⟨q, List.mem_append_left _ hq, hsweep⟩

theorem tick (h : RegInv R ps) (ht : RegTick R R') : RegInv R' ps := by
  obtain ⟨clock, hle, rfl⟩ := ht
  refine { h with tracked := fun σ hσ => ?_, stale := fun σ hσ hrow hepoch => ?_ }
  · rcases h.tracked σ hσ with hreg | ⟨t, hat, hrow | hold | hrest⟩
    · exact .inl hreg
    · exact .inr ⟨t, hat, .inl hrow⟩
    · refine .inr ⟨t, hat, .inr (.inl ?_)⟩
      have hlt : t < R.clock - whepSessionMaxAge := hold
      show t < clock - whepSessionMaxAge
      omega
    · exact .inr ⟨t, hat, .inr (.inr hrest)⟩
  · obtain ⟨q, hq, hsweep⟩ := h.stale σ hσ hrow hepoch
    exact ⟨q, hq, by cases q <;> exact hsweep⟩

end RegInv

/-- Where the requests of the pool are. -/
def phases (pool : List Thread) : List RegPhase := pool.map Thread.phase

theorem regInv_boot (users : String → Option User) (now : ℚ) :
    RegInv (boot users now).shared.reg (phases (boot users now).pool) where
  named := List.not_mem_nil
  paths := List.nodup_nil
  registering j u e path hj := by cases hj
  registered path t ht := by cases ht
  row path w hw := by cases hw
  tracked σ hσ := by cases hσ
  stale σ hσ := by cases hσ

theorem regInv_step {cfg : Config} {c c' : Conf Shared Thread} {e : Event Request Choice Env}
    (h : RegInv c.shared.reg (phases c.pool)) (hs : (router cfg).step c e = some c') :
    RegInv c'.shared.reg (phases c'.pool) :=
  (reg_refines cfg).step h.enter (fun _ ha => h.tick ha)
    (fun _ _ _ _ _ _ ht hr => h.step hr (map_phase_get ht)) hs

theorem regInv_run {cfg : Config} {users : String → Option User} {now : ℚ}
    {G : Conf Shared Thread → Event Request Choice Env → Prop} {c : Conf Shared Thread}
    (h : Steps (router cfg).step G (boot users now) c) :
    RegInv c.shared.reg (phases c.pool) :=
  h.invariant (K := fun c => RegInv c.shared.reg (phases c.pool))
    (fun _ _ _ hinv _ hs => regInv_step hinv hs) (regInv_boot users now)

/-! ## Replacement -/

/-- Nothing leaks across a replacement: once all requests are finished, a session whose setup is
    behind the epoch of its account has no row, and a `DELETE` for it was issued unless it is
    older than the age-out. -/
theorem no_session_leaks (cfg : Config) (users : String → Option User) (now : ℚ)
    (c : Conf Shared Thread) (h : Reachable cfg users now c)
    (hdone : ∀ t ∈ c.pool, t.isFinished = true) (σ : Setup) (hσ : σ ∈ c.shared.accepted)
    (current : ℕ) (hcur : c.shared.currentEpoch σ.owner = some current)
    (hold : σ.epoch < current) :
    c.shared.rows σ.path = none ∧
      ∃ t, c.shared.registeredAt σ.path = some t ∧
        (⌊c.shared.session.now⌋ - whepSessionMaxAge ≤ t →
          ∃ d ∈ c.shared.deletes, d.path = σ.path) := by
  have hinv : RegInv c.shared.reg (phases c.pool) := regInv_run h
  have hquiet : ∀ q ∈ phases c.pool, q = .quiet := by
    intro q hq
    obtain ⟨t, ht, rfl⟩ := List.mem_map.mp hq
    exact phase_of_finished (hdone t ht)
  have hrow : c.shared.rows σ.path = none := by
    by_contra hrow
    have hepoch : c.shared.reg.epoch σ.owner ≠ some σ.epoch := by
      intro heq
      have hsame : some current = some σ.epoch := hcur.symm.trans heq
      have := Option.some.inj hsame
      omega
    obtain ⟨q, hq, hsweep⟩ := hinv.stale σ hσ hrow hepoch
    rw [hquiet q hq] at hsweep
    exact hsweep
  refine ⟨hrow, ?_⟩
  rcases hinv.tracked σ hσ with hreg | ⟨t, hat, htracked⟩
  · cases hquiet _ hreg
  · refine ⟨t, hat, fun hyoung => ?_⟩
    rcases htracked with hrow' | haged | hdel | ⟨q, hq, hpend⟩
    · exact absurd hrow hrow'
    · exact absurd haged (not_lt.mpr hyoung)
    · exact hdel
    · rw [hquiet q hq] at hpend
      exact hpend.elim

def goes (i n : ℕ) : List (Event Request Choice Env) := List.replicate n (.sched i (.drawn ""))

def sampleLogin : Event Request Choice Env := .enter (.session (.login ⟨"admin", "secret", false⟩))

/-- The setup of a session under the first login. -/
def sampleOpen : Event Request Choice Env := .enter (.whepOpen (some ⟨"admin", 0, 600, 1⟩))

def samplePath : String := "/live/whep/a"

/-- A second login runs between the streamer's answer to a setup and its registration, so its
    sweep finds nothing and the recheck has to. -/
def sampleCrossing : List (Event Request Choice Env) :=
  sampleLogin :: goes 0 12 ++ [sampleOpen, .sched 1 (.drawn ""), .sched 1 (.accepted samplePath)] ++
    sampleLogin :: goes 2 12 ++ goes 1 3 ++ .sched 1 .closed :: goes 1 2

set_option maxRecDepth 4000 in
theorem no_session_leaks_crossing :
    ∃ c, Reachable sampleConfig sampleUsers 0 c ∧ c.shared.currentEpoch "admin" = some 2 ∧
      ⟨samplePath, "admin", 1⟩ ∈ c.shared.accepted ∧ c.shared.rows samplePath = none ∧
      ∃ t, c.shared.registeredAt samplePath = some t ∧
        (⌊c.shared.session.now⌋ - whepSessionMaxAge ≤ t →
          ∃ d ∈ c.shared.deletes, d.path = samplePath) := by
  let c := exec (router sampleConfig).step (boot sampleUsers 0) sampleCrossing
  have hreach : Reachable sampleConfig sampleUsers 0 c := Steps.exec (by with_unfolding_all decide)
  have hdone : ∀ t ∈ c.pool, t.isFinished = true := by with_unfolding_all decide
  have hσ : ⟨samplePath, "admin", 1⟩ ∈ c.shared.accepted := by with_unfolding_all decide
  have hcur : c.shared.currentEpoch "admin" = some 2 := by with_unfolding_all decide
  exact ⟨c, hreach, hcur, hσ, no_session_leaks sampleConfig sampleUsers 0 c hreach hdone
    ⟨samplePath, "admin", 1⟩ hσ 2 hcur (by decide)⟩

/-! ## Completeness -/

/-- The request has bumped the epoch of the account, or found that it has moved, and its sweep
    is ahead. -/
def Thread.sweepsAhead (u : String) (t : Thread) : Prop := t.phase.sweepsAhead u

/-- The request has taken the row of the session and has its `DELETE` ahead. -/
def Thread.pending (path : String) (t : Thread) : Prop := t.phase.pending path

/-- Thread `i` is about to sweep the row of the session, or the row is gone. -/
structure SweptBy (i : ℕ) (σ : Setup) (t : ℤ) (R : Reg) (ps : List RegPhase) : Prop where
  accepted : σ ∈ R.accepted
  registered : R.registeredAt σ.path = some t
  gone : R.rows σ.path = none ∨ ∃ q, ps[i]? = some q ∧ q.sweepsAhead σ.owner

section Completeness

variable {R R' : Reg} {ps : List RegPhase} {p p' : RegPhase} {i j : ℕ} {σ : Setup} {t : ℤ}

/-- A row once gone does not come back, and the sweep of its account removes it. -/
theorem SweptBy.step (h : SweptBy i σ t R ps) (hinv : RegInv R ps) (hs : RegStep R p R' p')
    (hp : ps[j]? = some p) : SweptBy i σ t R' (ps.set j p') := by
  have hpath : ∀ u e path, p = .register u e path → σ.path ≠ path := by
    rintro u e path rfl rfl
    have hnone := (hinv.registering j u e _ hp).2.1
    rw [h.registered] at hnone
    cases hnone
  have hkeep : (R.rows σ.path = none → R'.rows σ.path = none) →
      (p.sweepsAhead σ.owner → p'.sweepsAhead σ.owner) →
      R'.rows σ.path = none ∨ ∃ q, (ps.set j p')[i]? = some q ∧ q.sweepsAhead σ.owner := by
    intro hnone hown
    rcases h.gone with hrow | ⟨q, hi, hahead⟩
    · exact .inl (hnone hrow)
    · rw [getElem?_set_of_get hp]
      by_cases hji : j = i
      · subst hji
        rw [hp] at hi
        cases hi
        exact .inr ⟨p', if_pos rfl, hown hahead⟩
      · exact .inr ⟨q, (if_neg hji).trans hi, hahead⟩
  cases hs with
  | never => exact absurd (List.mem_of_getElem? hp) hinv.named
  | stay => exact ⟨h.accepted, h.registered, hkeep id id⟩
  | purge => exact ⟨h.accepted, h.registered, hkeep (fun hrow => by simp [hrow]) id⟩
  | unregister u gone =>
      exact ⟨h.accepted, h.registered, hkeep (fun hrow => by simp [hrow]) fun hq => hq.elim⟩
  | accept u e path hfresh =>
      exact ⟨List.mem_cons_of_mem _ h.accepted, h.registered, hkeep id fun hq => hq.elim⟩
  | register u e path =>
      have hne := hpath u e path rfl
      refine ⟨h.accepted, ?_, hkeep (fun hrow => ?_) fun hq => hq.elim⟩
      · rw [insertRow_registeredAt hne]
        exact h.registered
      · rw [insertRow_rows hne]
        exact hrow
  | select u e =>
      by_cases hu : σ.owner = u
      · -- the sweep of this account
        refine ⟨h.accepted, h.registered, .inl ?_⟩
        cases hrow : R.rows σ.path with
        | none => simp [hrow]
        | some w =>
            have howner := (hinv.row_eq h.accepted hrow).1
            simp [hrow, howner, hu]
      · exact ⟨h.accepted, h.registered, hkeep (fun hrow => by simp [hrow])
          fun hq => absurd hq.symm hu⟩
  | terminate u e => exact ⟨h.accepted, h.registered, hkeep id id⟩
  | moved u e hne => exact ⟨h.accepted, h.registered, hkeep id fun hq => hq.elim⟩
  | bump | delete | swept | auth | refused | current | closed =>
      exact ⟨h.accepted, h.registered, hkeep id fun hq => hq.elim⟩

theorem SweptBy.run {cfg : Config} {G : Conf Shared Thread → Event Request Choice Env → Prop}
    {c c' : Conf Shared Thread} (h : SweptBy i σ t c.shared.reg (phases c.pool))
    (hinv : RegInv c.shared.reg (phases c.pool)) (hrun : Steps (router cfg).step G c c') :
    SweptBy i σ t c'.shared.reg (phases c'.pool) := by
  refine hrun.invariant_under (J := fun c => RegInv c.shared.reg (phases c.pool))
    (K := fun c => SweptBy i σ t c.shared.reg (phases c.pool))
    (fun _ _ _ hj _ hs => regInv_step hj hs) (fun a e b hj hk _ hs => ?_) hinv h
  refine (reg_refines cfg).step ⟨hk.accepted, hk.registered, ?_⟩ (fun R' hR => ?_)
    (fun _ _ _ _ _ _ ht hr => hk.step hj hr (map_phase_get ht)) hs
  · rcases hk.gone with hrow | ⟨q, hi, hahead⟩
    · exact .inl hrow
    · have hlt : i < (phases a.pool).length := (List.getElem?_eq_some_iff.mp hi).1
      exact .inr ⟨q, (List.getElem?_append_left hlt).trans hi, hahead⟩
  · obtain ⟨clock, -, rfl⟩ := hR
    exact ⟨hk.accepted, hk.registered, hk.gone⟩

end Completeness

/-- A registered session has its row, is older than the age-out, or a request issued its `DELETE`
    or is about to. -/
theorem row_or_delete {c : Conf Shared Thread} (h : RegInv c.shared.reg (phases c.pool))
    {σ : Setup} (hσ : σ ∈ c.shared.accepted) {t : ℤ}
    (hat : c.shared.registeredAt σ.path = some t) :
    c.shared.rows σ.path = some ⟨σ.owner, t⟩ ∨ t < ⌊c.shared.session.now⌋ - whepSessionMaxAge ∨
      (∃ d ∈ c.shared.deletes, d.path = σ.path) ∨ ∃ q ∈ c.pool, q.pending σ.path := by
  rcases h.tracked σ hσ with hreg | ⟨t', hat', htracked⟩
  · obtain ⟨j, hj⟩ := List.mem_iff_getElem?.mp hreg
    have hnone : c.shared.registeredAt σ.path = none := (h.registering j _ _ _ hj).2.1
    rw [hat] at hnone
    cases hnone
  · have hsame : some t = some t' := hat.symm.trans hat'
    obtain rfl : t = t' := Option.some.inj hsame
    rcases htracked with hrow | haged | hdel | ⟨q, hq, hpend⟩
    · obtain ⟨w, hw⟩ := Option.ne_none_iff_exists'.mp hrow
      obtain ⟨howner, htime⟩ := h.row_eq hσ hw
      have hcreated : t = w.createdAt := Option.some.inj (hat.symm.trans htime)
      left
      rw [← howner, hcreated]
      exact hw
    · exact .inr (.inl haged)
    · exact .inr (.inr (.inl hdel))
    · obtain ⟨v, hv, rfl⟩ := List.mem_map.mp hq
      exact .inr (.inr (.inr ⟨v, hv, hpend⟩))

/-- A registered session has its row until it is older than the age-out or a `whep_close` or a
    sweep takes the row to issue its `DELETE`; and when a sweep of its account is finished, the
    row is gone, by age or with the request that issues its `DELETE`. -/
theorem registry_complete (cfg : Config) (users : String → Option User) (now : ℚ)
    (c : Conf Shared Thread) (h : Reachable cfg users now c) (σ : Setup)
    (hσ : σ ∈ c.shared.accepted) (t : ℤ) (hat : c.shared.registeredAt σ.path = some t) :
    (c.shared.rows σ.path = some ⟨σ.owner, t⟩ ∨
      t < ⌊c.shared.session.now⌋ - whepSessionMaxAge ∨
      (∃ d ∈ c.shared.deletes, d.path = σ.path) ∨ ∃ q ∈ c.pool, q.pending σ.path) ∧
    ∀ c' (i : ℕ) q, Steps (router cfg).step free c c' → c.pool[i]? = some q → q.sweepsAhead σ.owner →
      (∀ q', c'.pool[i]? = some q' → q'.isFinished = true) →
      c'.shared.rows σ.path = none ∧
        (t < ⌊c'.shared.session.now⌋ - whepSessionMaxAge ∨
          (∃ d ∈ c'.shared.deletes, d.path = σ.path) ∨ ∃ q ∈ c'.pool, q.pending σ.path) := by
  have hinv : RegInv c.shared.reg (phases c.pool) := regInv_run h
  refine ⟨row_or_delete hinv hσ hat, ?_⟩
  intro c' i q hrun hi hahead hfin
  have hswept : SweptBy i σ t c'.shared.reg (phases c'.pool) :=
    SweptBy.run ⟨hσ, hat, .inr ⟨q.phase, map_phase_get hi, hahead⟩⟩ hinv hrun
  have hrow : c'.shared.rows σ.path = none := by
    rcases hswept.gone with hrow | ⟨p, hi', hahead'⟩
    · exact hrow
    · rw [phases, List.getElem?_map] at hi'
      obtain ⟨q', hq', rfl⟩ := Option.map_eq_some_iff.mp hi'
      rw [phase_of_finished (hfin q' hq')] at hahead'
      exact hahead'.elim
  refine ⟨hrow, ?_⟩
  have hinv' : RegInv c'.shared.reg (phases c'.pool) := regInv_run (h.trans hrun)
  rcases row_or_delete hinv' hswept.accepted hswept.registered with hrow' | hrest
  · rw [hrow] at hrow'
    cases hrow'
  · exact hrest

/-- A session is set up and a second login has bumped the epoch. -/
def sampleBumped : List (Event Request Choice Env) :=
  sampleLogin :: goes 0 12 ++ [sampleOpen, .sched 1 (.drawn ""), .sched 1 (.accepted samplePath)] ++
    goes 1 2 ++ sampleLogin :: goes 2 9

set_option maxRecDepth 4000 in
theorem registry_complete_swept :
    ∃ c c', Reachable sampleConfig sampleUsers 0 c ∧
      c.shared.rows samplePath = some ⟨"admin", 0⟩ ∧ Steps (router sampleConfig).step free c c' ∧
      c'.shared.rows samplePath = none ∧
        (0 < ⌊c'.shared.session.now⌋ - whepSessionMaxAge ∨
          (∃ d ∈ c'.shared.deletes, d.path = samplePath) ∨
          ∃ q ∈ c'.pool, q.pending samplePath) := by
  let c := exec (router sampleConfig).step (boot sampleUsers 0) sampleBumped
  let c' := exec (router sampleConfig).step c (goes 2 2 ++ .sched 2 (.answered 502) :: goes 2 1)
  have hreach : Reachable sampleConfig sampleUsers 0 c := Steps.exec (by with_unfolding_all decide)
  have hrun : Steps (router sampleConfig).step free c c' :=
    Steps.exec (by with_unfolding_all decide)
  have hσ : ⟨samplePath, "admin", 1⟩ ∈ c.shared.accepted := by with_unfolding_all decide
  have hat : c.shared.registeredAt samplePath = some 0 := by with_unfolding_all decide
  obtain ⟨hrow, hswept⟩ := registry_complete sampleConfig sampleUsers 0 c hreach
    ⟨samplePath, "admin", 1⟩ hσ 0 hat
  have hi : c.pool[2]? = some (.handler (.login ⟨"admin", "secret", false⟩
      (.finished (.tokens ⟨"admin", 0, 600, 2⟩ false none))) (some 2)) := by
    with_unfolding_all decide
  have hfin : ∀ q', c'.pool[2]? = some q' → q'.isFinished = true := by
    have hall : ∀ t ∈ c'.pool, t.isFinished = true := by with_unfolding_all decide
    exact fun q' hq' => hall q' (List.mem_of_getElem? hq')
  exact ⟨c, c', hreach, by with_unfolding_all decide, hrun, hswept c' 2 _ hrun hi rfl hfin⟩

/-- A day after its setup a session is still open; a login purges its row before it sweeps. -/
def sampleLongLived : List (Event Request Choice Env) :=
  sampleLogin :: goes 0 12 ++ [sampleOpen, .sched 1 (.drawn ""), .sched 1 (.accepted samplePath)] ++
    goes 1 2 ++ .env (.tick 86401) :: sampleLogin :: goes 2 12

set_option maxRecDepth 4000 in
/-- The age-out loses a long-lived session: it is open, all requests are finished, the account
    has been replaced, and there is neither a row nor a `DELETE`. -/
theorem registry_loses_long_lived :
    ∃ c, Reachable sampleConfig sampleUsers 0 c ∧ (∀ t ∈ c.pool, t.isFinished = true) ∧
      ⟨samplePath, "admin", 1⟩ ∈ c.shared.accepted ∧
      c.shared.registeredAt samplePath = some 0 ∧ c.shared.isOpen samplePath = true ∧
      c.shared.currentEpoch "admin" = some 2 ∧ c.shared.rows samplePath = none ∧
      c.shared.deletes = [] := by
  let c := exec (router sampleConfig).step (boot sampleUsers 0) sampleLongLived
  have hreach : Reachable sampleConfig sampleUsers 0 c := Steps.exec (by with_unfolding_all decide)
  refine ⟨c, hreach, ?_⟩
  with_unfolding_all decide

end Babycat.Router.Whep
