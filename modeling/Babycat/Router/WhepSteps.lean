/-
  Babycat.Router.WhepSteps

  The router's requests as far as the WHEP registry is concerned.

  `Reg` is what the registry depends on, `RegPhase` where a request is and
  `RegStep` what one step of it can do; the threads of `Router.Whep` take these
  steps (`reg_refines`).  The handlers of `Router.Session` appear with two of
  them only: the purge of aged rows, and the epoch bump that leads to a sweep.
-/

import Babycat.Conc.Phases
import Babycat.Router.Whep
import Mathlib.Tactic.Linarith

namespace Babycat.Router

/-- Account whose epoch the handler has bumped and whose sweep is ahead. -/
def Thread.bumped : Thread → Option String
  | .login b (.mint _) | .login b (.issue _ _) => some b.username
  | .login b (.release (.tokens _ _ _)) | .login b (.finished (.tokens _ _ _)) => some b.username
  | .logout _ (.release u) | .logout _ (.finished u) => if truthy u then u else none
  | .changePassword _ (.release u _) | .changePassword _ (.changed u _) => some u
  | _ => none

end Babycat.Router

namespace Babycat.Router.Whep

open Babycat.Conc

/-! ## Registry steps -/

/-- What the registry depends on. -/
structure Reg where
  epoch : String → Option ℕ
  rows : String → Option WhepRow
  clock : ℤ
  accepted : List Setup
  registeredAt : String → Option ℤ
  deletes : List Delete

def Shared.reg (s : Shared) : Reg where
  epoch := s.session.db.getEpoch
  rows := s.rows
  clock := ⌊s.session.now⌋
  accepted := s.accepted
  registeredAt := s.registeredAt
  deletes := s.deletes

def Reg.sessionsOf (R : Reg) (u : String) : List String :=
  (R.accepted.map Setup.path).filter fun p => (R.rows p).any fun row => decide (row.username = u)

def Reg.bumpEpoch (R : Reg) (u : String) : Reg :=
  { R with epoch := Function.update R.epoch u ((R.epoch u).map (· + 1)) }

/-- The row a registration inserts. -/
def Reg.insertRow (R : Reg) (u path : String) : Reg :=
  { R with
    rows := Function.update R.rows path (some ⟨u, R.clock⟩)
    registeredAt := Function.update R.registeredAt path (some R.clock) }

section Updates

variable {R : Reg} {u v path p : String}

theorem bumpEpoch_epoch_self : (R.bumpEpoch u).epoch u = (R.epoch u).map (· + 1) :=
  Function.update_self ..

theorem bumpEpoch_epoch (h : v ≠ u) : (R.bumpEpoch u).epoch v = R.epoch v :=
  Function.update_of_ne h _ _

@[simp] theorem insertRow_rows_self : (R.insertRow u path).rows path = some ⟨u, R.clock⟩ :=
  Function.update_self ..

@[simp] theorem insertRow_registeredAt_self :
    (R.insertRow u path).registeredAt path = some R.clock :=
  Function.update_self ..

theorem insertRow_rows (h : p ≠ path) : (R.insertRow u path).rows p = R.rows p :=
  Function.update_of_ne h _ _

theorem insertRow_registeredAt (h : p ≠ path) :
    (R.insertRow u path).registeredAt p = R.registeredAt p :=
  Function.update_of_ne h _ _

end Updates

/-- Where a request is, as far as the registry is concerned. -/
inductive RegPhase
  | quiet
  /-- A logout about to bump the epoch of the empty name, which no logout is. -/
  | nameless
  /-- The request has bumped the epoch of `u` to `e`, and its sweep is ahead. -/
  | sweeps (u : String) (e : Option ℕ)
  /-- The sweep is the next step. -/
  | select (u : String) (e : Option ℕ)
  | closing (u : String) (e : Option ℕ) (sessions : List String)
  | relay (u : String) (e : ℕ)
  | register (u : String) (e : ℕ) (path : String)
  | recheck (u : String) (e : ℕ)
  | close (path : String)

/-- One step of a request. -/
inductive RegStep (R : Reg) : RegPhase → Reg → RegPhase → Prop
  | stay {p} : RegStep R p R p
  | never {R' p'} : RegStep R .nameless R' p'
  | purge : RegStep R .quiet
      { R with rows := fun p => (R.rows p).filter fun w =>
          !decide (w.createdAt < R.clock - whepSessionMaxAge) } .quiet
  | bump (u : String) : RegStep R .quiet (R.bumpEpoch u) (.sweeps u ((R.bumpEpoch u).epoch u))
  | terminate (u : String) (e : Option ℕ) : RegStep R (.sweeps u e) R (.select u e)
  | select (u : String) (e : Option ℕ) : RegStep R (.select u e)
      { R with rows := fun p => (R.rows p).filter fun w => !decide (w.username = u) }
      (.closing u e (R.sessionsOf u))
  | delete (u : String) (e : Option ℕ) (path : String) (rest : List String) :
      RegStep R (.closing u e (path :: rest))
        { R with deletes := ⟨path, e, R.epoch u⟩ :: R.deletes } (.closing u e rest)
  | swept (u : String) (e : Option ℕ) : RegStep R (.closing u e []) R .quiet
  | auth (u : String) (e : ℕ) (h : R.epoch u = some e) : RegStep R .quiet R (.relay u e)
  | refused (u : String) (e : ℕ) : RegStep R (.relay u e) R .quiet
  | accept (u : String) (e : ℕ) (path : String) (h : path ∉ R.accepted.map Setup.path) :
      RegStep R (.relay u e) { R with accepted := ⟨path, u, e⟩ :: R.accepted }
        (.register u e path)
  | register (u : String) (e : ℕ) (path : String) : RegStep R (.register u e path)
      (R.insertRow u path) (.recheck u e)
  | current (u : String) (e : ℕ) (h : R.epoch u = some e) : RegStep R (.recheck u e) R .quiet
  | moved (u : String) (e : ℕ) (h : R.epoch u ≠ some e) :
      RegStep R (.recheck u e) R (.select u (some e))
  | unregister (u path : String) : RegStep R .quiet
      { R with rows := fun p =>
          if p = path then (R.rows p).filter fun w => !decide (w.username = u) else R.rows p }
      (.close path)
  | closed (path : String) : RegStep R (.close path)
      { R with deletes := ⟨path, none, none⟩ :: R.deletes } .quiet

/-- The clock goes on. -/
def RegTick (R R' : Reg) : Prop := ∃ clock, R.clock ≤ clock ∧ R' = { R with clock := clock }

/-! ## The threads take them -/

def sweepPhase (u : String) (e : Option ℕ) : SweepPc → RegPhase
  | .select => .select u e
  | .closing sessions => .closing u e sessions
  | .done => .quiet

def OpenPc.phase : OpenPc → RegPhase
  | .relay user => .relay user.sub user.epoch
  | .register user location => .register user.sub user.epoch location
  | .recheck user => .recheck user.sub user.epoch
  | .sweep user pc => sweepPhase user.sub (some user.epoch) pc
  | .auth | .finished _ => .quiet

def handlerPhase (e : Option ℕ) : Router.Thread → RegPhase
  | .logout _ (.bump u) => if truthy (some u) then .quiet else .nameless
  | t => match t.bumped with
      | some u => .sweeps u e
      | none => .quiet

def Thread.phase : Thread → RegPhase
  | .handler t e => handlerPhase e t
  | .terminate _ u e pc => sweepPhase u e pc
  | .whepOpen _ pc => pc.phase
  | .whepClose _ session (.relay _) => .close (sessionPath session)
  | .whepClose _ _ _ => .quiet

section Refines

variable {cfg : Config} {i : ℕ} {s s' : Shared} {k : Choice} {x : String} {e : Option ℕ}
variable {db db' : Router.Shared} {p p' : RegPhase}

/-- A statement that leaves WHEP rows, epochs and clock. -/
structure RegSame (db db' : Router.Shared) : Prop where
  rows : db'.db.whepSessions = db.db.whepSessions
  epoch : ∀ u, db'.db.getEpoch u = db.db.getEpoch u
  now : db'.now = db.now

theorem RegSame.refl (db : Router.Shared) : RegSame db db := ⟨rfl, fun _ => rfl, rfl⟩

theorem RegSame.updateUser (db : Router.Shared) (u : String) {f : User → User}
    (hf : ∀ r, (f r).tokenEpoch = r.tokenEpoch) : RegSame db (db.updateUser u f) :=
  ⟨rfl, fun _ => Db.updateUser_getEpoch _ _ _ _ hf, rfl⟩

theorem RegSame.acquire (h : db.acquire i = some db') : RegSame db db' := by
  simp only [Router.Shared.acquire] at h
  split at h
  · cases h
    exact ⟨rfl, fun _ => rfl, rfl⟩
  · cases h

theorem RegSame.reg (h : RegSame s.session db) : ({ s with session := db } : Shared).reg = s.reg := by
  have hepoch : db.db.getEpoch = s.session.db.getEpoch := funext h.epoch
  simp only [Shared.reg, Shared.rows, h.rows, h.now, hepoch]

theorem RegStep.same (h : RegSame s.session db) (hp : p' = p) :
    RegStep s.reg p ({ s with session := db } : Shared).reg p' := by
  rw [h.reg, hp]
  exact .stay

/-- The epoch a handler's sweep will carry after its next step. -/
def sweepEpoch (e : Option ℕ) (t : Router.Thread) (db : Router.Shared) : Option ℕ :=
  match t.bumps with
  | some u => db.db.getEpoch u
  | none => e

/-- A statement that bumps the epoch of `u` and leaves WHEP rows and clock. -/
theorem bumpEpoch_reg (s : Shared) (db : Router.Shared) (u : String)
    (hrows : db.db.whepSessions = s.session.db.whepSessions) (hnow : db.now = s.session.now)
    (hepoch : ∀ v, db.db.getEpoch v = (s.session.db.bumpEpoch u).getEpoch v) :
    RegStep s.reg .quiet ({ s with session := db } : Shared).reg (.sweeps u (db.db.getEpoch u)) := by
  have hreg : ({ s with session := db } : Shared).reg = s.reg.bumpEpoch u := by
    have hupd : db.db.getEpoch = (s.reg.bumpEpoch u).epoch := by
      funext v
      rw [hepoch, Db.bumpEpoch_getEpoch]
      by_cases hv : v = u
      · rw [if_pos hv, hv, bumpEpoch_epoch_self]
        rfl
      · rw [if_neg hv, bumpEpoch_epoch hv]
        rfl
    simp only [Shared.reg, Shared.rows, hrows, hnow, hupd]
    rfl
  have hu : db.db.getEpoch u = (s.reg.bumpEpoch u).epoch u := by
    rw [← hreg]
    rfl
  rw [hreg, hu]
  exact .bump u

theorem loginNext_reg {b : LoginIn} {pc pc' : LoginPc}
    (h : loginNext cfg i s.session b pc x = some (db, pc')) :
    RegStep s.reg (handlerPhase e (.login b pc)) ({ s with session := db } : Shared).reg
      (handlerPhase (sweepEpoch e (.login b pc) db) (.login b pc')) := by
  cases pc with
  | purge =>
      cases h
      exact .purge
  | read =>
      simp only [loginNext] at h
      split at h
      · cases h
        exact .same (.refl _) rfl
      · split at h
        · cases h
          exact .same (.refl _) rfl
        · split at h
          · cases h
            exact .same (.refl _) rfl
          · cases h
            exact .same (.refl _) rfl
  | failRead =>
      simp only [loginNext] at h
      split at h
      · cases h
        exact .same (.refl _) rfl
      · cases h
        exact .same (.refl _) rfl
  | failWrite count =>
      simp only [loginNext] at h
      split at h
      · cases h
        exact .same (.updateUser _ _ fun _ => rfl) rfl
      · cases h
        exact .same (.updateUser _ _ fun _ => rfl) rfl
  | reset v =>
      cases h
      exact .same (.updateUser _ _ fun _ => rfl) rfl
  | acquire v =>
      obtain ⟨db', hacq, hdb⟩ := Option.map_eq_some_iff.mp h
      cases hdb
      exact .same (.acquire hacq) rfl
  | revokeAll v =>
      cases h
      exact .same ⟨rfl, fun _ => rfl, rfl⟩ rfl
  | bump v =>
      cases h
      exact bumpEpoch_reg s (s.session.bumpLogin b.username ⟨i, v.pw⟩) b.username rfl rfl
        fun _ => rfl
  | mint v =>
      cases h
      exact .same ⟨rfl, fun _ => rfl, rfl⟩ rfl
  | issue v access =>
      simp only [loginNext] at h
      split at h
      · split at h
        · cases h
        · cases h
          exact .same ⟨rfl, fun _ => rfl, rfl⟩ rfl
      · cases h
        exact .same (.refl _) rfl
  | release r =>
      cases h
      exact .same ⟨rfl, fun _ => rfl, rfl⟩ (by cases r <;> rfl)
  | finished r => cases h

theorem refreshNext_reg {b : RefreshIn} {pc pc' : RefreshPc}
    (h : refreshNext cfg i s.session b pc x = some (db, pc')) :
    RegStep s.reg .quiet ({ s with session := db } : Shared).reg .quiet := by
  cases pc with
  | acquire =>
      obtain ⟨db', hacq, hdb⟩ := Option.map_eq_some_iff.mp h
      cases hdb
      exact .same (.acquire hacq) rfl
  | purge =>
      cases h
      exact .purge
  | select =>
      simp only [refreshNext] at h
      split at h
      · cases h
        exact .same (.refl _) rfl
      · split at h
        · cases h
          exact .same (.refl _) rfl
        · cases h
          exact .same (.refl _) rfl
  | rotate u =>
      simp only [refreshNext] at h
      split at h
      · split at h
        · cases h
        · cases h
          exact .same ⟨rfl, fun _ => rfl, rfl⟩ rfl
      · cases h
        exact .same (.refl _) rfl
  | mint u token expiresAt =>
      cases h
      exact .same ⟨rfl, fun _ => rfl, rfl⟩ rfl
  | release r =>
      cases h
      exact .same ⟨rfl, fun _ => rfl, rfl⟩ rfl
  | finished r => cases h

/-- A logout bumps the epoch of a name only. -/
theorem afterIdentify_phase (b : LogoutIn) (u : Option String) :
    handlerPhase e (.logout b (afterIdentify u)) = .quiet := by
  cases u with
  | none => rfl
  | some u =>
      by_cases hu : truthy (some u) = true
      · simp [afterIdentify, hu, handlerPhase]
      · simp [afterIdentify, hu, handlerPhase, Router.Thread.bumped]

theorem afterRevoke_phase (b : LogoutIn) (u : Option String) :
    handlerPhase e (.logout b (afterRevoke u)) = .quiet := by
  simp only [afterRevoke]
  split
  · exact afterIdentify_phase b u
  · rfl

theorem logoutNext_reg {b : LogoutIn} {pc pc' : LogoutPc}
    (h : logoutNext cfg i s.session b pc = some (db, pc')) :
    RegStep s.reg (handlerPhase e (.logout b pc)) ({ s with session := db } : Shared).reg
      (handlerPhase (sweepEpoch e (.logout b pc) db) (.logout b pc')) := by
  cases pc with
  | acquire =>
      obtain ⟨db', hacq, hdb⟩ := Option.map_eq_some_iff.mp h
      cases hdb
      refine .same (.acquire hacq) ?_
      simp only [logoutStart]
      split
      · split <;> rfl
      · rfl
  | select token =>
      cases h
      exact .same (.refl _) rfl
  | revoke token owner =>
      cases h
      exact .same ⟨rfl, fun _ => rfl, rfl⟩ (afterRevoke_phase b _)
  | bearer u =>
      simp only [logoutNext] at h
      split at h
      · cases h
        exact .same (.refl _) (afterIdentify_phase b _)
      · split at h
        · cases h
          exact .same (.refl _) (afterIdentify_phase b _)
        · cases h
          exact .same (.refl _) (afterIdentify_phase b _)
  | bump u =>
      cases h
      by_cases hu : truthy (some u) = true
      · have hnext := bumpEpoch_reg s (s.session.bumpEpoch u) u rfl rfl fun _ => rfl
        simpa [handlerPhase, Router.Thread.bumped, sweepEpoch, Router.Thread.bumps, hu] using hnext
      · have hphase : handlerPhase e (.logout b (.bump u)) = .nameless := by simp [handlerPhase, hu]
        rw [hphase]
        exact .never
  | release u =>
      cases h
      exact .same ⟨rfl, fun _ => rfl, rfl⟩ rfl
  | finished u => cases h

theorem changeNext_reg {b : ChangePasswordIn} {pc pc' : ChangePc}
    (h : changeNext cfg i s.session b pc x = some (db, pc')) :
    RegStep s.reg (handlerPhase e (.changePassword b pc)) ({ s with session := db } : Shared).reg
      (handlerPhase (sweepEpoch e (.changePassword b pc) db) (.changePassword b pc')) := by
  cases pc with
  | auth =>
      simp only [changeNext] at h
      split at h
      · cases h
        exact .same (.refl _) rfl
      · cases h
        exact .same (.refl _) rfl
  | read u =>
      simp only [changeNext] at h
      split at h
      · cases h
        exact .same (.refl _) rfl
      · split at h
        · cases h
          exact .same (.refl _) rfl
        · cases h
          exact .same (.refl _) rfl
  | update u v =>
      cases h
      refine .same ⟨rfl, fun n => ?_, rfl⟩ rfl
      exact Db.updateUser_getEpoch _ _ _ _ fun _ => rfl
  | acquire u ch =>
      obtain ⟨db', hacq, hdb⟩ := Option.map_eq_some_iff.mp h
      cases hdb
      exact .same (.acquire hacq) rfl
  | revokeAll u ch =>
      cases h
      exact .same ⟨rfl, fun _ => rfl, rfl⟩ rfl
  | bump u ch =>
      cases h
      exact bumpEpoch_reg s (s.session.bumpClosing u ch.replaced) u rfl rfl fun _ => rfl
  | release u ch =>
      cases h
      exact .same ⟨rfl, fun _ => rfl, rfl⟩ rfl
  | changed u ch => cases h
  | refused r => cases h

theorem handlerNext_reg {t : Router.Thread} {t' : Thread}
    (h : handlerNext cfg i s t e k = some (s', t')) :
    RegStep s.reg (handlerPhase e t) s'.reg t'.phase := by
  obtain ⟨⟨db, u⟩, hn, hs⟩ := Option.map_eq_some_iff.mp h
  cases hs
  cases t with
  | login b pc =>
      obtain ⟨⟨db', pc'⟩, hpc, hu⟩ := Option.map_eq_some_iff.mp hn
      cases hu
      exact loginNext_reg hpc
  | refresh b pc =>
      obtain ⟨⟨db', pc'⟩, hpc, hu⟩ := Option.map_eq_some_iff.mp hn
      cases hu
      exact refreshNext_reg hpc
  | logout b pc =>
      obtain ⟨⟨db', pc'⟩, hpc, hu⟩ := Option.map_eq_some_iff.mp hn
      cases hu
      exact logoutNext_reg hpc
  | changePassword b pc =>
      obtain ⟨⟨db', pc'⟩, hpc, hu⟩ := Option.map_eq_some_iff.mp hn
      cases hu
      exact changeNext_reg hpc

theorem sweepNext_reg {u : String} {pc pc' : SweepPc} (h : sweepNext s u e pc k = some (s', pc')) :
    RegStep s.reg (sweepPhase u e pc) s'.reg (sweepPhase u e pc') := by
  cases pc with
  | select =>
      cases h
      exact .select u e
  | closing sessions =>
      cases sessions with
      | nil =>
          cases h
          exact .swept u e
      | cons path rest =>
          cases k with
          | closed =>
              cases h
              exact .delete u e path rest
          | answered status =>
              cases h
              exact .delete u e path rest
          | drawn x => cases h
          | accepted location => cases h
  | done => cases h

/-- `require_auth` hands out current claims. -/
theorem epoch_of_requireAuth {bearer : Option Claims} {user : Claims}
    (h : s.session.db.requireAuth s.session.signed s.session.now bearer = .ok user) :
    s.reg.epoch user.sub = some user.epoch := by
  cases bearer with
  | none => cases h
  | some token =>
      obtain ⟨rfl, -, -, hepoch⟩ := Db.requireAuth_ok_iff.mp h
      exact hepoch

theorem openNext_reg {bearer : Option Claims} {pc pc' : OpenPc}
    (h : openNext s bearer pc k = some (s', pc')) : RegStep s.reg pc.phase s'.reg pc'.phase := by
  cases pc with
  | auth =>
      simp only [openNext] at h
      split at h
      · cases h
        exact .stay
      · rename_i user hauth
        cases h
        exact .auth user.sub user.epoch (epoch_of_requireAuth hauth)
  | relay user =>
      cases k with
      | accepted location =>
          simp only [openNext] at h
          split at h
          · cases h
          · rename_i hfresh
            cases h
            exact .accept user.sub user.epoch location fun hmem => hfresh (.inr hmem)
      | answered status =>
          cases h
          exact .refused user.sub user.epoch
      | drawn x => cases h
      | closed => cases h
  | register user location =>
      cases h
      exact .register user.sub user.epoch location
  | recheck user =>
      simp only [openNext] at h
      split at h
      · rename_i hmoved
        cases h
        exact .moved user.sub user.epoch hmoved
      · rename_i hcurrent
        cases h
        exact .current user.sub user.epoch (not_not.mp hcurrent)
  | sweep user pc =>
      cases pc with
      | done =>
          cases h
          exact .stay
      | select =>
          cases h
          exact .select user.sub (some user.epoch)
      | closing sessions =>
          obtain ⟨⟨s₁, pc₁⟩, hsweep, hr⟩ := Option.map_eq_some_iff.mp h
          cases hr
          exact sweepNext_reg hsweep
  | finished r => cases h

theorem closeNext_reg {bearer : Option Claims} {session : String} {pc pc' : ClosePc}
    (h : closeNext s bearer session pc k = some (s', pc')) :
    RegStep s.reg (Thread.whepClose bearer session pc).phase s'.reg
      (Thread.whepClose bearer session pc').phase := by
  cases pc with
  | auth =>
      simp only [closeNext] at h
      split at h
      · cases h
        exact .stay
      · cases h
        exact .stay
  | unregister user =>
      cases h
      exact .unregister user.sub (sessionPath session)
  | relay user =>
      cases k with
      | closed =>
          cases h
          exact .closed (sessionPath session)
      | answered status =>
          cases h
          exact .closed (sessionPath session)
      | drawn x => cases h
      | accepted location => cases h
  | finished r => cases h

/-- The account a finished handler goes on to sweep is the one it has bumped. -/
theorem handlerPhase_of_terminates {t : Router.Thread} {u : String} (h : t.terminates = some u) :
    handlerPhase e t = .sweeps u e := by
  have hb : t.bumped = some u := by
    revert h
    simp only [Router.Thread.terminates]
    split
    · exact id
    · exact id
    · exact id
    · intro h
      cases h
  cases t with
  | logout b pc =>
      cases pc with
      | bump u => cases hb
      | acquire | select | revoke | bearer | release | finished => simp only [handlerPhase, hb]
  | login | refresh | changePassword => simp only [handlerPhase, hb]

theorem next_reg {t t' : Thread} (h : next cfg i s t k = some (s', t')) :
    RegStep s.reg t.phase s'.reg t'.phase := by
  cases t with
  | handler t e =>
      simp only [next] at h
      split at h
      · rename_i u hu
        cases h
        have hphase : Thread.phase (.handler t e) = .sweeps u e := handlerPhase_of_terminates hu
        rw [hphase]
        exact .terminate u e
      · exact handlerNext_reg h
  | terminate t u e pc =>
      obtain ⟨⟨s₁, pc₁⟩, hsweep, hr⟩ := Option.map_eq_some_iff.mp h
      cases hr
      exact sweepNext_reg hsweep
  | whepOpen bearer pc =>
      obtain ⟨⟨s₁, pc₁⟩, hopen, hr⟩ := Option.map_eq_some_iff.mp h
      cases hr
      exact openNext_reg hopen
  | whepClose bearer session pc =>
      obtain ⟨⟨s₁, pc₁⟩, hclose, hr⟩ := Option.map_eq_some_iff.mp h
      cases hr
      exact closeNext_reg hclose

theorem env_reg {v : Env} (h : env s v = some s') : RegTick s.reg s'.reg := by
  cases v with
  | tick d =>
      obtain ⟨session, ht, rfl⟩ := Option.map_eq_some_iff.mp h
      simp only [tick] at ht
      split at ht
      · rename_i hd
        cases ht
        exact ⟨⌊s.session.now + d⌋, Int.floor_le_floor (by linarith), rfl⟩
      · cases ht
  | drop path =>
      cases h
      exact ⟨⌊s.session.now⌋, le_refl _, rfl⟩

theorem reg_refines (cfg : Config) :
    Phases (router cfg) Shared.reg Thread.phase .quiet (fun _ _ => RegStep) RegTick where
  enter r := by
    cases r with
    | session r => cases r <;> rfl
    | whepOpen | whepClose => rfl
  next hn := next_reg hn
  env hx := env_reg hx

/-- A finished request has nothing left to do with the registry. -/
theorem phase_of_finished {t : Thread} (h : t.isFinished = true) : t.phase = .quiet := by
  cases t with
  | handler t e =>
      obtain ⟨hfin, hterm⟩ := Bool.and_eq_true_iff.mp h
      have hnone : t.terminates = none := Option.isNone_iff_eq_none.mp hterm
      cases t with
      | login b pc =>
          cases pc with
          | finished r =>
              cases r with
              | tokens access mustChange refresh => cases hnone
              | ok | error => rfl
          | purge | read | failRead | failWrite | reset | acquire | revokeAll | bump | mint | issue
          | release => cases hfin
      | refresh b pc => rfl
      | logout b pc =>
          cases pc with
          | finished u =>
              have hbumped : (Router.Thread.logout b (.finished u)).bumped = none := hnone
              simp only [Thread.phase, handlerPhase, hbumped]
          | acquire | select | revoke | bearer | bump | release => cases hfin
      | changePassword b pc =>
          cases pc with
          | changed u ch => cases hnone
          | refused r => rfl
          | auth | read | update | acquire | revokeAll | bump | release => cases hfin
  | terminate t u e pc =>
      cases pc with
      | done => rfl
      | select | closing => cases h
  | whepOpen bearer pc =>
      cases pc with
      | finished r => rfl
      | auth | relay | register | recheck | sweep => cases h
  | whepClose bearer session pc =>
      cases pc with
      | finished r => rfl
      | auth | unregister | relay => cases h

end Refines

end Babycat.Router.Whep
