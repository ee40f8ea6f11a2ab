/-
  Babycat.Router.SessionLock

  What the statements of the session requests do, inside and outside
  `SESSION_LOCK`.

  Outside the lock a request only reads, purges, counts failed logins and
  replaces the password row; none of this creates a credential or revives one
  (`Quiet`).  Inside it, the lock makes the statements of one request a
  sequence (`session_mutex`).  `Effect` lists what one step can do to the shared
  state, and `Decay` is what all of it has in common: a token that was issued
  and is dead stays dead.
-/

import Babycat.Conc.Mutex
import Babycat.Router.Session

namespace Babycat.Router

open Babycat.Conc

/-- The thread is inside `with SESSION_LOCK:`. -/
def Thread.inLock : Thread → Bool
  | .login _ (.revokeAll _) | .login _ (.bump _) | .login _ (.mint _)
  | .login _ (.issue _ _) | .login _ (.release _) => true
  | .refresh _ .purge | .refresh _ .select | .refresh _ (.rotate _)
  | .refresh _ (.mint _ _ _) | .refresh _ (.release _) => true
  | .logout _ (.select _) | .logout _ (.revoke _ _) | .logout _ (.bearer _)
  | .logout _ (.bump _) | .logout _ (.release _) => true
  | .changePassword _ (.revokeAll _ _) | .changePassword _ (.bump _ _)
  | .changePassword _ (.release _ _) => true
  | _ => false

/-- What happens outside the lock to the credentials: nothing but time and purges. -/
structure Quiet (s s' : Shared) : Prop where
  rows : ∀ h row, s'.db.refreshTokens h = some row → s.db.refreshTokens h = some row
  kept : ∀ h row, s.db.refreshTokens h = some row → row.revoked = false →
    ⌊s'.now⌋ ≤ row.expiresAt → s'.db.refreshTokens h = some row
  epoch : ∀ u, s'.db.getEpoch u = s.db.getEpoch u
  minted : s'.minted = s.minted
  now : s.now ≤ s'.now
  issued : s'.hist.issued = s.hist.issued
  origin : s'.hist.origin = s.hist.origin
  lastLogin : s'.hist.lastLogin = s.hist.lastLogin
  exchanged : s'.hist.exchanged = s.hist.exchanged
  closed : s'.hist.closed = s.hist.closed
  pwVersion : ∀ u, s.hist.pwVersion u ≤ s'.hist.pwVersion u

namespace Quiet

theorem refl (s : Shared) : Quiet s s :=
  ⟨fun _ _ h => h, fun _ _ h _ _ => h, fun _ => rfl, rfl, le_refl _, rfl, rfl, rfl, rfl, rfl,
    fun _ => le_refl _⟩

theorem purgeExpired (s : Shared) : Quiet s s.purgeExpired :=
  { Quiet.refl s with
    rows := fun _ _ h => Db.purgeExpired_row h
    kept := fun _ _ h hu hx => Db.purgeExpired_kept h hu hx }

theorem updateUser (s : Shared) (u : String) (f : User → User)
    (hf : ∀ r, (f r).tokenEpoch = r.tokenEpoch) : Quiet s (s.updateUser u f) :=
  { Quiet.refl s with epoch := fun n => Db.updateUser_getEpoch s.db n u f hf }

theorem replacePassword (s : Shared) (cfg : Config) (u p salt : String) :
    Quiet s (s.replacePassword cfg u p salt) :=
  { Quiet.refl s with
    epoch := fun n => Db.updateUser_getEpoch s.db n u _ fun _ => rfl
    pwVersion := fun n => by
      by_cases hn : n = u
      · subst hn; simp [Shared.replacePassword]
      · simp [Shared.replacePassword, Function.update_of_ne hn] }

theorem acquire {s s' : Shared} {i : ℕ} (h : s.acquire i = some s') : Quiet s s' := by
  simp only [Shared.acquire] at h
  split at h
  · obtain rfl := Option.some.inj h; exact { Quiet.refl s with }
  · cases h

theorem release (s : Shared) : Quiet s s.release := { Quiet.refl s with }

theorem tick {s s' : Shared} {d : ℚ} (h : tick s d = some s') : Quiet s s' := by
  simp only [Router.tick] at h
  split at h
  · rename_i hd
    obtain rfl := Option.some.inj h
    exact { Quiet.refl s with
      now := le_add_of_nonneg_right hd
      kept := fun _ _ h _ _ => h }
  · cases h

end Quiet

theorem acquire_some {s s' : Shared} {i : ℕ} (h : s.acquire i = some s') :
    s.sessionLock = none ∧ s' = { s with sessionLock := some i } := by
  simp only [Shared.acquire] at h
  split at h
  · rename_i hl; exact ⟨hl, (Option.some.inj h).symm⟩
  · cases h

/-! ## Steps outside the lock -/

/-- Where a thread that waits for the lock stands once it has it. -/
def Thread.locked : Thread → Option Thread
  | .login b (.acquire v) => some (.login b (.revokeAll v))
  | .refresh b .acquire => some (.refresh b .purge)
  | .logout b .acquire => some (.logout b (logoutStart b))
  | .changePassword b (.acquire u ch) => some (.changePassword b (.revokeAll u ch))
  | _ => none

section Outside

variable {cfg : Config} {i : ℕ} {s s' : Shared} {drawn : String} {t' : Thread}

/-! A step of a thread is a step of its handler. -/

theorem next_login {b : LoginIn} {pc : LoginPc}
    (hn : next cfg i s (.login b pc) drawn = some (s', t')) :
    ∃ pc', loginNext cfg i s b pc drawn = some (s', pc') ∧ t' = .login b pc' := by
  obtain ⟨⟨a, pc'⟩, ha, heq⟩ := Option.map_eq_some_iff.mp hn
  cases heq
  exact ⟨pc', ha, rfl⟩

theorem next_refresh {b : RefreshIn} {pc : RefreshPc}
    (hn : next cfg i s (.refresh b pc) drawn = some (s', t')) :
    ∃ pc', refreshNext cfg i s b pc drawn = some (s', pc') ∧ t' = .refresh b pc' := by
  obtain ⟨⟨a, pc'⟩, ha, heq⟩ := Option.map_eq_some_iff.mp hn
  cases heq
  exact ⟨pc', ha, rfl⟩

theorem next_logout {b : LogoutIn} {pc : LogoutPc} {k : String}
    (hn : next cfg i s (.logout b pc) k = some (s', t')) :
    ∃ pc', logoutNext cfg i s b pc = some (s', pc') ∧ t' = .logout b pc' := by
  obtain ⟨⟨a, pc'⟩, ha, heq⟩ := Option.map_eq_some_iff.mp hn
  cases heq
  exact ⟨pc', ha, rfl⟩

theorem next_changePassword {b : ChangePasswordIn} {pc : ChangePc}
    (hn : next cfg i s (.changePassword b pc) drawn = some (s', t')) :
    ∃ pc', changeNext cfg i s b pc drawn = some (s', pc') ∧ t' = .changePassword b pc' := by
  obtain ⟨⟨a, pc'⟩, ha, heq⟩ := Option.map_eq_some_iff.mp hn
  cases heq
  exact ⟨pc', ha, rfl⟩

theorem loginNext_outside {b : LoginIn} {pc pc' : LoginPc}
    (hn : loginNext cfg i s b pc drawn = some (s', pc'))
    (ho : (Thread.login b pc).inLock = false) :
    (Quiet s s' ∧ s'.sessionLock = s.sessionLock ∧ (Thread.login b pc').inLock = false) ∨
    (s.acquire i = some s' ∧ (Thread.login b pc).locked = some (.login b pc')) := by
  cases pc with
  | purge =>
      cases hn
      exact .inl ⟨Quiet.purgeExpired s, rfl, rfl⟩
  | read =>
      -- whatever the read decides, it leaves the state and stays outside
      have hs : s' = s ∧ (Thread.login b pc').inLock = false := by
        simp only [loginNext] at hn
        split at hn
        · cases hn; exact ⟨rfl, rfl⟩
        · split at hn
          · cases hn; exact ⟨rfl, rfl⟩
          · split at hn <;>
              (cases hn; exact ⟨rfl, rfl⟩)
      obtain ⟨rfl, hpc⟩ := hs
      exact .inl ⟨Quiet.refl s', rfl, hpc⟩
  | failRead =>
      simp only [loginNext] at hn
      split at hn <;>
        (cases hn
         exact .inl ⟨Quiet.refl _, rfl, rfl⟩)
  | failWrite count =>
      simp only [loginNext] at hn
      split at hn <;>
        (cases hn
         exact .inl ⟨Quiet.updateUser s _ _ fun _ => rfl, rfl, rfl⟩)
  | reset v =>
      cases hn
      exact .inl ⟨Quiet.updateUser s _ _ fun _ => rfl, rfl, rfl⟩
  | acquire v =>
      obtain ⟨a, ha, heq⟩ := Option.map_eq_some_iff.mp hn
      obtain ⟨rfl, rfl⟩ := Prod.mk.inj heq
      exact .inr ⟨ha, rfl⟩
  | finished r => cases hn
  | revokeAll | bump | mint | issue | release => cases ho

theorem changeNext_outside {b : ChangePasswordIn} {pc pc' : ChangePc}
    (hn : changeNext cfg i s b pc drawn = some (s', pc'))
    (ho : (Thread.changePassword b pc).inLock = false) :
    (Quiet s s' ∧ s'.sessionLock = s.sessionLock ∧
      (Thread.changePassword b pc').inLock = false) ∨
    (s.acquire i = some s' ∧
      (Thread.changePassword b pc).locked = some (.changePassword b pc')) := by
  cases pc with
  | auth =>
      simp only [changeNext] at hn
      split at hn <;>
        (cases hn
         exact .inl ⟨Quiet.refl _, rfl, rfl⟩)
  | read u =>
      have hs : s' = s ∧ (Thread.changePassword b pc').inLock = false := by
        simp only [changeNext] at hn
        split at hn
        · cases hn; exact ⟨rfl, rfl⟩
        · split at hn <;>
            (cases hn; exact ⟨rfl, rfl⟩)
      obtain ⟨rfl, hpc⟩ := hs
      exact .inl ⟨Quiet.refl s', rfl, hpc⟩
  | update u v =>
      cases hn
      exact .inl ⟨Quiet.replacePassword s cfg u b.newPassword drawn, rfl, rfl⟩
  | acquire u ch =>
      obtain ⟨a, ha, heq⟩ := Option.map_eq_some_iff.mp hn
      obtain ⟨rfl, rfl⟩ := Prod.mk.inj heq
      exact .inr ⟨ha, rfl⟩
  | changed u ch => cases hn
  | refused r => cases hn
  | revokeAll | bump | release => cases ho

/-- What a step of a thread outside the lock can do. -/
theorem next_outside {t t' : Thread} (hn : next cfg i s t drawn = some (s', t'))
    (ho : t.inLock = false) :
    (Quiet s s' ∧ s'.sessionLock = s.sessionLock ∧ t'.inLock = false) ∨
    (s.acquire i = some s' ∧ t.locked = some t') := by
  cases t with
  | login b pc =>
      obtain ⟨pc', ha, rfl⟩ := next_login hn
      exact loginNext_outside ha ho
  | refresh b pc =>
      obtain ⟨pc', ha, rfl⟩ := next_refresh hn
      cases pc with
      | acquire =>
          obtain ⟨x, hx, heq⟩ := Option.map_eq_some_iff.mp ha
          obtain ⟨rfl, rfl⟩ := Prod.mk.inj heq
          exact .inr ⟨hx, rfl⟩
      | finished r => cases ha
      | purge | select | rotate | mint | release => cases ho
  | logout b pc =>
      obtain ⟨pc', ha, rfl⟩ := next_logout hn
      cases pc with
      | acquire =>
          obtain ⟨x, hx, heq⟩ := Option.map_eq_some_iff.mp ha
          obtain ⟨rfl, rfl⟩ := Prod.mk.inj heq
          exact .inr ⟨hx, rfl⟩
      | finished u => cases ha
      | select | revoke | bearer | bump | release => cases ho
  | changePassword b pc =>
      obtain ⟨pc', ha, rfl⟩ := next_changePassword hn
      exact changeNext_outside ha ho

theorem inLock_logoutStart (b : LogoutIn) : (Thread.logout b (logoutStart b)).inLock = true := by
  simp only [logoutStart]
  split
  · split <;> rfl
  · rfl

theorem inLock_of_locked {t t' : Thread} (h : t.locked = some t') : t'.inLock = true := by
  cases t with
  | login b pc => cases pc <;> cases h; rfl
  | refresh b pc => cases pc <;> cases h; rfl
  | logout b pc => cases pc <;> cases h; exact inLock_logoutStart b
  | changePassword b pc => cases pc <;> cases h; rfl

theorem inLock_afterIdentify (b : LogoutIn) (u : Option String) :
    (Thread.logout b (afterIdentify u)).inLock = true := by
  cases u with
  | none => rfl
  | some u =>
      simp only [afterIdentify]
      split <;> rfl

theorem inLock_afterRevoke (b : LogoutIn) (u : Option String) :
    (Thread.logout b (afterRevoke u)).inLock = true := by
  simp only [afterRevoke]
  split
  · exact inLock_afterIdentify b u
  · rfl

/-- Looking at the bearer token only reads, and ends in `afterIdentify`. -/
theorem logoutNext_bearer {b : LogoutIn} {u : Option String} {pc' : LogoutPc}
    (hn : logoutNext cfg i s b (.bearer u) = some (s', pc')) :
    s' = s ∧ (pc' = afterIdentify u ∨ ∃ claims, b.bearer = some claims ∧
      accessLive s claims = true ∧ pc' = afterIdentify (some claims.sub)) := by
  simp only [logoutNext] at hn
  split at hn
  · cases hn; exact ⟨rfl, .inl rfl⟩
  · rename_i claims hv
    split at hn
    · rename_i he
      cases hn
      obtain ⟨token, hb, hv⟩ := Option.bind_eq_some_iff.mp hv
      obtain ⟨rfl, hsigned, hx⟩ := verifyToken_eq_some.mp hv
      exact ⟨rfl, .inr ⟨token, hb, accessLive_iff.mpr ⟨hsigned, hx, he.symm⟩, rfl⟩⟩
    · cases hn; exact ⟨rfl, .inl rfl⟩

theorem logoutNext_inside {b : LogoutIn} {pc pc' : LogoutPc}
    (hn : logoutNext cfg i s b pc = some (s', pc')) (hin : (Thread.logout b pc).inLock = true) :
    (s'.sessionLock = s.sessionLock ∧ (Thread.logout b pc').inLock = true) ∨
    (s' = s.release ∧ (Thread.logout b pc').inLock = false) := by
  cases pc with
  | select token =>
      cases hn
      exact .inl ⟨rfl, rfl⟩
  | revoke token owner =>
      cases hn
      exact .inl ⟨rfl, inLock_afterRevoke b _⟩
  | bearer u =>
      obtain ⟨rfl, rfl | ⟨claims, -, -, rfl⟩⟩ := logoutNext_bearer hn <;>
        exact .inl ⟨rfl, inLock_afterIdentify b _⟩
  | bump u =>
      cases hn
      exact .inl ⟨rfl, rfl⟩
  | release u =>
      cases hn
      exact .inr ⟨rfl, rfl⟩
  | acquire => cases hin
  | finished u => cases hin

/-- A step of a thread inside the lock keeps the lock or is the release. -/
theorem next_inside {t t' : Thread} (hn : next cfg i s t drawn = some (s', t'))
    (hin : t.inLock = true) :
    (s'.sessionLock = s.sessionLock ∧ t'.inLock = true) ∨
    (s' = s.release ∧ t'.inLock = false) := by
  cases t with
  | login b pc =>
      obtain ⟨pc', ha, rfl⟩ := next_login hn
      cases pc with
      | issue v access =>
          simp only [loginNext] at ha
          split at ha
          · split at ha
            · cases ha
            · cases ha; exact .inl ⟨rfl, rfl⟩
          · cases ha; exact .inl ⟨rfl, rfl⟩
      | revokeAll v | bump v | mint v =>
          cases ha; exact .inl ⟨rfl, rfl⟩
      | release r =>
          cases ha; exact .inr ⟨rfl, rfl⟩
      | purge | read | failRead | failWrite | reset | acquire | finished => cases hin
  | refresh b pc =>
      obtain ⟨pc', ha, rfl⟩ := next_refresh hn
      cases pc with
      | select =>
          simp only [refreshNext] at ha
          split at ha
          · cases ha; exact .inl ⟨rfl, rfl⟩
          · split at ha <;>
              (cases ha; exact .inl ⟨rfl, rfl⟩)
      | rotate u =>
          simp only [refreshNext] at ha
          split at ha
          · split at ha
            · cases ha
            · cases ha; exact .inl ⟨rfl, rfl⟩
          · cases ha; exact .inl ⟨rfl, rfl⟩
      | purge | mint u newToken e =>
          cases ha; exact .inl ⟨rfl, rfl⟩
      | release r =>
          cases ha; exact .inr ⟨rfl, rfl⟩
      | acquire | finished => cases hin
  | logout b pc =>
      obtain ⟨pc', ha, rfl⟩ := next_logout hn
      exact logoutNext_inside ha hin
  | changePassword b pc =>
      obtain ⟨pc', ha, rfl⟩ := next_changePassword hn
      cases pc with
      | revokeAll u ch | bump u ch =>
          cases ha; exact .inl ⟨rfl, rfl⟩
      | release u ch =>
          cases ha; exact .inr ⟨rfl, rfl⟩
      | auth | read | update | acquire | changed | refused => cases hin

end Outside

/-- `SESSION_LOCK` is a lock. -/
theorem session_mutex (cfg : Config) :
    Mutex (router cfg) Shared.sessionLock Thread.inLock where
  enter r := by cases r <;> rfl
  outside hn ho := by
    rcases next_outside hn ho with ⟨-, hl, hf⟩ | ⟨ha, hlk⟩
    · exact .inl ⟨hl, hf⟩
    · obtain ⟨hfree, rfl⟩ := acquire_some ha
      exact .inr ⟨hfree, rfl, inLock_of_locked hlk⟩
  within hn hin := by
    rcases next_inside hn hin with h | ⟨rfl, hf⟩
    · exact .inl h
    · exact .inr ⟨rfl, hf⟩
  env h := by
    simp only [router, tick] at h
    split at h
    · obtain rfl := Option.some.inj h; rfl
    · cases h

/-- A step outside the lock is quiet. -/
theorem quiet_of_outside {cfg : Config} {i : ℕ} {s s' : Shared} {drawn : String} {t t' : Thread}
    (hn : next cfg i s t drawn = some (s', t')) (ho : t.inLock = false) : Quiet s s' := by
  rcases next_outside hn ho with ⟨q, -, -⟩ | ⟨ha, -⟩
  · exact q
  · exact Quiet.acquire ha

/-! ## What a step can do -/

/-- The effects of a step on the shared state. -/
inductive Effect (cfg : Config) (s : Shared) : Shared → Prop
  | quiet {s' : Shared} (q : Quiet s s') : Effect cfg s s'
  | revokeAll (u : String) : Effect cfg s (s.revokeAllRefreshTokens u)
  | revokeHash (k : String) : Effect cfg s (s.revokeHash k)
  | bump (u : String) : Effect cfg s (s.bumpEpoch u)
  | bumpLogin (u : String) (ℓ : Login) : Effect cfg s (s.bumpLogin u ℓ)
  | bumpClosing (u : String) (v : ℕ) : Effect cfg s (s.bumpClosing u v)
  | mint (u : String) (o : Option Login) : Effect cfg s (s.mint (s.nextClaims cfg u) o)
  | issue (u k : String) (o : Option Login) (hnew : k ∉ s.hist.issued) :
      Effect cfg s (s.issueRefreshToken cfg u k o)
  | rotate (u k k' : String) (hnew : k' ∉ s.hist.issued) : Effect cfg s (s.rotate cfg u k k')

section Effects

variable {cfg : Config} {i : ℕ} {s s' : Shared} {drawn : String}

theorem next_inside_effect {t t' : Thread} (hn : next cfg i s t drawn = some (s', t'))
    (hin : t.inLock = true) : Effect cfg s s' := by
  cases t with
  | login b pc =>
      obtain ⟨pc', ha, rfl⟩ := next_login hn
      cases pc with
      | revokeAll v => cases ha; exact .revokeAll _
      | bump v => cases ha; exact .bumpLogin _ _
      | mint v => cases ha; exact .mint _ _
      | issue v access =>
          simp only [loginNext] at ha
          split at ha
          · split at ha
            · cases ha
            · rename_i hnew
              cases ha
              exact .issue _ _ _ hnew
          · cases ha; exact .quiet (Quiet.refl _)
      | release r =>
          cases ha; exact .quiet (Quiet.release s)
      | purge | read | failRead | failWrite | reset | acquire | finished => cases hin
  | refresh b pc =>
      obtain ⟨pc', ha, rfl⟩ := next_refresh hn
      cases pc with
      | purge =>
          cases ha
          exact .quiet (Quiet.purgeExpired s)
      | select =>
          simp only [refreshNext] at ha
          split at ha
          · cases ha; exact .quiet (Quiet.refl _)
          · split at ha <;>
              (cases ha
               exact .quiet (Quiet.refl _))
      | rotate u =>
          simp only [refreshNext] at ha
          split at ha
          · split at ha
            · cases ha
            · rename_i hnew
              cases ha
              exact .rotate _ _ _ hnew
          · cases ha; exact .quiet (Quiet.refl _)
      | mint u newToken e =>
          cases ha; exact .mint _ _
      | release r =>
          cases ha; exact .quiet (Quiet.release s)
      | acquire | finished => cases hin
  | logout b pc =>
      obtain ⟨pc', ha, rfl⟩ := next_logout hn
      cases pc with
      | select token =>
          cases ha; exact .quiet (Quiet.refl _)
      | revoke token owner =>
          cases ha; exact .revokeHash _
      | bearer u =>
          obtain rfl : s' = s := (logoutNext_bearer ha).1
          exact .quiet (Quiet.refl _)
      | bump u => cases ha; exact .bump u
      | release u =>
          cases ha; exact .quiet (Quiet.release s)
      | acquire | finished => cases hin
  | changePassword b pc =>
      obtain ⟨pc', ha, rfl⟩ := next_changePassword hn
      cases pc with
      | revokeAll u ch =>
          cases ha; exact .revokeAll u
      | bump u ch =>
          cases ha; exact .bumpClosing u _
      | release u ch =>
          cases ha; exact .quiet (Quiet.release s)
      | auth | read | update | acquire | changed | refused => cases hin

/-- What a step of any thread does to the shared state. -/
theorem next_effect {t t' : Thread} (hn : next cfg i s t drawn = some (s', t')) :
    Effect cfg s s' := by
  cases hin : t.inLock with
  | true => exact next_inside_effect hn hin
  | false => exact .quiet (quiet_of_outside hn hin)

end Effects

/-- What every step does: the clock and the epochs do not go back, nothing issued is
    forgotten, and a refresh token that was issued is not unrevoked again. -/
structure Decay (s s' : Shared) : Prop where
  now : s.now ≤ s'.now
  issued : ∀ h ∈ s.hist.issued, h ∈ s'.hist.issued
  minted : ∀ m ∈ s.minted, m ∈ s'.minted
  epoch : ∀ u e, s'.db.getEpoch u = some e → ∃ e₀, s.db.getEpoch u = some e₀ ∧ e₀ ≤ e
  rows : ∀ h ∈ s.hist.issued, ∀ row, s'.db.refreshTokens h = some row → row.revoked = false →
    s.db.refreshTokens h = some row
  closed : ∀ x ∈ s.hist.closed, x ∈ s'.hist.closed
  pwVersion : ∀ u, s.hist.pwVersion u ≤ s'.hist.pwVersion u

namespace Decay

theorem refl (s : Shared) : Decay s s :=
  ⟨le_refl _, fun _ h => h, fun _ h => h, fun _ e h => ⟨e, h, le_refl _⟩, fun _ _ _ h _ => h,
    fun _ h => h, fun _ => le_refl _⟩

theorem trans {a b c : Shared} (d : Decay a b) (d' : Decay b c) : Decay a c where
  now := d.now.trans d'.now
  issued h hh := d'.issued h (d.issued h hh)
  minted m hm := d'.minted m (d.minted m hm)
  epoch u e he := by
    obtain ⟨e₁, he₁, hle⟩ := d'.epoch u e he
    obtain ⟨e₀, he₀, hle'⟩ := d.epoch u e₁ he₁
    exact ⟨e₀, he₀, hle'.trans hle⟩
  rows h hh row hr hu := d.rows h hh row (d'.rows h (d.issued h hh) row hr hu) hu
  closed x hx := d'.closed x (d.closed x hx)
  pwVersion u := (d.pwVersion u).trans (d'.pwVersion u)

theorem of_quiet {s s' : Shared} (q : Quiet s s') : Decay s s' where
  now := q.now
  issued _ hh := q.issued ▸ hh
  minted _ hm := q.minted ▸ hm
  epoch u e he := ⟨e, q.epoch u ▸ he, le_refl _⟩
  rows h _ row hr _ := q.rows h row hr
  closed _ hx := q.closed ▸ hx
  pwVersion := q.pwVersion

theorem bumpEpoch (s : Shared) (u : String) : Decay s (s.bumpEpoch u) :=
  { Decay.refl s with
    epoch := fun n e he => by
      simp only [Shared.bumpEpoch, Db.bumpEpoch_getEpoch] at he
      split at he
      · obtain ⟨e₀, he₀, rfl⟩ := Option.map_eq_some_iff.mp he
        exact ⟨e₀, he₀, Nat.le_succ e₀⟩
      · exact ⟨e, he, le_refl _⟩ }

theorem revokeHash (s : Shared) (k : String) : Decay s (s.revokeHash k) :=
  { Decay.refl s with rows := fun _ _ _ hr hu => (Db.revokeHash_row hr hu).2 }

theorem issueRefreshToken (s : Shared) (cfg : Config) (u k : String) (o : Option Login)
    (hnew : k ∉ s.hist.issued) : Decay s (s.issueRefreshToken cfg u k o) :=
  { Decay.refl s with
    issued := fun h hh => List.mem_cons_of_mem _ hh
    rows := fun h hh row hr _ => by
      rcases Db.insertRefresh_row hr with ⟨rfl, -⟩ | ⟨-, hr⟩
      · exact absurd hh hnew
      · exact hr }

/-- Every effect is a decay. -/
theorem of_effect {cfg : Config} {s s' : Shared} (h : Effect cfg s s') : Decay s s' := by
  cases h with
  | quiet q => exact of_quiet q
  | revokeAll u =>
      exact { Decay.refl s with
        rows := fun _ _ _ hr hu => (Db.revokeAllRefreshTokens_row hr hu).2 }
  | revokeHash k => exact revokeHash s k
  | bump u => exact bumpEpoch s u
  | bumpLogin u ℓ => exact { bumpEpoch s u with }
  | bumpClosing u v =>
      exact { bumpEpoch s u with closed := fun x hx => List.mem_cons_of_mem _ hx }
  | mint u o => exact { Decay.refl s with minted := fun m hm => List.mem_cons_of_mem _ hm }
  | issue u k o hnew => exact issueRefreshToken s cfg u k o hnew
  | rotate u k k' hnew =>
      have d := (revokeHash s k).trans
        (issueRefreshToken (s.revokeHash k) cfg u k' (s.hist.origin k) hnew)
      exact { d with }

/-- One step of the router. -/
theorem of_step {cfg : Config} {c c' : Conf Shared Thread} {e : Event Request String ℚ}
    (h : (router cfg).step c e = some c') : Decay c.shared c'.shared := by
  rcases Prog.step_cases h with ⟨r, -, rfl⟩ | ⟨i, k, t, s, t', -, -, hn, rfl⟩ |
      ⟨x, s, -, hx, rfl⟩
  · exact Decay.refl _
  · exact of_effect (next_effect hn)
  · exact of_quiet (Quiet.tick hx)

/-- A whole run of the router. -/
theorem of_steps {cfg : Config} {G : Conf Shared Thread → Event Request String ℚ → Prop}
    {c c' : Conf Shared Thread} (h : Steps (router cfg).step G c c') :
    Decay c.shared c'.shared :=
  h.relation (R := fun a b => Decay a.shared b.shared) (fun a => Decay.refl a.shared)
    (fun a b c (d : Decay a.shared b.shared) (d' : Decay b.shared c.shared) => d.trans d')
    (fun _ _ _ _ hs => of_step hs)

end Decay

/-- An access token behind its account's epoch stays rejected. -/
theorem accessDead_of_decay {s s' : Shared} (d : Decay s s') {token : Claims}
    (h : ∀ e, s.db.getEpoch token.sub = some e → token.epoch < e) :
    accessLive s' token = false := by
  cases hlive : accessLive s' token with
  | false => rfl
  | true =>
      obtain ⟨e₀, he₀, hle⟩ := d.epoch _ _ (accessLive_iff.mp hlive).2.2
      have := h e₀ he₀
      omega

/-- A refresh token that was issued and is not accepted stays rejected. -/
theorem refreshDead_of_decay {s s' : Shared} (d : Decay s s') {cfg : Config} {token : String}
    (hissued : cfg.hashRefresh token ∈ s.hist.issued) (h : refreshLive cfg s token = false) :
    refreshLive cfg s' token = false := by
  cases hlive : refreshLive cfg s' token with
  | false => rfl
  | true =>
      obtain ⟨row, hrow, hu, hx⟩ := Db.acceptsRefresh_iff.mp hlive
      have hold := d.rows _ hissued row hrow hu
      have : refreshLive cfg s token = true :=
        Db.acceptsRefresh_iff.mpr ⟨row, hold, hu, (Int.floor_le_floor d.now).trans hx⟩
      rw [h] at this; cases this

end Babycat.Router
