/-
  Babycat.Router.SessionInv

  The invariant behind "one login per account" (SDD §6.2) and its proof over
  every interleaving of the session requests.

  `SessionInv` is what every committed state satisfies: a login leaves no
  unrevoked row before it bumps the epoch, and a rotation hands on the lineage
  of the row it revokes.  `Assertion` is what a thread inside the lock may rely
  on at each of its program points.
-/

import Babycat.Router.SessionLock

namespace Babycat.Router

open Babycat.Conc

/-- No refresh token of the account is unrevoked. -/
def NoUnrevoked (s : Shared) (u : String) : Prop :=
  ∀ h row, s.db.refreshTokens h = some row → row.revoked = false → row.username ≠ u

/-- What every committed state satisfies. -/
structure SessionInv (s : Shared) : Prop where
  issued : ∀ h row, s.db.refreshTokens h = some row → h ∈ s.hist.issued
  lineage : ∀ h row, s.db.refreshTokens h = some row → row.revoked = false →
    s.hist.origin h = s.hist.lastLogin row.username ∧ s.hist.origin h ≠ none
  unique : ∀ h h' row row', s.db.refreshTokens h = some row → s.db.refreshTokens h' = some row' →
    row.revoked = false → row'.revoked = false → row.username = row'.username → h = h'
  epochs : ∀ m ∈ s.minted, ∀ e, s.db.getEpoch m.claims.sub = some e → m.claims.epoch ≤ e
  origins : ∀ m ∈ s.minted, s.db.getEpoch m.claims.sub = some m.claims.epoch →
    m.origin = s.hist.lastLogin m.claims.sub ∧ m.origin ≠ none
  exchanged : ∀ h ∈ s.hist.exchanged, h ∈ s.hist.issued ∧
    ∀ row, s.db.refreshTokens h = some row → row.revoked = true
  onceOnly : s.hist.exchanged.Nodup

theorem Quiet.noUnrevoked {s s' : Shared} (q : Quiet s s') {u : String} (h : NoUnrevoked s u) :
    NoUnrevoked s' u :=
  fun k row hk hr => h k row (q.rows k row hk) hr

/-! ## The statements keep the invariant -/

namespace SessionInv

variable {s s' : Shared}

theorem of_quiet (q : Quiet s s') (inv : SessionInv s) : SessionInv s' where
  issued h row hr := by rw [q.issued]; exact inv.issued h row (q.rows h row hr)
  lineage h row hr hu := by
    rw [q.origin, q.lastLogin]; exact inv.lineage h row (q.rows h row hr) hu
  unique h h' row row' hr hr' := inv.unique h h' row row' (q.rows h row hr) (q.rows h' row' hr')
  epochs m hm e he := inv.epochs m (q.minted ▸ hm) e (q.epoch _ ▸ he)
  origins m hm he := by
    rw [q.lastLogin]; exact inv.origins m (q.minted ▸ hm) (q.epoch _ ▸ he)
  exchanged h hh := by
    rw [q.exchanged] at hh
    rw [q.issued]
    exact ⟨(inv.exchanged h hh).1, fun row hr => (inv.exchanged h hh).2 row (q.rows h row hr)⟩
  onceOnly := q.exchanged ▸ inv.onceOnly

/-- Rows may also be revoked. -/
theorem of_revoking (hdb : ∀ h row, s'.db.refreshTokens h = some row → row.revoked = false →
      s.db.refreshTokens h = some row)
    (hkeys : ∀ h row, s'.db.refreshTokens h = some row → ∃ row, s.db.refreshTokens h = some row)
    (hepoch : ∀ u, s'.db.getEpoch u = s.db.getEpoch u) (hminted : s'.minted = s.minted)
    (hhist : s'.hist = s.hist) (inv : SessionInv s) : SessionInv s' where
  issued h row hr := by
    obtain ⟨r, hr'⟩ := hkeys h row hr
    rw [hhist]; exact inv.issued h r hr'
  lineage h row hr hu := by rw [hhist]; exact inv.lineage h row (hdb h row hr hu) hu
  unique h h' row row' hr hr' hu hu' :=
    inv.unique h h' row row' (hdb h row hr hu) (hdb h' row' hr' hu') hu hu'
  epochs m hm e he := inv.epochs m (hminted ▸ hm) e (hepoch _ ▸ he)
  origins m hm he := by rw [hhist]; exact inv.origins m (hminted ▸ hm) (hepoch _ ▸ he)
  exchanged h hh := by
    rw [hhist] at hh ⊢
    refine ⟨(inv.exchanged h hh).1, fun row hr => ?_⟩
    cases hu : row.revoked with
    | true => rfl
    | false =>
        have := (inv.exchanged h hh).2 row (hdb h row hr hu)
        rw [hu] at this; exact this
  onceOnly := hhist ▸ inv.onceOnly

theorem revokeAll (inv : SessionInv s) (u : String) : SessionInv (s.revokeAllRefreshTokens u) := by
  refine of_revoking (fun h row hr hu => (Db.revokeAllRefreshTokens_row hr hu).2) ?_
    (fun _ => rfl) rfl rfl inv
  intro h row hr
  obtain ⟨r, hr', -⟩ := Option.map_eq_some_iff.mp hr
  exact ⟨r, hr'⟩

theorem revokeHash (inv : SessionInv s) (k : String) : SessionInv (s.revokeHash k) := by
  refine of_revoking (fun h row hr hu => (Db.revokeHash_row hr hu).2) ?_
    (fun _ => rfl) rfl rfl inv
  intro h row hr
  simp only [Shared.revokeHash, Db.revokeHash] at hr
  split at hr
  · obtain ⟨r, hr', -⟩ := Option.map_eq_some_iff.mp hr; exact ⟨r, hr'⟩
  · exact ⟨row, hr⟩

/-- After a bump every access token of the account is behind the epoch. -/
theorem epochs_lt_of_bump (inv : SessionInv s) (u : String) :
    ∀ m ∈ s.minted, m.claims.sub = u →
      (s.bumpEpoch u).db.getEpoch m.claims.sub ≠ some m.claims.epoch := by
  intro m hm hsub he
  simp only [Shared.bumpEpoch, Db.bumpEpoch_getEpoch, hsub, if_true] at he
  obtain ⟨e, he', hadd⟩ := Option.map_eq_some_iff.mp he
  have := inv.epochs m hm e (hsub ▸ he')
  omega

theorem bump (inv : SessionInv s) (u : String) : SessionInv (s.bumpEpoch u) where
  issued h row hr := inv.issued h row hr
  lineage h row hr hu := inv.lineage h row hr hu
  unique h h' row row' hr hr' := inv.unique h h' row row' hr hr'
  epochs m hm e he := by
    simp only [Shared.bumpEpoch, Db.bumpEpoch_getEpoch] at he
    split at he
    · obtain ⟨e', he', rfl⟩ := Option.map_eq_some_iff.mp he
      exact Nat.le_succ_of_le (inv.epochs m hm e' he')
    · exact inv.epochs m hm e he
  origins m hm he := by
    by_cases hsub : m.claims.sub = u
    · exact absurd he (inv.epochs_lt_of_bump u m hm hsub)
    · refine inv.origins m hm ?_
      simpa [Shared.bumpEpoch, Db.bumpEpoch_getEpoch, hsub] using he
  exchanged h hh := inv.exchanged h hh
  onceOnly := inv.onceOnly

theorem bumpClosing (inv : SessionInv s) (u : String) (v : ℕ) : SessionInv (s.bumpClosing u v) :=
  let b := inv.bump u
  ⟨b.issued, b.lineage, b.unique, b.epochs, b.origins, b.exchanged, b.onceOnly⟩

/-- A login may become the most recent one once nothing of the account is alive. -/
theorem bumpLogin (inv : SessionInv s) (u : String) (ℓ : Login) (hno : NoUnrevoked s u) :
    SessionInv (s.bumpLogin u ℓ) where
  issued h row hr := inv.issued h row hr
  lineage h row hr hu := by
    have hne : row.username ≠ u := hno h row hr hu
    simpa [Shared.bumpLogin, Function.update_of_ne hne] using inv.lineage h row hr hu
  unique h h' row row' hr hr' := inv.unique h h' row row' hr hr'
  epochs m hm e he := (inv.bump u).epochs m hm e he
  origins m hm he := by
    have hne : m.claims.sub ≠ u := fun h => inv.epochs_lt_of_bump u m hm h he
    have hold := (inv.bump u).origins m hm he
    simpa [Shared.bumpLogin, Shared.bumpEpoch, Function.update_of_ne hne] using hold
  exchanged h hh := inv.exchanged h hh
  onceOnly := inv.onceOnly

/-- Minting with the current epoch for the account's most recent login. -/
theorem mint (inv : SessionInv s) (cfg : Config) (u : String) (o : Option Login)
    (ho : o = s.hist.lastLogin u) (hsome : o ≠ none) :
    SessionInv (s.mint (s.nextClaims cfg u) o) where
  issued h row hr := inv.issued h row hr
  lineage h row hr hu := inv.lineage h row hr hu
  unique h h' row row' hr hr' := inv.unique h h' row row' hr hr'
  epochs m hm e he := by
    rcases List.mem_cons.mp hm with rfl | hm
    · simp only [Shared.nextClaims, createToken] at he ⊢
      rw [show s.db.getEpoch u = some e from he]; exact le_refl _
    · exact inv.epochs m hm e he
  origins m hm he := by
    rcases List.mem_cons.mp hm with rfl | hm
    · exact ⟨ho, hsome⟩
    · exact inv.origins m hm he
  exchanged h hh := inv.exchanged h hh
  onceOnly := inv.onceOnly

/-- A new row of the account's most recent login, when it is the only unrevoked one. -/
theorem issue (inv : SessionInv s) (cfg : Config) (u k : String) (o : Option Login)
    (hnew : k ∉ s.hist.issued) (hno : NoUnrevoked s u)
    (ho : o = s.hist.lastLogin u) (hsome : o ≠ none) :
    SessionInv (s.issueRefreshToken cfg u k o) where
  issued h row hr := by
    rcases Db.insertRefresh_row hr with ⟨rfl, -⟩ | ⟨-, hr⟩
    · exact List.mem_cons_self
    · exact List.mem_cons_of_mem _ (inv.issued h row hr)
  lineage h row hr hu := by
    rcases Db.insertRefresh_row hr with ⟨rfl, rfl⟩ | ⟨hne, hr⟩
    · simpa [Shared.issueRefreshToken] using ⟨ho, hsome⟩
    · simpa [Shared.issueRefreshToken, Function.update_of_ne hne] using inv.lineage h row hr hu
  unique h h' row row' hr hr' hu hu' heq := by
    rcases Db.insertRefresh_row hr with ⟨hk, hrow⟩ | ⟨-, hold⟩ <;>
      rcases Db.insertRefresh_row hr' with ⟨hk', hrow'⟩ | ⟨-, hold'⟩
    · rw [hk, hk']
    · exact absurd (by rw [← heq, hrow]) (hno h' row' hold' hu')
    · exact absurd (by rw [heq, hrow']) (hno h row hold hu)
    · exact inv.unique h h' row row' hold hold' hu hu' heq
  epochs m hm e he := inv.epochs m hm e he
  origins m hm he := inv.origins m hm he
  exchanged h hh := by
    obtain ⟨hi, hrev⟩ := inv.exchanged h hh
    refine ⟨List.mem_cons_of_mem _ hi, fun row hr => ?_⟩
    rcases Db.insertRefresh_row hr with ⟨rfl, -⟩ | ⟨-, hr⟩
    · exact absurd hi hnew
    · exact hrev row hr
  onceOnly := inv.onceOnly

/-- A rotation revokes the account's only unrevoked row and hands its lineage on. -/
theorem rotate (inv : SessionInv s) (cfg : Config) (u k k' : String)
    (hlive : s.db.hasUnrevoked k = true)
    (howner : ∀ row, s.db.refreshTokens k = some row → row.username = u)
    (hnew : k' ∉ s.hist.issued) : SessionInv (s.rotate cfg u k k') := by
  obtain ⟨r, hr, hu⟩ := Db.hasUnrevoked_iff.mp hlive
  obtain ⟨ho, hsome⟩ := inv.lineage k r hr hu
  rw [howner r hr] at ho
  -- the revoked row was the account's only unrevoked one
  have hno : NoUnrevoked (s.revokeHash k) u := by
    intro h row hrow hu' hname
    obtain ⟨hne, hrow⟩ := Db.revokeHash_row hrow hu'
    exact hne (inv.unique h k row r hrow hr hu' hu (hname.trans (howner r hr).symm))
  have step := (inv.revokeHash k).issue cfg u k' (s.hist.origin k) hnew hno ho hsome
  have hne : k ≠ k' := fun h => hnew (h ▸ inv.issued k r hr)
  refine ⟨step.issued, step.lineage, step.unique, step.epochs, step.origins, ?_, ?_⟩
  · intro h hh
    rcases List.mem_cons.mp hh with rfl | hh
    · refine ⟨List.mem_cons_of_mem _ (inv.issued h r hr), fun row hrow => ?_⟩
      rcases Db.insertRefresh_row hrow with ⟨rfl, -⟩ | ⟨-, hrow⟩
      · exact absurd rfl hne
      · cases hrev : row.revoked with
        | true => rfl
        | false => exact absurd rfl (Db.revokeHash_row hrow hrev).1
    · exact step.exchanged h hh
  · refine List.nodup_cons.mpr ⟨fun hmem => ?_, inv.onceOnly⟩
    rw [(inv.exchanged k hmem).2 r hr] at hu; cases hu

end SessionInv

/-! ## Every reachable state -/

/-- What a thread inside the lock relies on at each of its program points. -/
def Assertion (cfg : Config) (i : ℕ) (s : Shared) : Thread → Prop
  | .login b (.bump _) => NoUnrevoked s b.username
  | .login b (.mint v) | .login b (.issue v _) =>
      NoUnrevoked s b.username ∧ s.hist.lastLogin b.username = some ⟨i, v.pw⟩
  | .refresh b (.rotate u) => ∀ row,
      s.db.refreshTokens (cfg.hashRefresh b.refreshToken) = some row → row.username = u
  | .refresh _ (.mint u newToken _) =>
      s.hist.origin (cfg.hashRefresh newToken) = s.hist.lastLogin u ∧
        s.hist.origin (cfg.hashRefresh newToken) ≠ none
  | .logout _ (.revoke token owner) => ∀ row,
      s.db.refreshTokens (cfg.hashRefresh token) = some row → owner = some row.username
  | _ => True

section Body

variable {cfg : Config} {i : ℕ} {s s' : Shared} {drawn : String}

theorem Assertion.of_quiet {t : Thread} (q : Quiet s s') (h : Assertion cfg i s t) :
    Assertion cfg i s' t := by
  cases t with
  | login b pc =>
      cases pc with
      | bump v => exact q.noUnrevoked h
      | mint v => exact ⟨q.noUnrevoked h.1, q.lastLogin ▸ h.2⟩
      | issue v access => exact ⟨q.noUnrevoked h.1, q.lastLogin ▸ h.2⟩
      | _ => trivial
  | refresh b pc =>
      cases pc with
      | rotate u => exact fun row hr => h row (q.rows _ row hr)
      | mint u newToken e =>
          simp only [Assertion] at h ⊢
          rw [q.origin, q.lastLogin]; exact h
      | _ => trivial
  | logout b pc =>
      cases pc with
      | revoke token owner => exact fun row hr => h row (q.rows _ row hr)
      | _ => trivial
  | changePassword b pc => trivial

/-- A thread has no obligation yet when it has just taken the lock. -/
theorem Assertion.of_locked {t t' : Thread} (h : t.locked = some t') : Assertion cfg i s t' := by
  cases t with
  | login b pc => cases pc <;> cases h; trivial
  | refresh b pc => cases pc <;> cases h; trivial
  | logout b pc =>
      cases pc <;> cases h
      simp only [logoutStart]
      split
      · split <;> trivial
      · trivial
  | changePassword b pc => cases pc <;> cases h; trivial

/-- The critical section of `authenticate`. -/
theorem login_body {b : LoginIn} {pc pc' : LoginPc} (inv : SessionInv s)
    (ha : Assertion cfg i s (.login b pc)) (hn : loginNext cfg i s b pc drawn = some (s', pc'))
    (hin : (Thread.login b pc).inLock = true) :
    SessionInv s' ∧ Assertion cfg i s' (.login b pc') := by
  cases pc with
  | revokeAll v =>
      cases hn
      exact ⟨inv.revokeAll _, fun h row hr hu => (Db.revokeAllRefreshTokens_row hr hu).1⟩
  | bump v =>
      cases hn
      exact ⟨inv.bumpLogin _ _ ha, ha, Function.update_self ..⟩
  | mint v =>
      cases hn
      exact ⟨inv.mint cfg _ _ ha.2.symm (by simp), ha⟩
  | issue v access =>
      simp only [loginNext] at hn
      split at hn
      · split at hn
        · cases hn
        · rename_i hnew
          cases hn
          exact ⟨inv.issue cfg _ _ _ hnew ha.1 ha.2.symm (by simp), trivial⟩
      · cases hn
        exact ⟨inv, trivial⟩
  | release r =>
      cases hn
      exact ⟨inv.of_quiet (Quiet.release s), trivial⟩
  | purge | read | failRead | failWrite | reset | acquire | finished => cases hin

/-- The critical section of `refresh`. -/
theorem refresh_body {b : RefreshIn} {pc pc' : RefreshPc} (inv : SessionInv s)
    (ha : Assertion cfg i s (.refresh b pc))
    (hn : refreshNext cfg i s b pc drawn = some (s', pc'))
    (hin : (Thread.refresh b pc).inLock = true) :
    SessionInv s' ∧ Assertion cfg i s' (.refresh b pc') := by
  cases pc with
  | purge =>
      cases hn
      exact ⟨inv.of_quiet (Quiet.purgeExpired s), trivial⟩
  | select =>
      simp only [refreshNext] at hn
      split at hn
      · cases hn; exact ⟨inv, trivial⟩
      · rename_i row hrow
        split at hn
        · cases hn; exact ⟨inv, trivial⟩
        · cases hn
          refine ⟨inv, fun r hr => ?_⟩
          rw [hrow] at hr
          rw [← Option.some.inj hr]
  | rotate u =>
      simp only [refreshNext] at hn
      split at hn
      · rename_i hlive
        split at hn
        · cases hn
        · rename_i hnew
          cases hn
          refine ⟨inv.rotate cfg u _ _ hlive ha hnew, ?_⟩
          -- the new token takes over the origin of the exchanged one
          obtain ⟨row, hrow, hu⟩ := Db.hasUnrevoked_iff.mp hlive
          have hl := inv.lineage _ row hrow hu
          rw [ha row hrow] at hl
          simpa [Assertion, Shared.rotate, Shared.revokeHash, Shared.issueRefreshToken] using hl
      · cases hn; exact ⟨inv, trivial⟩
  | mint u newToken e =>
      cases hn
      exact ⟨inv.mint cfg u _ ha.1 ha.2, trivial⟩
  | release r =>
      cases hn
      exact ⟨inv.of_quiet (Quiet.release s), trivial⟩
  | acquire | finished => cases hin

theorem Assertion.afterIdentify (b : LogoutIn) (u : Option String) :
    Assertion cfg i s (.logout b (afterIdentify u)) := by
  cases u with
  | none => trivial
  | some u =>
      simp only [Router.afterIdentify]
      split <;> trivial

theorem Assertion.afterRevoke (b : LogoutIn) (u : Option String) :
    Assertion cfg i s (.logout b (afterRevoke u)) := by
  simp only [Router.afterRevoke]
  split
  · exact Assertion.afterIdentify b u
  · trivial

/-- The critical section of `logout`. -/
theorem logout_body {b : LogoutIn} {pc pc' : LogoutPc} (inv : SessionInv s)
    (hn : logoutNext cfg i s b pc = some (s', pc')) (hin : (Thread.logout b pc).inLock = true) :
    SessionInv s' ∧ Assertion cfg i s' (.logout b pc') := by
  cases pc with
  | select token =>
      cases hn
      exact ⟨inv, fun row hr => by rw [hr]; rfl⟩
  | revoke token owner =>
      cases hn
      exact ⟨inv.revokeHash _, Assertion.afterRevoke b _⟩
  | bearer u =>
      obtain ⟨rfl, rfl | ⟨claims, -, -, rfl⟩⟩ := logoutNext_bearer hn <;>
        exact ⟨inv, Assertion.afterIdentify b _⟩
  | bump u =>
      cases hn
      exact ⟨inv.bump u, trivial⟩
  | release u =>
      cases hn
      exact ⟨inv.of_quiet (Quiet.release s), trivial⟩
  | acquire | finished => cases hin

/-- The critical section of `change_password`. -/
theorem change_body {b : ChangePasswordIn} {pc pc' : ChangePc} (inv : SessionInv s)
    (hn : changeNext cfg i s b pc drawn = some (s', pc'))
    (hin : (Thread.changePassword b pc).inLock = true) : SessionInv s' := by
  cases pc with
  | revokeAll u ch =>
      cases hn
      exact inv.revokeAll u
  | bump u ch =>
      cases hn
      exact inv.bumpClosing u _
  | release u ch =>
      cases hn
      exact inv.of_quiet (Quiet.release s)
  | auth | read | update | acquire | changed | refused => cases hin

/-- One statement inside the lock keeps the invariant and reaches the next assertion. -/
theorem next_body {t t' : Thread} (inv : SessionInv s) (ha : Assertion cfg i s t)
    (hn : next cfg i s t drawn = some (s', t')) (hin : t.inLock = true) :
    SessionInv s' ∧ Assertion cfg i s' t' := by
  cases t with
  | login b pc =>
      obtain ⟨pc', hstep, rfl⟩ := next_login hn
      exact login_body inv ha hstep hin
  | refresh b pc =>
      obtain ⟨pc', hstep, rfl⟩ := next_refresh hn
      exact refresh_body inv ha hstep hin
  | logout b pc =>
      obtain ⟨pc', hstep, rfl⟩ := next_logout hn
      exact logout_body inv hstep hin
  | changePassword b pc =>
      obtain ⟨pc', hstep, rfl⟩ := next_changePassword hn
      exact ⟨change_body inv hstep hin, trivial⟩

end Body

/-- The proof outline of the session requests. -/
theorem session_outline (cfg : Config)
    (G : Conf Shared Thread → Event Request String ℚ → Prop) :
    OwickiGries (router cfg) G SessionInv
      (Mutex.Holds Shared.sessionLock Thread.inLock (Assertion cfg)) := by
  refine (session_mutex cfg).owickiGries (Q := Quiet) (fun c x s' _ h => Quiet.tick h) ?_ ?_
    (fun s s' q inv => inv.of_quiet q) (fun i s s' t q _ _ h => h.of_quiet q)
  · intro c i k t s' t' _ _ _ hn ho
    rcases next_outside hn ho with ⟨q, -, hf⟩ | ⟨ha, hlk⟩
    · exact ⟨q, fun hin => absurd (hf.symm.trans hin) (by decide)⟩
    · exact ⟨Quiet.acquire ha, fun _ => Assertion.of_locked hlk⟩
  · intro c i k t s' t' inv ha _ _ hn hin
    exact ⟨(next_body inv ha hn hin).1, fun _ => (next_body inv ha hn hin).2⟩

theorem sessionInv_boot (users : String → Option User) (now : ℚ) :
    SessionInv (boot users now).shared where
  issued h row hr := by cases hr
  lineage h row hr := by cases hr
  unique h h' row row' hr := by cases hr
  epochs m hm := by cases hm
  origins m hm := by cases hm
  exchanged h hh := by cases hh
  onceOnly := List.nodup_nil

/-- The proof outline holds in every reachable state. -/
theorem Reachable.annotated {cfg : Config} {users : String → Option User} {now : ℚ}
    {c : Conf Shared Thread} (h : Reachable cfg users now c) :
    Annotated SessionInv
      (Mutex.Holds Shared.sessionLock Thread.inLock (Assertion cfg)) c :=
  (session_outline cfg free).steps h
    ⟨sessionInv_boot users now, fun i t ht => by simp [boot] at ht⟩

/-- One login per account: what is alive descends from the account's last login. -/
theorem one_login_per_account (cfg : Config) (users : String → Option User) (now : ℚ)
    (c : Conf Shared Thread) (h : Reachable cfg users now c) (u : String) :
    (∀ m ∈ c.shared.minted, m.claims.sub = u → accessLive c.shared m.claims = true →
      ∃ ℓ, c.shared.hist.lastLogin u = some ℓ ∧ m.origin = some ℓ) ∧
    (∀ token row, c.shared.db.refreshTokens (cfg.hashRefresh token) = some row →
      row.username = u → refreshLive cfg c.shared token = true →
      ∃ ℓ, c.shared.hist.lastLogin u = some ℓ ∧
        c.shared.hist.origin (cfg.hashRefresh token) = some ℓ) ∧
    (∀ k k' row row', c.shared.db.refreshTokens k = some row →
      c.shared.db.refreshTokens k' = some row' → row.revoked = false → row'.revoked = false →
      row.username = u → row'.username = u → k = k') ∧
    c.shared.hist.exchanged.Nodup := by
  have inv := h.annotated.1
  refine ⟨fun m hm hu hlive => ?_, fun token row hrow hu hlive => ?_,
    fun k k' row row' hk hk' hr hr' hu hu' => ?_, inv.onceOnly⟩
  · obtain ⟨ho, hsome⟩ := inv.origins m hm (accessLive_iff.mp hlive).2.2
    obtain ⟨ℓ, hℓ⟩ := Option.ne_none_iff_exists'.mp hsome
    exact ⟨ℓ, by rw [← hu, ← ho, hℓ], hℓ⟩
  · obtain ⟨r, hr, hrev, -⟩ := Db.acceptsRefresh_iff.mp hlive
    obtain rfl : row = r := Option.some.inj (hrow.symm.trans hr)
    obtain ⟨ho, hsome⟩ := inv.lineage _ row hrow hrev
    obtain ⟨ℓ, hℓ⟩ := Option.ne_none_iff_exists'.mp hsome
    exact ⟨ℓ, by rw [← hu, ← ho, hℓ], hℓ⟩
  · exact inv.unique k k' row row' hk hk' hr hr' (hu.trans hu'.symm)

/-- A deployment to run schedules on: one account, concatenation for the hashes. -/
def sampleConfig : Config where
  jwtExpiry := 600
  refreshExpiry := 2592000
  hashPassword := fun password salt => salt ++ password
  hashRefresh := fun token => "#" ++ token

def sampleUsers : String → Option User := fun n =>
  if n = "admin" then some ⟨"salt-secret", "salt-", true, 0, 0, 0⟩ else none

/-- A kept login of `admin`, then a rotation of its refresh token. -/
def sampleRotation : List (Event Request String ℚ) :=
  .enter (.login ⟨"admin", "secret", true⟩) :: List.replicate 9 (.sched 0 "r1") ++
    .enter (.refresh ⟨"r1"⟩) :: List.replicate 6 (.sched 1 "r2")

theorem one_login_per_account_rotated :
    ∃ c, Reachable sampleConfig sampleUsers 0 c ∧ refreshLive sampleConfig c.shared "r2" = true ∧
      ∃ ℓ, c.shared.hist.lastLogin "admin" = some ℓ ∧ c.shared.hist.origin "#r2" = some ℓ := by
  have hreach : Reachable sampleConfig sampleUsers 0 (exec _ _ sampleRotation) :=
    Steps.exec (by with_unfolding_all decide)
  have hlive : refreshLive sampleConfig (exec (router sampleConfig).step (boot sampleUsers 0)
      sampleRotation).shared "r2" = true := by with_unfolding_all decide
  have hrow : (exec (router sampleConfig).step (boot sampleUsers 0)
      sampleRotation).shared.db.refreshTokens "#r2" = some ⟨"admin", 2592000, false⟩ := by
    with_unfolding_all decide
  exact ⟨_, hreach, hlive,
    (one_login_per_account sampleConfig sampleUsers 0 _ hreach "admin").2.1 "r2" _ hrow rfl hlive⟩

end Babycat.Router
