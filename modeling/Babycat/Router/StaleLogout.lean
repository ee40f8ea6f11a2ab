/-
  Babycat.Router.StaleLogout

  A replaced session cannot disturb the session that replaced it through
  logout.

  `revoke_refresh_token` looks at `revoked` only, so an unrevoked row that has
  expired still names its account, and the logout bumps the epoch.  That is
  harmless as long as the row outlives the account's access tokens
  (`Expiry.covered`): a login and a rotation insert the row after or shortly
  before the access token of the same session is signed.  Between the insert of
  a rotation and its access token there is one statement and no time bound, so
  `mintInTime` states the bound that is needed.
-/

import Babycat.Router.Logout

namespace Babycat.Router

open Babycat.Conc

/-- A refresh signs its access token before the row it inserted is too old to cover it. -/
def mintInTime (cfg : Config) (c : Conf Shared Thread) : Event Request String ℚ → Bool
  | .sched i _ =>
      match c.pool[i]? with
      | some (.refresh _ (.mint _ _ expiresAt)) =>
          decide (⌊c.shared.now⌋ + cfg.jwtExpiry ≤ expiresAt)
      | _ => true
  | _ => true

/-- The guard of the runs in which every refresh signs in time. -/
def InTime (cfg : Config) (c : Conf Shared Thread) (e : Event Request String ℚ) : Prop :=
  mintInTime cfg c e = true

instance (cfg : Config) (c : Conf Shared Thread) (e : Event Request String ℚ) :
    Decidable (InTime cfg c e) := inferInstanceAs (Decidable (_ = true))

/-- No access token of an account outlives an unrevoked refresh token of the account. -/
structure Expiry (cfg : Config) (s : Shared) : Prop where
  young : ∀ m ∈ s.minted, m.claims.exp ≤ ⌊s.now⌋ + cfg.jwtExpiry
  covered : ∀ m ∈ s.minted, s.db.getEpoch m.claims.sub = some m.claims.epoch →
    ∀ h row, s.db.refreshTokens h = some row → row.revoked = false →
      row.username = m.claims.sub → m.claims.exp ≤ row.expiresAt

/-- Between its insert and its access token, a rotation's row is the account's only one. -/
def ExpiryAssertion (s : Shared) : Thread → Prop
  | .refresh _ (.mint u _ expiresAt) => ∀ h row, s.db.refreshTokens h = some row →
      row.revoked = false → row.username = u → row.expiresAt = expiresAt
  | _ => True

namespace Expiry

variable {cfg : Config} {s s' : Shared}

/-- Fewer unrevoked rows and fewer current tokens at a later time. -/
theorem of_less (hnow : s.now ≤ s'.now)
    (hrows : ∀ h row, s'.db.refreshTokens h = some row → row.revoked = false →
      s.db.refreshTokens h = some row)
    (hminted : s'.minted = s.minted)
    (hcurrent : ∀ m ∈ s.minted, s'.db.getEpoch m.claims.sub = some m.claims.epoch →
      s.db.getEpoch m.claims.sub = some m.claims.epoch) (e : Expiry cfg s) : Expiry cfg s' where
  young m hm := by
    have := e.young m (hminted ▸ hm)
    have := Int.floor_le_floor hnow
    omega
  covered m hm he h row hr hu :=
    e.covered m (hminted ▸ hm) (hcurrent m (hminted ▸ hm) he) h row (hrows h row hr hu) hu

theorem of_quiet (q : Quiet s s') (e : Expiry cfg s) : Expiry cfg s' :=
  e.of_less q.now (fun h row hr _ => q.rows h row hr) q.minted (fun _ _ he => q.epoch _ ▸ he)

theorem revokeAll (e : Expiry cfg s) (u : String) : Expiry cfg (s.revokeAllRefreshTokens u) := by
  have hnow : s.now ≤ (s.revokeAllRefreshTokens u).now := le_refl _
  exact e.of_less hnow (fun _ _ hr hu => (Db.revokeAllRefreshTokens_row hr hu).2) rfl
    (fun _ _ he => he)

theorem revokeHash (e : Expiry cfg s) (k : String) : Expiry cfg (s.revokeHash k) := by
  have hnow : s.now ≤ (s.revokeHash k).now := le_refl _
  exact e.of_less hnow (fun _ _ hr hu => (Db.revokeHash_row hr hu).2) rfl (fun _ _ he => he)

theorem bump (e : Expiry cfg s) (inv : SessionInv s) (u : String) :
    Expiry cfg (s.bumpEpoch u) := by
  have hnow : s.now ≤ (s.bumpEpoch u).now := le_refl _
  refine e.of_less hnow (fun _ _ hr _ => hr) rfl fun m hm he => ?_
  by_cases hsub : m.claims.sub = u
  · exact absurd he (inv.epochs_lt_of_bump u m hm hsub)
  · simpa [Shared.bumpEpoch, Db.bumpEpoch_getEpoch, hsub] using he

theorem bumpLogin (e : Expiry cfg s) (inv : SessionInv s) (u : String) (ℓ : Login) :
    Expiry cfg (s.bumpLogin u ℓ) :=
  { e.bump inv u with }

theorem bumpClosing (e : Expiry cfg s) (inv : SessionInv s) (u : String) (v : ℕ) :
    Expiry cfg (s.bumpClosing u v) :=
  { e.bump inv u with }

/-- An access token that every unrevoked row of its account covers. -/
theorem mint (e : Expiry cfg s) (u : String) (o : Option Login)
    (hrows : ∀ h row, s.db.refreshTokens h = some row → row.revoked = false →
      row.username = u → ⌊s.now⌋ + cfg.jwtExpiry ≤ row.expiresAt) :
    Expiry cfg (s.mint (s.nextClaims cfg u) o) where
  young m hm := by
    rcases List.mem_cons.mp hm with rfl | hm
    · exact le_refl _
    · exact e.young m hm
  covered m hm he h row hr hu hname := by
    rcases List.mem_cons.mp hm with rfl | hm
    · exact hrows h row hr hu hname
    · exact e.covered m hm he h row hr hu hname

/-- A new row outlives every access token signed so far. -/
theorem issue (e : Expiry cfg s) (hlt : cfg.jwtExpiry ≤ cfg.refreshExpiry) (u k : String)
    (o : Option Login) : Expiry cfg (s.issueRefreshToken cfg u k o) where
  young m hm := e.young m hm
  covered m hm he h row hr hu hname := by
    rcases Db.insertRefresh_row hr with ⟨-, rfl⟩ | ⟨-, hold⟩
    · have := e.young m hm
      simp only
      omega
    · exact e.covered m hm he h row hold hu hname

theorem rotate (e : Expiry cfg s) (hlt : cfg.jwtExpiry ≤ cfg.refreshExpiry) (u k k' : String) :
    Expiry cfg (s.rotate cfg u k k') :=
  { (e.revokeHash k).issue hlt u k' (s.hist.origin k) with }

end Expiry

/-- After a rotation the new row is the account's only unrevoked one. -/
theorem rotate_only {cfg : Config} {s : Shared} (inv : SessionInv s) {u k k' : String}
    (hlive : s.db.hasUnrevoked k = true)
    (howner : ∀ row, s.db.refreshTokens k = some row → row.username = u) :
    ∀ h row, (s.rotate cfg u k k').db.refreshTokens h = some row → row.revoked = false →
      row.username = u → row.expiresAt = ⌊s.now⌋ + cfg.refreshExpiry := by
  intro h row hr hu hname
  rcases Db.insertRefresh_row hr with ⟨-, rfl⟩ | ⟨-, hold⟩
  · rfl
  · obtain ⟨hne, hold⟩ := Db.revokeHash_row hold hu
    obtain ⟨r, hr', hu'⟩ := Db.hasUnrevoked_iff.mp hlive
    exact absurd (inv.unique h k row r hold hr' hu hu' (hname.trans (howner r hr').symm)) hne

section Body

variable {cfg : Config} {i : ℕ} {c : Conf Shared Thread} {s' : Shared} {drawn : String}

theorem ExpiryAssertion.of_quiet {s s' : Shared} {t : Thread} (q : Quiet s s')
    (h : ExpiryAssertion s t) : ExpiryAssertion s' t := by
  cases t with
  | refresh b pc =>
      cases pc with
      | mint u newToken x => exact fun k row hr hu hn => h k row (q.rows k row hr) hu hn
      | _ => trivial
  | _ => trivial

theorem ExpiryAssertion.of_locked {s : Shared} {t t' : Thread} (h : t.locked = some t') :
    ExpiryAssertion s t' := by
  cases t with
  | login b pc => cases pc <;> cases h; trivial
  | refresh b pc => cases pc <;> cases h; trivial
  | logout b pc => cases pc <;> cases h; trivial
  | changePassword b pc => cases pc <;> cases h; trivial

/-- One statement inside the lock keeps access tokens covered. -/
theorem expiry_body {s : Shared} {t t' : Thread} (hlt : cfg.jwtExpiry ≤ cfg.refreshExpiry)
    (inv : SessionInv s) (e : Expiry cfg s) (ha : Assertion cfg i s t)
    (he : ExpiryAssertion s t)
    (hG : ∀ b u tok x, t = .refresh b (.mint u tok x) → ⌊s.now⌋ + cfg.jwtExpiry ≤ x)
    (hn : next cfg i s t drawn = some (s', t')) (hin : t.inLock = true) :
    Expiry cfg s' ∧ ExpiryAssertion s' t' := by
  cases t with
  | login b pc =>
      obtain ⟨pc', hstep, rfl⟩ := next_login hn
      refine ⟨?_, trivial⟩
      cases pc with
      | revokeAll v =>
          cases hstep; exact e.revokeAll _
      | bump v =>
          cases hstep; exact e.bumpLogin inv _ _
      | mint v =>
          cases hstep
          -- the login has no refresh token yet, and no older one is left
          exact e.mint _ _ fun h row hr hu hname => absurd hname (ha.1 h row hr hu)
      | issue v access =>
          simp only [loginNext] at hstep
          split at hstep
          · split at hstep
            · cases hstep
            · cases hstep; exact e.issue hlt _ _ _
          · cases hstep; exact e
      | release r =>
          cases hstep
          exact e.of_quiet (Quiet.release s)
      | purge | read | failRead | failWrite | reset | acquire | finished => cases hin
  | refresh b pc =>
      obtain ⟨pc', hstep, rfl⟩ := next_refresh hn
      cases pc with
      | purge =>
          cases hstep
          exact ⟨e.of_quiet (Quiet.purgeExpired s), trivial⟩
      | select =>
          simp only [refreshNext] at hstep
          split at hstep
          · cases hstep; exact ⟨e, trivial⟩
          · split at hstep <;>
              (cases hstep; exact ⟨e, trivial⟩)
      | rotate u =>
          simp only [refreshNext] at hstep
          split at hstep
          · rename_i hlive
            split at hstep
            · cases hstep
            · cases hstep
              exact ⟨e.rotate hlt _ _ _, rotate_only inv hlive ha⟩
          · cases hstep; exact ⟨e, trivial⟩
      | mint u newToken x =>
          cases hstep
          refine ⟨e.mint _ _ fun h row hr hu hname => ?_, trivial⟩
          rw [he h row hr hu hname]
          exact hG b u newToken x rfl
      | release r =>
          cases hstep
          exact ⟨e.of_quiet (Quiet.release s), trivial⟩
      | acquire | finished => cases hin
  | logout b pc =>
      obtain ⟨pc', hstep, rfl⟩ := next_logout hn
      refine ⟨?_, trivial⟩
      cases pc with
      | select token => cases hstep; exact e
      | revoke token owner =>
          cases hstep; exact e.revokeHash _
      | bearer u =>
          obtain rfl : s' = s := (logoutNext_bearer hstep).1
          exact e
      | bump u => cases hstep; exact e.bump inv u
      | release u =>
          cases hstep
          exact e.of_quiet (Quiet.release s)
      | acquire | finished => cases hin
  | changePassword b pc =>
      obtain ⟨pc', hstep, rfl⟩ := next_changePassword hn
      refine ⟨?_, trivial⟩
      cases pc with
      | revokeAll u ch =>
          cases hstep; exact e.revokeAll u
      | bump u ch =>
          cases hstep; exact e.bumpClosing inv u _
      | release u ch =>
          cases hstep
          exact e.of_quiet (Quiet.release s)
      | auth | read | update | acquire | changed | refused => cases hin

end Body

/-- The proof outline of the runs in which every refresh signs in time. -/
theorem expiry_outline (cfg : Config) (hlt : cfg.jwtExpiry ≤ cfg.refreshExpiry) :
    OwickiGries (router cfg) (InTime cfg) (fun s => SessionInv s ∧ Expiry cfg s)
      (Mutex.Holds Shared.sessionLock Thread.inLock
        fun i s t => Assertion cfg i s t ∧ ExpiryAssertion s t) := by
  refine (session_mutex cfg).owickiGries (Q := Quiet) (fun c x s' _ h => Quiet.tick h) ?_ ?_
    (fun s s' q h => ⟨h.1.of_quiet q, h.2.of_quiet q⟩)
    (fun i s s' t q _ _ h => ⟨h.1.of_quiet q, h.2.of_quiet q⟩)
  · intro c i k t s' t' _ _ _ hn ho
    rcases next_outside hn ho with ⟨q, -, hf⟩ | ⟨ha, hlk⟩
    · exact ⟨q, fun hin => absurd (hf.symm.trans hin) (by decide)⟩
    · exact ⟨Quiet.acquire ha, fun _ => ⟨Assertion.of_locked hlk, ExpiryAssertion.of_locked hlk⟩⟩
  · intro c i k t s' t' hI hB hG ht hn hin
    obtain ⟨inv', ha'⟩ := next_body hI.1 hB.1 hn hin
    have hmint : ∀ b u tok x, t = .refresh b (.mint u tok x) →
        ⌊c.shared.now⌋ + cfg.jwtExpiry ≤ x := by
      rintro b u tok x rfl
      simpa [InTime, mintInTime, ht] using hG
    obtain ⟨e', he'⟩ := expiry_body hlt hI.1 hI.2 hB.1 hB.2 hmint hn hin
    exact ⟨⟨inv', e'⟩, fun _ => ⟨ha', he'⟩⟩

/-! ## A logout with nothing live to present -/

/-- None of the credentials the request presents is live. -/
structure Stale (cfg : Config) (b : LogoutIn) (s : Shared) : Prop where
  refresh : ∀ token, b.refreshToken = some token → refreshLive cfg s token = false
  bearer : ∀ token, b.bearer = some token → accessLive s token = false

/-- The same access and refresh tokens are live. -/
structure SameLive (cfg : Config) (s s' : Shared) : Prop where
  access : ∀ token, accessLive s' token = accessLive s token
  refresh : ∀ token, refreshLive cfg s' token = refreshLive cfg s token

/-- No access token of the account is live. -/
def NoLiveAccess (u : String) (s : Shared) : Prop :=
  ∀ token : Claims, token.sub = u → accessLive s token = false

/-- What holds at each point of a stale logout since it took the lock in `base`. -/
def AtStale (cfg : Config) (b : LogoutIn) (base s : Shared) : LogoutPc → Prop
  | .acquire => False
  | .select token | .revoke token _ => b.refreshToken = some token ∧
      presentedHash cfg b = some (cfg.hashRefresh token) ∧ SinceAcquire cfg b base s
  | .bearer u => truthy u = false ∧ SinceAcquire cfg b base s
  | .bump u => NoLiveAccess u s
  | .release _ | .finished _ => True

section Stale

variable {cfg : Config} {b : LogoutIn} {base s s' : Shared} {i : ℕ}

/-- A token that is live during the critical section was live when it began. -/
theorem SinceAcquire.accessLive_base (h : SinceAcquire cfg b base s) {token : Claims}
    (hlive : accessLive s token = true) : accessLive base token = true := by
  obtain ⟨hsigned, hx, he⟩ := accessLive_iff.mp hlive
  refine accessLive_iff.mpr ⟨?_, h.now.trans hx, (h.epoch _).symm.trans he⟩
  simpa [Shared.signed, h.minted] using hsigned

theorem NoLiveAccess.of_quiet {u : String} (q : Quiet s s') (h : NoLiveAccess u s) :
    NoLiveAccess u s' := by
  intro token hsub
  cases hlive : accessLive s' token with
  | false => rfl
  | true =>
      obtain ⟨hsigned, hx, he⟩ := accessLive_iff.mp hlive
      have hold : accessLive s token = true := by
        refine accessLive_iff.mpr ⟨?_, q.now.trans hx, (q.epoch _).symm.trans he⟩
        simpa [Shared.signed, q.minted] using hsigned
      rw [h token hsub] at hold; cases hold

theorem AtStale.of_quiet {pc : LogoutPc} (q : Quiet s s') (h : AtStale cfg b base s pc) :
    AtStale cfg b base s' pc := by
  cases pc with
  | acquire => exact h
  | select token | revoke token owner => exact ⟨h.1, h.2.1, h.2.2.of_quiet q⟩
  | bearer u => exact ⟨h.1, h.2.of_quiet q⟩
  | bump u => exact NoLiveAccess.of_quiet q h
  | release u | finished u => trivial

theorem AtStale.afterIdentify {u : Option String} (h : ∀ n, u = some n → NoLiveAccess n s) :
    AtStale cfg b base s (afterIdentify u) := by
  cases u with
  | none => trivial
  | some n =>
      simp only [Router.afterIdentify]
      split
      · exact h n rfl
      · trivial

theorem AtStale.of_not_truthy {u : Option String} (h : truthy u = false) :
    AtStale cfg b base s (Router.afterIdentify u) := by
  cases u with
  | none => trivial
  | some n => simp [Router.afterIdentify, h, AtStale]

theorem AtStale.afterRevoke {u : Option String} (h : ∀ n, u = some n → NoLiveAccess n s)
    (hsince : SinceAcquire cfg b base s) : AtStale cfg b base s (afterRevoke u) := by
  simp only [Router.afterRevoke]
  split
  · exact AtStale.afterIdentify h
  · rename_i hfalse; exact ⟨by simpa using hfalse, hsince⟩

theorem atStale_start : AtStale cfg b s s (logoutStart b) := by
  simp only [logoutStart]
  split
  · rename_i token htok
    split
    · rename_i htruthy
      exact ⟨htok, by simp [presentedHash, htok, htruthy], SinceAcquire.refl s⟩
    · exact ⟨rfl, SinceAcquire.refl s⟩
  · exact ⟨rfl, SinceAcquire.refl s⟩

/-- A stale refresh token that is still unrevoked has expired, and so has every access
    token of its account. -/
theorem noLiveAccess_of_expired (e : Expiry cfg s) (hstale : Stale cfg b base) {token : String}
    (htok : b.refreshToken = some token) (hsince : SinceAcquire cfg b base s) {row : RefreshRow}
    (hrow : s.db.refreshTokens (cfg.hashRefresh token) = some row) (hu : row.revoked = false) :
    NoLiveAccess row.username s := by
  intro claims hsub
  cases hlive : accessLive s claims with
  | false => rfl
  | true =>
      obtain ⟨hsigned, hx, he⟩ := accessLive_iff.mp hlive
      obtain ⟨m, hm, rfl⟩ := mem_signed.mp hsigned
      have hcov := e.covered m hm he _ row hrow hu hsub.symm
      -- the row was already dead in `base`
      have hdead : row.expiresAt < ⌊base.now⌋ := by
        by_contra hlt
        have : refreshLive cfg base token = true :=
          Db.acceptsRefresh_iff.mpr ⟨row, hsince.unrevoked _ row hrow hu, hu, not_lt.mp hlt⟩
        rw [hstale.refresh token htok] at this; cases this
      have hfloor : ⌊base.now⌋ ≤ m.claims.exp := Int.floor_le_iff.mpr (by
        have := hsince.now
        linarith)
      omega

/-- The stale logout's own steps. -/
theorem AtStale.own {pc pc' : LogoutPc} (e : Expiry cfg s) (hstale : Stale cfg b base)
    (ha : (Thread.logout b pc).inLock = true → Assertion cfg i s (.logout b pc))
    (h : AtStale cfg b base s pc) (hn : logoutNext cfg i s b pc = some (s', pc')) :
    AtStale cfg b base s' pc' := by
  cases pc with
  | acquire => exact absurd h id
  | select token =>
      cases hn
      exact h
  | revoke token owner =>
      cases hn
      refine AtStale.afterRevoke (fun n hname => ?_) (h.2.2.revokeHash h.2.1)
      split at hname
      · -- the row was unrevoked, so it has expired
        rename_i hlive
        obtain ⟨row, hrow, hu⟩ := Db.hasUnrevoked_iff.mp hlive
        have hown : owner = some row.username := ha rfl row hrow
        obtain rfl : row.username = n := Option.some.inj (hown.symm.trans hname)
        exact noLiveAccess_of_expired e hstale h.1 h.2.2 hrow hu
      · cases hname
  | bearer u =>
      obtain ⟨rfl, rfl | ⟨claims, hb, hv, rfl⟩⟩ := logoutNext_bearer hn
      · exact AtStale.of_not_truthy h.1
      · -- a bearer token that passes here was live in `base`
        have hlive := h.2.accessLive_base hv
        rw [hstale.bearer claims hb] at hlive; cases hlive
  | bump u =>
      cases hn
      trivial
  | release u =>
      cases hn
      trivial
  | finished u => cases hn

/-- The stale refresh token is dead throughout the critical section. -/
theorem SinceAcquire.refreshDead (h : SinceAcquire cfg b base s) (hstale : Stale cfg b base)
    {token : String} (htok : b.refreshToken = some token) : refreshLive cfg s token = false := by
  cases hlive : refreshLive cfg s token with
  | false => rfl
  | true =>
      obtain ⟨row, hrow, hu, hx⟩ := Db.acceptsRefresh_iff.mp hlive
      have hold : refreshLive cfg base token = true := Db.acceptsRefresh_iff.mpr
        ⟨row, h.unrevoked _ row hrow hu, hu, (Int.floor_le_floor h.now).trans hx⟩
      rw [hstale.refresh token htok] at hold; cases hold

/-- Revoking a dead refresh token changes no live one. -/
theorem refreshLive_revokeHash {token : String} (hdead : refreshLive cfg s token = false)
    (other : String) :
    refreshLive cfg (s.revokeHash (cfg.hashRefresh token)) other = refreshLive cfg s other := by
  by_cases heq : cfg.hashRefresh other = cfg.hashRefresh token
  · have hother : refreshLive cfg s other = false := by
      simpa [refreshLive, heq] using hdead
    rw [hother]
    cases hlive : refreshLive cfg (s.revokeHash (cfg.hashRefresh token)) other with
    | false => rfl
    | true =>
        obtain ⟨row, hrow, hu, -⟩ := Db.acceptsRefresh_iff.mp hlive
        exact absurd heq (Db.revokeHash_row hrow hu).1
  · have hrow : (s.revokeHash (cfg.hashRefresh token)).db.refreshTokens (cfg.hashRefresh other) =
        s.db.refreshTokens (cfg.hashRefresh other) := by
      simp [Shared.revokeHash, Db.revokeHash, heq]
    simp only [refreshLive, Db.acceptsRefresh, hrow]
    rfl

/-- The epoch bump of an account without a live access token changes no live one. -/
theorem accessLive_bump {u : String} (inv : SessionInv s) (h : NoLiveAccess u s)
    (token : Claims) : accessLive (s.bumpEpoch u) token = accessLive s token := by
  by_cases hsub : token.sub = u
  · rw [h token hsub]
    cases hlive : accessLive (s.bumpEpoch u) token with
    | false => rfl
    | true =>
        obtain ⟨hsigned, -, he⟩ := accessLive_iff.mp hlive
        obtain ⟨m, hm, rfl⟩ := mem_signed.mp hsigned
        exact absurd he (inv.epochs_lt_of_bump u m hm hsub)
  · have hiff : accessLive (s.bumpEpoch u) token = true ↔ accessLive s token = true := by
      simp only [accessLive_iff, Shared.bumpEpoch, Db.bumpEpoch_getEpoch, if_neg hsub]
      rfl
    exact Bool.eq_iff_iff.mpr hiff

end Stale

theorem expiry_boot (cfg : Config) (users : String → Option User) (now : ℚ) :
    Expiry cfg (boot users now).shared where
  young m hm := by cases hm
  covered m hm := by cases hm

/-- A step of a stale logout leaves every live credential alone. -/
theorem sameLive_of_stale {cfg : Config} {b : LogoutIn} {base s s' : Shared} {i : ℕ}
    {pc pc' : LogoutPc} (inv : SessionInv s) (hstale : Stale cfg b base)
    (h : AtStale cfg b base s pc) (hn : logoutNext cfg i s b pc = some (s', pc')) :
    SameLive cfg s s' := by
  cases pc with
  | acquire => exact absurd h id
  | select token =>
      cases hn
      exact ⟨fun _ => rfl, fun _ => rfl⟩
  | revoke token owner =>
      cases hn
      exact ⟨fun _ => rfl, refreshLive_revokeHash (h.2.2.refreshDead hstale h.1)⟩
  | bearer u =>
      obtain rfl : s' = s := (logoutNext_bearer hn).1
      exact ⟨fun _ => rfl, fun _ => rfl⟩
  | bump u =>
      cases hn
      exact ⟨accessLive_bump inv h, fun _ => rfl⟩
  | release u =>
      cases hn
      exact ⟨fun _ => rfl, fun _ => rfl⟩
  | finished u => cases hn

/-- A logout that presents nothing live changes nobody's session, in the runs in which
    every refresh signs its access token in time. -/
theorem logout_dead_credentials (cfg : Config) (users : String → Option User) (now : ℚ)
    (hlt : cfg.jwtExpiry ≤ cfg.refreshExpiry) (c₀ c₁ c c' : Conf Shared Thread) (b : LogoutIn)
    (i : ℕ) (k k' : String) (h0 : Steps (router cfg).step (InTime cfg) (boot users now) c₀)
    (hacq : c₀.pool[i]? = some (.logout b .acquire)) (hstale : Stale cfg b c₀.shared)
    (h1 : (router cfg).step c₀ (.sched i k) = some c₁)
    (hrun : Steps (router cfg).step (InTime cfg) c₁ c)
    (h2 : (router cfg).step c (.sched i k') = some c') :
    SameLive cfg c₀.shared c₁.shared ∧ SameLive cfg c.shared c'.shared := by
  obtain ⟨hpc₁, hshared⟩ := logout_acquires hacq h1
  have hacquire : SameLive cfg c₀.shared c₁.shared := by
    rw [hshared]; exact ⟨fun _ => rfl, fun _ => rfl⟩
  have hstale₁ : Stale cfg b c₁.shared :=
    ⟨fun t ht => (hacquire.refresh t).trans (hstale.refresh t ht),
      fun t ht => (hacquire.access t).trans (hstale.bearer t ht)⟩
  have hog := expiry_outline cfg hlt
  have hann₁ := hog.steps (h0.trans (Steps.single (by simp [InTime, mintInTime, hacq]) h1))
    ⟨⟨sessionInv_boot users now, expiry_boot cfg users now⟩, fun j t ht => by simp [boot] at ht⟩
  -- the assertion of the stale logout holds where it stands in `c`
  obtain ⟨pc, hpc, hat⟩ := logout_follow (L := AtStale cfg b c₁.shared) hog
    (fun s s' pc q h => h.of_quiet q) (fun _ h => h) (fun _ _ => trivial)
    (fun s s' pc pc' hI hB h hn => h.own hI.2 hstale₁ (fun hin => (hB hin).1) hn) hrun hann₁
    ⟨_, hpc₁, atStale_start⟩
  have hann := hog.steps hrun hann₁
  refine ⟨hacquire, ?_⟩
  rcases Prog.step_cases h2 with ⟨r, he, -⟩ | ⟨j, x, t, s, t', he, ht, hn, rfl⟩ | ⟨x, s, he, -, -⟩
  · cases he
  · obtain ⟨rfl, rfl⟩ := Event.sched.inj he
    obtain rfl : t = .logout b pc := Option.some.inj (ht.symm.trans hpc)
    obtain ⟨pc', ha, rfl⟩ := next_logout (k := k') hn
    exact sameLive_of_stale hann.1.1 hstale₁ hat ha
  · cases he

/-- Two kept logins, then a logout with both credentials of the replaced one. -/
def sampleReplaced : List (Event Request String ℚ) :=
  .enter (.login ⟨"admin", "secret", true⟩) :: List.replicate 9 (.sched 0 "r1") ++
    .enter (.login ⟨"admin", "secret", true⟩) :: List.replicate 9 (.sched 1 "r2") ++
    [.enter (.logout ⟨some "r1", some ⟨"admin", 0, 600, 1⟩⟩)]

/-- The replaced session's logout leaves the new session alone. -/
theorem logout_dead_credentials_replaced :
    ∃ c c' : Conf Shared Thread, (router sampleConfig).step c (.sched 2 "") = some c' ∧
      refreshLive sampleConfig c.shared "r2" = true ∧ SameLive sampleConfig c.shared c'.shared := by
  let start := guardedStep (router sampleConfig).step (InTime sampleConfig)
  let c₀ := exec start (boot sampleUsers 0) sampleReplaced
  let c₁ := exec (router sampleConfig).step c₀ [.sched 2 ""]
  let c := exec start c₁ [.sched 2 ""]
  have h0 : Steps (router sampleConfig).step (InTime sampleConfig) (boot sampleUsers 0) c₀ :=
    Steps.execGuarded (by with_unfolding_all decide)
  have h1 : (router sampleConfig).step c₀ (.sched 2 "") = some c₁ :=
    step_exec (by with_unfolding_all decide)
  have hrun : Steps (router sampleConfig).step (InTime sampleConfig) c₁ c :=
    Steps.execGuarded (by with_unfolding_all decide)
  have h2 : (router sampleConfig).step c (.sched 2 "") =
      some (exec (router sampleConfig).step c [.sched 2 ""]) :=
    step_exec (by with_unfolding_all decide)
  have hstale : Stale sampleConfig ⟨some "r1", some ⟨"admin", 0, 600, 1⟩⟩ c₀.shared := by
    refine ⟨?_, ?_⟩
    · rintro token ⟨⟩; with_unfolding_all decide
    · rintro token ⟨⟩; with_unfolding_all decide
  exact ⟨c, _, h2, by with_unfolding_all decide,
    (logout_dead_credentials sampleConfig sampleUsers 0 (by decide) c₀ c₁ c _ _ 2 "" "" h0
      (by with_unfolding_all decide) hstale h1 hrun h2).2⟩

/-- A rotation that waits `stall` seconds between its row and its access token; after
    `wait` more seconds a logout presents the rotated token. -/
def sampleStalled (stall wait : ℚ) : List (Event Request String ℚ) :=
  .enter (.login ⟨"admin", "secret", true⟩) :: List.replicate 9 (.sched 0 "r1") ++
    .enter (.refresh ⟨"r1"⟩) :: List.replicate 4 (.sched 1 "r2") ++
    [.env stall, .sched 1 "", .sched 1 "", .env wait, .enter (.logout ⟨some "r2", none⟩)]

/-- A logout that presented nothing live and killed the access token `token`. -/
def Disturbs (cfg : Config) (events : List (Event Request String ℚ)) (token : Claims) : Prop :=
  ∃ c c' : Conf Shared Thread, Reachable cfg sampleUsers 0 c ∧
    run (router cfg).step (boot sampleUsers 0) events = some c ∧
    c.pool[2]? = some (.logout ⟨some "r2", none⟩ .acquire) ∧
    Stale cfg ⟨some "r2", none⟩ c.shared ∧
    run (router cfg).step c (List.replicate 5 (.sched 2 "")) = some c' ∧
    c'.pool[2]? = some (.logout ⟨some "r2", none⟩ (.finished (some "admin"))) ∧
    accessLive c.shared token = true ∧ accessLive c'.shared token = false

/-- Expiries one second apart and a stall of three seconds, or the shipped expiries and a
    stall of thirty days. -/
theorem stale_logout_disturbs :
    Disturbs { sampleConfig with refreshExpiry := 601 } (sampleStalled 3 (1199 / 2))
      ⟨"admin", 3, 603, 1⟩ ∧
    Disturbs sampleConfig (sampleStalled 2592001 0) ⟨"admin", 2592001, 2592601, 1⟩ := by
  refine ⟨⟨exec (router { sampleConfig with refreshExpiry := 601 }).step (boot sampleUsers 0)
      (sampleStalled 3 (1199 / 2)), exec (router { sampleConfig with refreshExpiry := 601 }).step
      (exec (router { sampleConfig with refreshExpiry := 601 }).step (boot sampleUsers 0)
        (sampleStalled 3 (1199 / 2))) (List.replicate 5 (.sched 2 "")), Steps.exec ?_, run_exec ?_,
      ?_, ⟨?_, ?_⟩, run_exec ?_, ?_, ?_, ?_⟩,
    ⟨exec (router sampleConfig).step (boot sampleUsers 0) (sampleStalled 2592001 0),
      exec (router sampleConfig).step (exec (router sampleConfig).step (boot sampleUsers 0)
        (sampleStalled 2592001 0)) (List.replicate 5 (.sched 2 "")), Steps.exec ?_, run_exec ?_,
      ?_, ⟨?_, ?_⟩, run_exec ?_, ?_, ?_, ?_⟩⟩
  all_goals with_unfolding_all decide

end Babycat.Router
