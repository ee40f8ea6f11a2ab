/-
  Babycat.Router.Logout

  What a logout kills.

  `logout` identifies the account by the refresh token of its body, else by a
  current bearer token, and bumps the epoch.  The bump reaches access tokens
  only; of the refresh tokens, `logout` revokes the presented one and no other.
  `logout_complete_iff` says exactly when that ends the session, and
  `logout_dead_credentials` that a logout with nothing live to present ends
  nobody's.
-/

import Babycat.Router.SessionInv

namespace Babycat.Router

open Babycat.Conc

/-- The hash `logout` revokes, if the body has a refresh token. -/
def presentedHash (cfg : Config) (b : LogoutIn) : Option String :=
  match b.refreshToken with
  | some token => if truthy (some token) then some (cfg.hashRefresh token) else none
  | none => none

/-! ## The critical section of one logout -/

/-- The rows in `s`, compared with the rows `base` when the logout took the lock. -/
structure SinceAcquire (cfg : Config) (b : LogoutIn) (base s : Shared) : Prop where
  unrevoked : ∀ h row, s.db.refreshTokens h = some row → row.revoked = false →
    base.db.refreshTokens h = some row
  kept : ∀ h row, base.db.refreshTokens h = some row → row.revoked = false →
    ⌊s.now⌋ ≤ row.expiresAt → presentedHash cfg b ≠ some h → s.db.refreshTokens h = some row
  issued : s.hist.issued = base.hist.issued
  minted : s.minted = base.minted
  epoch : ∀ n, s.db.getEpoch n = base.db.getEpoch n
  now : base.now ≤ s.now

/-- The presented refresh token is not (or no longer) unrevoked. -/
def PresentedRevoked (cfg : Config) (b : LogoutIn) (s : Shared) : Prop :=
  ∀ h, presentedHash cfg b = some h → s.db.hasUnrevoked h = false

/-- What holds at each point of a logout since it took the lock in `base`. -/
def AtLogout (cfg : Config) (b : LogoutIn) (base s : Shared) : LogoutPc → Prop
  | .acquire => False
  | .select token | .revoke token _ =>
      presentedHash cfg b = some (cfg.hashRefresh token) ∧ SinceAcquire cfg b base s
  | .bearer _ | .bump _ => PresentedRevoked cfg b s ∧ SinceAcquire cfg b base s
  | .release _ | .finished _ => True

section AtLogout

variable {cfg : Config} {b : LogoutIn} {base s s' : Shared} {i : ℕ}

theorem SinceAcquire.refl (s : Shared) : SinceAcquire cfg b s s :=
  ⟨fun _ _ h _ => h, fun _ _ h _ _ _ => h, rfl, rfl, fun _ => rfl, le_refl _⟩

theorem SinceAcquire.of_quiet (q : Quiet s s') (h : SinceAcquire cfg b base s) :
    SinceAcquire cfg b base s' where
  unrevoked k row hr hu := h.unrevoked k row (q.rows k row hr) hu
  kept k row hr hu hx hne :=
    q.kept k row (h.kept k row hr hu ((Int.floor_le_floor q.now).trans hx) hne) hu hx
  issued := q.issued.trans h.issued
  minted := q.minted.trans h.minted
  epoch n := (q.epoch n).trans (h.epoch n)
  now := h.now.trans q.now

theorem SinceAcquire.revokeHash {k : String} (hk : presentedHash cfg b = some k)
    (h : SinceAcquire cfg b base s) : SinceAcquire cfg b base (s.revokeHash k) where
  unrevoked k' row hr hu := h.unrevoked k' row (Db.revokeHash_row hr hu).2 hu
  kept k' row hr hu hx hne := by
    have hk' : k' ≠ k := fun heq => hne (heq ▸ hk)
    simpa [Shared.revokeHash, Db.revokeHash, hk'] using h.kept k' row hr hu hx hne
  issued := h.issued
  minted := h.minted
  epoch := h.epoch
  now := h.now

theorem hasUnrevoked_false_iff {db : Db} {k : String} :
    db.hasUnrevoked k = false ↔ ∀ row, db.refreshTokens k = some row → row.revoked = true := by
  simp only [Db.hasUnrevoked]
  split
  · rename_i r hr; simp [hr]
  · rename_i hr; simp [hr]

theorem PresentedRevoked.of_rows (hrows : ∀ h row, s'.db.refreshTokens h = some row →
      s.db.refreshTokens h = some row) (h : PresentedRevoked cfg b s) :
    PresentedRevoked cfg b s' := fun k hk =>
  hasUnrevoked_false_iff.mpr fun row hr =>
    hasUnrevoked_false_iff.mp (h k hk) row (hrows k row hr)

theorem presentedRevoked_revokeHash {k : String} (hk : presentedHash cfg b = some k) :
    PresentedRevoked cfg b (s.revokeHash k) := by
  intro k' hk'
  obtain rfl : k = k' := Option.some.inj (hk.symm.trans hk')
  refine hasUnrevoked_false_iff.mpr fun row hr => ?_
  cases hu : row.revoked with
  | true => rfl
  | false => exact absurd rfl (Db.revokeHash_row hr hu).1

theorem AtLogout.of_quiet {pc : LogoutPc} (q : Quiet s s') (h : AtLogout cfg b base s pc) :
    AtLogout cfg b base s' pc := by
  cases pc with
  | acquire => exact h
  | select token | revoke token owner => exact ⟨h.1, h.2.of_quiet q⟩
  | bearer u | bump u => exact ⟨h.1.of_rows q.rows, h.2.of_quiet q⟩
  | release u | finished u => trivial

theorem AtLogout.afterIdentify (u : Option String) (h : PresentedRevoked cfg b s)
    (h' : SinceAcquire cfg b base s) : AtLogout cfg b base s (afterIdentify u) := by
  cases u with
  | none => trivial
  | some u =>
      simp only [Router.afterIdentify]
      split
      · exact ⟨h, h'⟩
      · trivial

theorem AtLogout.afterRevoke (u : Option String) (h : PresentedRevoked cfg b s)
    (h' : SinceAcquire cfg b base s) : AtLogout cfg b base s (afterRevoke u) := by
  simp only [Router.afterRevoke]
  split
  · exact AtLogout.afterIdentify u h h'
  · exact ⟨h, h'⟩

theorem atLogout_start : AtLogout cfg b s s (logoutStart b) := by
  simp only [logoutStart]
  split
  · rename_i token htok
    split
    · rename_i htruthy
      exact ⟨by simp [presentedHash, htok, htruthy], SinceAcquire.refl s⟩
    · rename_i htruthy
      exact ⟨fun k hk => by simp [presentedHash, htok, htruthy] at hk, SinceAcquire.refl s⟩
  · rename_i hnone
    exact ⟨fun k hk => by simp [presentedHash, hnone] at hk, SinceAcquire.refl s⟩

/-- The logout's own steps. -/
theorem AtLogout.own {pc pc' : LogoutPc} (h : AtLogout cfg b base s pc)
    (hn : logoutNext cfg i s b pc = some (s', pc')) : AtLogout cfg b base s' pc' := by
  cases pc with
  | acquire => exact absurd h id
  | select token =>
      cases hn
      exact h
  | revoke token owner =>
      cases hn
      have hrev := presentedRevoked_revokeHash (s := s) h.1
      have hsince := h.2.revokeHash h.1
      exact AtLogout.afterRevoke _ hrev hsince
  | bearer u =>
      obtain ⟨rfl, rfl | ⟨claims, -, -, rfl⟩⟩ := logoutNext_bearer hn <;>
        exact AtLogout.afterIdentify _ h.1 h.2
  | bump u =>
      cases hn
      trivial
  | release u =>
      cases hn
      trivial
  | finished u => cases hn

end AtLogout

/-- An assertion about thread `i`, a logout in its critical section, that its own steps
    move on and that time and purges do not break, holds along every run. -/
theorem logout_follow {cfg : Config} {b : LogoutIn} {i : ℕ} {I : Shared → Prop}
    {B : ℕ → Shared → Thread → Prop} {G : Conf Shared Thread → Event Request String ℚ → Prop}
    {L : Shared → LogoutPc → Prop} {c c' : Conf Shared Thread}
    (hog : OwickiGries (router cfg) G I (Mutex.Holds Shared.sessionLock Thread.inLock B))
    (hquiet : ∀ s s' pc, Quiet s s' → L s pc → L s' pc)
    (hwait : ∀ s, ¬ L s .acquire) (hdone : ∀ s u, L s (.finished u))
    (hown : ∀ s s' pc pc', I s → ((Thread.logout b pc).inLock = true → B i s (.logout b pc)) →
      L s pc → logoutNext cfg i s b pc = some (s', pc') → L s' pc')
    (hrun : Steps (router cfg).step G c c')
    (hc : Annotated I (Mutex.Holds Shared.sessionLock Thread.inLock B) c)
    (h : ∃ pc, c.pool[i]? = some (.logout b pc) ∧ L c.shared pc) :
    ∃ pc, c'.pool[i]? = some (.logout b pc) ∧ L c'.shared pc := by
  have hstep : ∀ a (e : Event Request String ℚ) a',
      Annotated I (Mutex.Holds Shared.sessionLock Thread.inLock B) a →
      (∃ t, a.pool[i]? = some t ∧ ∃ pc, t = .logout b pc ∧ L a.shared pc) → G a e →
      (router cfg).step a e = some a' →
      ∃ t, a'.pool[i]? = some t ∧ ∃ pc, t = .logout b pc ∧ L a'.shared pc := by
    intro a e a' ha hk _ hs
    refine (session_mutex cfg).follow_step (Q := Quiet)
      (A := fun s t => ∃ pc, t = .logout b pc ∧ L s pc) (fun j t ht hin => (ha.2 j t ht hin).1)
      (fun x s' hx => Quiet.tick hx) (fun j k t s' t' hn ho => quiet_of_outside hn ho)
      (fun s s' t q _ ⟨pc, ht, hl⟩ => ⟨pc, ht, hquiet s s' pc q hl⟩) ?_ ?_ hk hs
    · rintro s s' t hout ⟨pc, rfl, hl⟩
      cases pc with
      | acquire => exact absurd hl (hwait s)
      | finished u => exact ⟨.finished u, rfl, hdone s' u⟩
      | select | revoke | bearer | bump | release => cases hout
    · rintro k t s' t' ht ⟨pc, rfl, hl⟩ hn
      obtain ⟨pc', hx, rfl⟩ := next_logout (k := k) hn
      exact ⟨pc', rfl, hown _ _ pc pc' ha.1 (fun hin => (ha.2 i _ ht hin).2) hl hx⟩
  obtain ⟨pc, hpc, hl⟩ := h
  obtain ⟨t, ht, pc', rfl, hl'⟩ :=
    hrun.invariant_under hog.step hstep hc ⟨_, hpc, pc, rfl, hl⟩
  exact ⟨pc', ht, hl'⟩

/-- The first step of a logout takes the lock and leaves everything else. -/
theorem logout_acquires {cfg : Config} {c c' : Conf Shared Thread} {b : LogoutIn} {i : ℕ}
    {k : String} (hacq : c.pool[i]? = some (.logout b .acquire))
    (h : (router cfg).step c (.sched i k) = some c') :
    c'.pool[i]? = some (.logout b (logoutStart b)) ∧
      c'.shared = { c.shared with sessionLock := some i } := by
  rcases Prog.step_cases h with ⟨r, he, -⟩ | ⟨j, k', t, s, t', he, ht, hn, rfl⟩ | ⟨x, s, he, -, -⟩
  · cases he
  · obtain ⟨rfl, rfl⟩ := Event.sched.inj he
    obtain rfl : t = .logout b .acquire := Option.some.inj (ht.symm.trans hacq)
    obtain ⟨pc', ha, rfl⟩ := next_logout (k := k) hn
    obtain ⟨x, hx, heq⟩ := Option.map_eq_some_iff.mp ha
    obtain ⟨rfl, rfl⟩ := Prod.mk.inj heq
    exact ⟨by simp [getElem?_set_of_get ht], (acquire_some hx).2⟩
  · cases he

/-- From taking the lock to any later point of the logout. -/
theorem atLogout_of_steps {cfg : Config} {users : String → Option User} {now : ℚ}
    {c₀ c₁ c : Conf Shared Thread} {b : LogoutIn} {i : ℕ} {k : String}
    (h0 : Reachable cfg users now c₀) (hacq : c₀.pool[i]? = some (.logout b .acquire))
    (h1 : (router cfg).step c₀ (.sched i k) = some c₁) (hrun : Steps (router cfg).step free c₁ c) :
    ∃ pc, c.pool[i]? = some (.logout b pc) ∧ AtLogout cfg b c₁.shared c.shared pc := by
  have hreach : Reachable cfg users now c₁ := h0.trans (Steps.single trivial h1)
  exact logout_follow (session_outline cfg free) (fun s s' pc q h => h.of_quiet q) (fun _ h => h)
    (fun _ _ => trivial) (fun s s' pc pc' _ _ h hn => h.own hn) hrun hreach.annotated
    ⟨_, (logout_acquires hacq h1).1, atLogout_start⟩

/-! ## What the finished logout has killed -/

/-- Every access token of `u` in `ms` is behind the account's epoch. -/
def Behind (u : String) (ms : List Minted) (s : Shared) : Prop :=
  ∀ m ∈ ms, m.claims.sub = u → ∀ e, s.db.getEpoch u = some e → m.claims.epoch < e

theorem Behind.of_decay {u : String} {ms : List Minted} {s s' : Shared} (d : Decay s s')
    (h : Behind u ms s) : Behind u ms s' := by
  intro m hm hsub e he
  obtain ⟨e₀, he₀, hle⟩ := d.epoch u e he
  exact (h m hm hsub e₀ he₀).trans_le hle

/-- The bump of the logout leaves every token signed so far behind. -/
theorem behind_of_bump {s : Shared} (inv : SessionInv s) (u : String) {ms : List Minted}
    (hms : ∀ m ∈ ms, m ∈ s.minted) : Behind u ms (s.bumpEpoch u) := by
  rintro m hm rfl e he
  simp only [Shared.bumpEpoch, Db.bumpEpoch_getEpoch, if_true] at he
  obtain ⟨e₀, he₀, rfl⟩ := Option.map_eq_some_iff.mp he
  exact Nat.lt_succ_of_le (inv.epochs m (hms m hm) e₀ he₀)

/-- Once past its bump, a logout has left every older access token behind. -/
theorem behind_of_steps {cfg : Config} {users : String → Option User} {now : ℚ}
    {c c' : Conf Shared Thread} {b : LogoutIn} {i : ℕ} {u : String} {ms : List Minted}
    (h : Reachable cfg users now c) (hc : c.pool[i]? = some (.logout b (.bump u)))
    (hms : ∀ m ∈ ms, m ∈ c.shared.minted) (hrun : Steps (router cfg).step free c c') :
    c'.pool[i]? = some (.logout b (.bump u)) ∨ Behind u ms c'.shared := by
  have hstep : ∀ a (e : Event Request String ℚ) a',
      Reachable cfg users now a ∧ (∀ m ∈ ms, m ∈ a.shared.minted) →
      (a.pool[i]? = some (.logout b (.bump u)) ∨ Behind u ms a.shared) → free a e →
      (router cfg).step a e = some a' →
      a'.pool[i]? = some (.logout b (.bump u)) ∨ Behind u ms a'.shared := by
    intro a e a' ha hk _ hs
    rcases hk with hpc | hbehind
    · rcases Prog.step_cases hs with ⟨r, -, rfl⟩ | ⟨j, k, t, s, t', -, ht, hn, rfl⟩ |
          ⟨x, s, -, hx, rfl⟩
      · left
        rw [List.getElem?_append_left (List.getElem?_eq_some_iff.mp hpc).1]
        exact hpc
      · by_cases hij : j = i
        · right
          subst hij
          obtain rfl : t = .logout b (.bump u) := Option.some.inj (ht.symm.trans hpc)
          cases hn
          exact behind_of_bump ha.1.annotated.1 u ha.2
        · left; simpa [getElem?_set_of_get ht, hij] using hpc
      · exact .inl hpc
    · exact .inr (hbehind.of_decay (Decay.of_step hs))
  refine hrun.invariant_under
    (J := fun a => Reachable cfg users now a ∧ ∀ m ∈ ms, m ∈ a.shared.minted)
    (fun a e a' ha _ hs => ⟨ha.1.trans (Steps.single trivial hs), fun m hm =>
      (Decay.of_step hs).minted m (ha.2 m hm)⟩) hstep ⟨h, hms⟩ (.inl hc)

/-- A logout at its bump can finish at once. -/
theorem logout_finishes (cfg : Config) {c : Conf Shared Thread} {b : LogoutIn} {i : ℕ} {u : String}
    (hc : c.pool[i]? = some (.logout b (.bump u))) :
    ∃ c', Steps (router cfg).step free c c' ∧
      c'.pool[i]? = some (.logout b (.finished (some u))) ∧
      c'.shared = (c.shared.bumpEpoch u).release := by
  have hbump : (router cfg).next i c.shared (.logout b (.bump u)) "" =
      some (c.shared.bumpEpoch u, .logout b (.release (some u))) := rfl
  have hrelease : (router cfg).next i (c.shared.bumpEpoch u) (.logout b (.release (some u))) "" =
      some ((c.shared.bumpEpoch u).release, .logout b (.finished (some u))) := rfl
  have hpc : (c.pool.set i (.logout b (.release (some u))))[i]? =
      some (.logout b (.release (some u))) := by rw [getElem?_set_of_get hc, if_pos rfl]
  have hstep := Prog.step_sched hc hbump
  have hstep' := Prog.step_sched (P := router cfg)
    (c := ⟨c.shared.bumpEpoch u, c.pool.set i (.logout b (.release (some u)))⟩) hpc hrelease
  refine ⟨_, (Steps.single trivial hstep).trans (Steps.single trivial hstep'), ?_, rfl⟩
  rw [getElem?_set_of_get hpc, if_pos rfl]

/-- A logout that identified `u` kills everything of `u` that existed when it took the
    lock, exactly when no other refresh token of `u` was still alive. -/
theorem logout_complete_iff (cfg : Config) (users : String → Option User) (now : ℚ)
    (c₀ c₁ c : Conf Shared Thread) (b : LogoutIn) (i : ℕ) (k u : String)
    (h0 : Reachable cfg users now c₀) (hacq : c₀.pool[i]? = some (.logout b .acquire))
    (h1 : (router cfg).step c₀ (.sched i k) = some c₁)
    (hrun : Steps (router cfg).step free c₁ c)
    (hc : c.pool[i]? = some (.logout b (.bump u))) :
    (∀ c₂, Steps (router cfg).step free c c₂ →
      c₂.pool[i]? = some (.logout b (.finished (some u))) →
      (∀ m ∈ c₁.shared.minted, m.claims.sub = u → accessLive c₂.shared m.claims = false) ∧
      (∀ token row, c₁.shared.db.refreshTokens (cfg.hashRefresh token) = some row →
        row.username = u → refreshLive cfg c₂.shared token = false)) ↔
    ∀ token row, c₁.shared.db.refreshTokens (cfg.hashRefresh token) = some row →
      row.username = u → row.revoked = false →
      presentedHash cfg b = some (cfg.hashRefresh token) ∨ row.expiresAt < ⌊c.shared.now⌋ := by
  have hreach₁ : Reachable cfg users now c₁ := h0.trans (Steps.single trivial h1)
  have hreach : Reachable cfg users now c := hreach₁.trans hrun
  -- at the bump: the presented token is revoked, the other rows are those of `c₁`
  obtain ⟨pc, hpc, hat⟩ := atLogout_of_steps h0 hacq h1 hrun
  obtain rfl : pc = .bump u := by simpa [hc, eq_comm] using hpc
  obtain ⟨hpresented, hsince⟩ := hat
  constructor
  · intro hall token row hrow hu hrev
    by_contra hcon
    obtain ⟨hne, hx⟩ := not_or.mp hcon
    have hkept := hsince.kept _ row hrow hrev (not_lt.mp hx) hne
    -- the logout finishes at once, and the row is still accepted
    obtain ⟨c₂, hrun₂, hfin, hshared⟩ := logout_finishes cfg hc
    have hlate := hall c₂ hrun₂ hfin
    have hlive : refreshLive cfg c₂.shared token = true := by
      rw [hshared]
      exact Db.acceptsRefresh_iff.mpr ⟨row, hkept, hrev, not_lt.mp hx⟩
    rw [hlate.2 token row hrow hu] at hlive
    cases hlive
  · intro hcond c₂ hrun₂ hfin
    have hd := Decay.of_steps hrun₂
    refine ⟨fun m hm hsub => ?_, fun token row hrow hu => ?_⟩
    · have hms : ∀ m ∈ c₁.shared.minted, m ∈ c.shared.minted := fun m hm => hsince.minted ▸ hm
      rcases behind_of_steps hreach hc hms hrun₂ with hpc₂ | hbehind
      · rw [hfin] at hpc₂; cases hpc₂
      · exact accessDead_of_decay (Decay.refl _) fun e he => hbehind m hm hsub e (hsub ▸ he)
    · have hissued : cfg.hashRefresh token ∈ c.shared.hist.issued :=
        hsince.issued ▸ hreach₁.annotated.1.issued _ row hrow
      refine refreshDead_of_decay hd hissued ?_
      cases hlive : refreshLive cfg c.shared token with
      | false => rfl
      | true =>
          obtain ⟨r, hr, hrev, hx⟩ := Db.acceptsRefresh_iff.mp hlive
          obtain rfl : row = r :=
            Option.some.inj (hrow.symm.trans (hsince.unrevoked _ r hr hrev))
          rcases hcond token row hrow hu hrev with hpres | hexp
          · have := hasUnrevoked_false_iff.mp (hpresented _ hpres) row hr
            rw [hrev] at this; cases this
          · omega

/-- After a kept login of `admin`, a logout enters with `body` and takes `n` steps. -/
def sampleLogout (body : LogoutIn) (n : ℕ) : Conf Shared Thread :=
  exec (router sampleConfig).step
    (exec (router sampleConfig).step (boot sampleUsers 0)
      (.enter (.login ⟨"admin", "secret", true⟩) :: List.replicate 9 (.sched 0 "r1") ++
        [.enter (.logout body)]))
    (List.replicate n (.sched 1 ""))

/-- A logout that presents the refresh token, and one that presents the access token only. -/
def sampleByRefresh : LogoutIn := ⟨some "r1", none⟩

def sampleByBearer : LogoutIn := ⟨none, some ⟨"admin", 0, 600, 1⟩⟩

theorem sampleLogout_reachable {body : LogoutIn} {n : ℕ}
    (h : (run (router sampleConfig).step (boot sampleUsers 0)
      (.enter (.login ⟨"admin", "secret", true⟩) :: List.replicate 9 (.sched 0 "r1") ++
        [.enter (.logout body)])).isSome = true)
    (hn : (run (router sampleConfig).step (sampleLogout body 0)
      (List.replicate n (.sched 1 ""))).isSome = true) :
    Reachable sampleConfig sampleUsers 0 (sampleLogout body n) :=
  (Steps.exec h).trans (Steps.exec hn)

/-- With the kept refresh token presented, the logout is complete. -/
theorem logout_complete_by_refresh :
    ∃ c₁ c : Conf Shared Thread, c.pool[1]? = some (.logout sampleByRefresh (.bump "admin")) ∧
      ∀ c₂, Steps (router sampleConfig).step free c c₂ →
        c₂.pool[1]? = some (.logout sampleByRefresh (.finished (some "admin"))) →
        (∀ m ∈ c₁.shared.minted, m.claims.sub = "admin" → accessLive c₂.shared m.claims = false) ∧
        (∀ token row, c₁.shared.db.refreshTokens (sampleConfig.hashRefresh token) = some row →
          row.username = "admin" → refreshLive sampleConfig c₂.shared token = false) := by
  have hreach : Reachable sampleConfig sampleUsers 0 (sampleLogout sampleByRefresh 0) :=
    sampleLogout_reachable (by with_unfolding_all decide) rfl
  have h1 : (router sampleConfig).step (sampleLogout sampleByRefresh 0) (.sched 1 "") =
      some (sampleLogout sampleByRefresh 1) := step_exec (by with_unfolding_all decide)
  have hrun : Steps (router sampleConfig).step free (sampleLogout sampleByRefresh 1)
      (exec (router sampleConfig).step (sampleLogout sampleByRefresh 1)
        [.sched 1 "", .sched 1 ""]) := Steps.exec (by with_unfolding_all decide)
  have hc : (exec (router sampleConfig).step (sampleLogout sampleByRefresh 1)
      [.sched 1 "", .sched 1 ""]).pool[1]? = some (.logout sampleByRefresh (.bump "admin")) := by
    with_unfolding_all decide
  refine ⟨_, _, hc, (logout_complete_iff sampleConfig sampleUsers 0 _ _ _ sampleByRefresh 1 ""
    "admin" hreach (by with_unfolding_all decide) h1 hrun hc).mpr ?_⟩
  -- the account's only unrevoked row is the presented one
  intro token row hrow hu hrev
  have hreach₁ : Reachable sampleConfig sampleUsers 0 (sampleLogout sampleByRefresh 1) :=
    hreach.trans (Steps.single trivial h1)
  have hr1 : (sampleLogout sampleByRefresh 1).shared.db.refreshTokens "#r1" =
      some ⟨"admin", 2592000, false⟩ := by with_unfolding_all decide
  left
  rw [hreach₁.annotated.1.unique _ "#r1" row _ hrow hr1 hrev rfl hu]
  decide

/-- With only the access token presented, the kept refresh token survives the logout. -/
theorem logout_keeps_refresh_token :
    ∃ c₀ c₁ c₂ : Conf Shared Thread, Reachable sampleConfig sampleUsers 0 c₀ ∧
      c₀.pool[1]? = some (.logout sampleByBearer .acquire) ∧
      (router sampleConfig).step c₀ (.sched 1 "") = some c₁ ∧
      Steps (router sampleConfig).step free c₁ c₂ ∧
      c₂.pool[1]? = some (.logout sampleByBearer (.finished (some "admin"))) ∧
      c₁.shared.db.refreshTokens (sampleConfig.hashRefresh "r1") =
        some ⟨"admin", 2592000, false⟩ ∧
      refreshLive sampleConfig c₂.shared "r1" = true := by
  refine ⟨sampleLogout sampleByBearer 0, sampleLogout sampleByBearer 1,
    exec (router sampleConfig).step (sampleLogout sampleByBearer 1)
      [.sched 1 "", .sched 1 "", .sched 1 ""], ?_, ?_, ?_, ?_, ?_, ?_, ?_⟩
  · exact sampleLogout_reachable (by with_unfolding_all decide) rfl
  · with_unfolding_all decide
  · exact step_exec (by with_unfolding_all decide)
  · exact Steps.exec (by with_unfolding_all decide)
  · with_unfolding_all decide
  · with_unfolding_all decide
  · with_unfolding_all decide

end Babycat.Router
