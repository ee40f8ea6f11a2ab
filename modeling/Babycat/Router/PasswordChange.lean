/-
  Babycat.Router.PasswordChange

  Password changes against logins and against each other.

  `authenticate` verifies the password before it takes `SESSION_LOCK`, and
  `change_password` verifies and updates the row before it does, so each check
  can be separated from its effect by the whole of another request.  `InOrder`
  is the guard of the runs in which that does not happen: an update finds the
  row version the change verified, and a login takes the lock only while no
  change that replaced the version it verified has bumped the epoch.  In these
  runs a finished change has ended every session of the password it replaced,
  and two finished changes are serializable (`change_password_effective`).
-/

import Babycat.Router.SessionInv

namespace Babycat.Router

open Babycat.Conc

/-- The check of the request that moves is still good when it takes effect. -/
def checkStillGood (c : Conf Shared Thread) : Event Request String ℚ → Bool
  | .sched i _ =>
      match c.pool[i]? with
      | some (.login b (.acquire v)) => decide ((b.username, v.pw) ∉ c.shared.hist.closed)
      | some (.changePassword _ (.update u verified)) =>
          decide (c.shared.hist.pwVersion u = verified)
      | _ => true
  | _ => true

/-- The guard of the runs in which every check is still good when it takes effect. -/
def InOrder (c : Conf Shared Thread) (e : Event Request String ℚ) : Prop :=
  checkStillGood c e = true

instance (c : Conf Shared Thread) (e : Event Request String ℚ) : Decidable (InOrder c e) :=
  inferInstanceAs (Decidable (_ = true))

/-! ## Closed password versions -/

/-- The login did not verify a version that a finished change has replaced. -/
def NotClosed (s : Shared) (u : String) (o : Option Login) : Prop :=
  ∀ r, (u, r) ∈ s.hist.closed → o.map Login.pw ≠ some r

/-- No live credential descends from a login that verified a closed version. -/
structure ClosedInv (s : Shared) : Prop where
  access : ∀ m ∈ s.minted, s.db.getEpoch m.claims.sub = some m.claims.epoch →
    NotClosed s m.claims.sub m.origin
  refresh : ∀ h row, s.db.refreshTokens h = some row → row.revoked = false →
    NotClosed s row.username (s.hist.origin h)

/-- What a thread inside the lock relies on. -/
def ClosedAssertion (cfg : Config) (i : ℕ) (s : Shared) : Thread → Prop
  | .login b (.revokeAll v) | .login b (.bump v) | .login b (.mint v) | .login b (.issue v _) =>
      NotClosed s b.username (some ⟨i, v.pw⟩)
  | .refresh _ (.mint u newToken _) => NotClosed s u (s.hist.origin (cfg.hashRefresh newToken))
  | .changePassword _ (.bump u _) => NoUnrevoked s u
  | _ => True

namespace ClosedInv

variable {cfg : Config} {s s' : Shared}

/-- Fewer unrevoked rows and fewer current tokens. -/
theorem of_less (inv : ClosedInv s) (hclosed : s'.hist.closed = s.hist.closed)
    (horigin : s'.hist.origin = s.hist.origin) (hminted : s'.minted = s.minted)
    (hrows : ∀ h row, s'.db.refreshTokens h = some row → row.revoked = false →
      s.db.refreshTokens h = some row)
    (hcurrent : ∀ m ∈ s.minted, s'.db.getEpoch m.claims.sub = some m.claims.epoch →
      s.db.getEpoch m.claims.sub = some m.claims.epoch) : ClosedInv s' where
  access m hm he r hr :=
    inv.access m (hminted ▸ hm) (hcurrent m (hminted ▸ hm) he) r (hclosed ▸ hr)
  refresh h row hrow hu r hr := by
    rw [horigin]
    exact inv.refresh h row (hrows h row hrow hu) hu r (hclosed ▸ hr)

theorem of_quiet (q : Quiet s s') (inv : ClosedInv s) : ClosedInv s' :=
  inv.of_less q.closed q.origin q.minted (fun h row hr _ => q.rows h row hr)
    (fun _ _ he => q.epoch _ ▸ he)

theorem revokeAll (inv : ClosedInv s) (u : String) : ClosedInv (s.revokeAllRefreshTokens u) :=
  inv.of_less rfl rfl rfl (fun _ _ hr hu => (Db.revokeAllRefreshTokens_row hr hu).2)
    (fun _ _ he => he)

theorem revokeHash (inv : ClosedInv s) (k : String) : ClosedInv (s.revokeHash k) :=
  inv.of_less rfl rfl rfl (fun _ _ hr hu => (Db.revokeHash_row hr hu).2) (fun _ _ he => he)

theorem bump (inv : ClosedInv s) (sess : SessionInv s) (u : String) :
    ClosedInv (s.bumpEpoch u) := by
  refine inv.of_less rfl rfl rfl (fun _ _ hr _ => hr) fun m hm he => ?_
  by_cases hsub : m.claims.sub = u
  · exact absurd he (sess.epochs_lt_of_bump u m hm hsub)
  · simpa [Shared.bumpEpoch, Db.bumpEpoch_getEpoch, hsub] using he

theorem bumpLogin (inv : ClosedInv s) (sess : SessionInv s) (u : String) (ℓ : Login) :
    ClosedInv (s.bumpLogin u ℓ) :=
  { inv.bump sess u with }

/-- A change closes the version it replaced once nothing of the account is alive. -/
theorem bumpClosing (inv : ClosedInv s) (sess : SessionInv s) (u : String) (v : ℕ)
    (hno : NoUnrevoked s u) : ClosedInv (s.bumpClosing u v) where
  access m hm he r hr := by
    have hne : m.claims.sub ≠ u := fun h => sess.epochs_lt_of_bump u m hm h he
    rcases List.mem_cons.mp hr with heq | hr
    · exact absurd (Prod.mk.inj heq).1 hne
    · exact (inv.bump sess u).access m hm he r hr
  refresh h row hrow hu r hr := by
    rcases List.mem_cons.mp hr with heq | hr
    · exact absurd (Prod.mk.inj heq).1 (hno h row hrow hu)
    · exact inv.refresh h row hrow hu r hr

theorem mint (inv : ClosedInv s) (u : String) (o : Option Login) (ho : NotClosed s u o) :
    ClosedInv (s.mint (s.nextClaims cfg u) o) where
  access m hm he := by
    rcases List.mem_cons.mp hm with rfl | hm
    · exact ho
    · exact inv.access m hm he
  refresh h row hrow hu := inv.refresh h row hrow hu

theorem issue (inv : ClosedInv s) (u k : String) (o : Option Login) (ho : NotClosed s u o) :
    ClosedInv (s.issueRefreshToken cfg u k o) where
  access m hm he := inv.access m hm he
  refresh h row hrow hu := by
    rcases Db.insertRefresh_row hrow with ⟨rfl, rfl⟩ | ⟨hne, hold⟩
    · have horigin : (s.issueRefreshToken cfg u h o).hist.origin h = o := Function.update_self ..
      rw [horigin]
      exact ho
    · have horigin : (s.issueRefreshToken cfg u k o).hist.origin h = s.hist.origin h :=
        Function.update_of_ne hne ..
      rw [horigin]
      exact inv.refresh h row hold hu

theorem rotate (inv : ClosedInv s) (u k k' : String) (ho : NotClosed s u (s.hist.origin k)) :
    ClosedInv (s.rotate cfg u k k') := by
  have hissue : ClosedInv ((s.revokeHash k).issueRefreshToken cfg u k' (s.hist.origin k)) :=
    (inv.revokeHash k).issue u k' (s.hist.origin k) ho
  exact { hissue with }

end ClosedInv

section Body

variable {cfg : Config} {i : ℕ} {s s' : Shared} {drawn : String}

theorem NotClosed.of_quiet {u : String} {o : Option Login} (q : Quiet s s')
    (h : NotClosed s u o) : NotClosed s' u o := fun r hr => h r (q.closed ▸ hr)

theorem ClosedAssertion.of_quiet {t : Thread} (q : Quiet s s')
    (h : ClosedAssertion cfg i s t) : ClosedAssertion cfg i s' t := by
  cases t with
  | login b pc =>
      cases pc with
      | revokeAll v | bump v | mint v | issue v access => exact NotClosed.of_quiet q h
      | _ => trivial
  | refresh b pc =>
      cases pc with
      | mint u newToken x =>
          simp only [ClosedAssertion] at h ⊢
          rw [q.origin]
          exact h.of_quiet q
      | _ => trivial
  | changePassword b pc =>
      cases pc with
      | bump u ch => exact q.noUnrevoked h
      | _ => trivial
  | logout b pc => trivial

/-- Taking the lock: a login relies on the guard, the others on nothing yet. -/
theorem ClosedAssertion.of_locked {t t' : Thread}
    (hG : ∀ b v, t = .login b (.acquire v) → (b.username, v.pw) ∉ s.hist.closed)
    (h : t.locked = some t') : ClosedAssertion cfg i s t' := by
  cases t with
  | login b pc =>
      cases pc <;> cases h
      rename_i v
      intro r hr heq
      obtain rfl : v.pw = r := Option.some.inj heq
      exact hG b v rfl hr
  | refresh b pc => cases pc <;> cases h; trivial
  | logout b pc => cases pc <;> cases h; trivial
  | changePassword b pc => cases pc <;> cases h; trivial

/-- One statement inside the lock keeps closed versions closed. -/
theorem closed_body {t t' : Thread} (sess : SessionInv s) (inv : ClosedInv s)
    (ha : Assertion cfg i s t) (hc : ClosedAssertion cfg i s t)
    (hn : next cfg i s t drawn = some (s', t')) (hin : t.inLock = true) :
    ClosedInv s' ∧ ClosedAssertion cfg i s' t' := by
  cases t with
  | login b pc =>
      obtain ⟨pc', hstep, rfl⟩ := next_login hn
      cases pc with
      | revokeAll v =>
          cases hstep
          exact ⟨inv.revokeAll _, hc⟩
      | bump v =>
          cases hstep
          exact ⟨inv.bumpLogin sess _ _, hc⟩
      | mint v =>
          cases hstep
          exact ⟨inv.mint _ _ hc, hc⟩
      | issue v access =>
          simp only [loginNext] at hstep
          split at hstep
          · split at hstep
            · cases hstep
            · cases hstep
              exact ⟨inv.issue _ _ _ hc, trivial⟩
          · cases hstep; exact ⟨inv, trivial⟩
      | release r =>
          cases hstep
          exact ⟨inv.of_quiet (Quiet.release s), trivial⟩
      | purge | read | failRead | failWrite | reset | acquire | finished => cases hin
  | refresh b pc =>
      obtain ⟨pc', hstep, rfl⟩ := next_refresh hn
      cases pc with
      | purge =>
          cases hstep
          exact ⟨inv.of_quiet (Quiet.purgeExpired s), trivial⟩
      | select =>
          simp only [refreshNext] at hstep
          split at hstep
          · cases hstep; exact ⟨inv, trivial⟩
          · split at hstep <;>
              (cases hstep; exact ⟨inv, trivial⟩)
      | rotate u =>
          simp only [refreshNext] at hstep
          split at hstep
          · rename_i hlive
            split at hstep
            · cases hstep
            · cases hstep
              -- the exchanged row was unrevoked, so its origin is not closed
              obtain ⟨row, hrow, hu⟩ := Db.hasUnrevoked_iff.mp hlive
              have ho := inv.refresh _ row hrow hu
              rw [ha row hrow] at ho
              refine ⟨inv.rotate _ _ _ ho, ?_⟩
              simpa [ClosedAssertion, NotClosed, Shared.rotate, Shared.revokeHash,
                Shared.issueRefreshToken] using ho
          · cases hstep; exact ⟨inv, trivial⟩
      | mint u newToken x =>
          cases hstep
          exact ⟨inv.mint _ _ hc, trivial⟩
      | release r =>
          cases hstep
          exact ⟨inv.of_quiet (Quiet.release s), trivial⟩
      | acquire | finished => cases hin
  | logout b pc =>
      obtain ⟨pc', hstep, rfl⟩ := next_logout hn
      refine ⟨?_, trivial⟩
      cases pc with
      | select token => cases hstep; exact inv
      | revoke token owner =>
          cases hstep; exact inv.revokeHash _
      | bearer u =>
          obtain rfl : s' = s := (logoutNext_bearer hstep).1
          exact inv
      | bump u => cases hstep; exact inv.bump sess u
      | release u =>
          cases hstep
          exact inv.of_quiet (Quiet.release s)
      | acquire | finished => cases hin
  | changePassword b pc =>
      obtain ⟨pc', hstep, rfl⟩ := next_changePassword hn
      cases pc with
      | revokeAll u ch =>
          cases hstep
          exact ⟨inv.revokeAll u, fun h row hr hu => (Db.revokeAllRefreshTokens_row hr hu).1⟩
      | bump u ch =>
          cases hstep
          exact ⟨inv.bumpClosing sess u _ hc, trivial⟩
      | release u ch =>
          cases hstep
          exact ⟨inv.of_quiet (Quiet.release s), trivial⟩
      | auth | read | update | acquire | changed | refused => cases hin

end Body

/-- The proof outline of the runs in which every check is still good. -/
theorem closed_outline (cfg : Config) :
    OwickiGries (router cfg) InOrder (fun s => SessionInv s ∧ ClosedInv s)
      (Mutex.Holds Shared.sessionLock Thread.inLock
        fun i s t => Assertion cfg i s t ∧ ClosedAssertion cfg i s t) := by
  refine (session_mutex cfg).owickiGries (Q := Quiet) (fun c x s' _ h => Quiet.tick h) ?_ ?_
    (fun s s' q h => ⟨h.1.of_quiet q, h.2.of_quiet q⟩)
    (fun i s s' t q _ _ h => ⟨h.1.of_quiet q, h.2.of_quiet q⟩)
  · intro c i k t s' t' _ hG ht hn ho
    rcases next_outside hn ho with ⟨q, -, hf⟩ | ⟨ha, hlk⟩
    · exact ⟨q, fun hin => absurd (hf.symm.trans hin) (by decide)⟩
    · have hopen : ∀ b v, t = .login b (.acquire v) →
          (b.username, v.pw) ∉ c.shared.hist.closed := by
        rintro b v rfl
        simpa [InOrder, checkStillGood, ht] using hG
      exact ⟨Quiet.acquire ha, fun _ => ⟨Assertion.of_locked hlk,
        (ClosedAssertion.of_locked hopen hlk).of_quiet (Quiet.acquire ha)⟩⟩
  · intro c i k t s' t' hI hB hG ht hn hin
    obtain ⟨inv', ha'⟩ := next_body hI.1 hB.1 hn hin
    obtain ⟨cl', hc'⟩ := closed_body hI.1 hI.2 hB.1 hB.2 hn hin
    exact ⟨⟨inv', cl'⟩, fun _ => ⟨ha', hc'⟩⟩

/-! ## The changes themselves -/

/-- Account and versions of a change that has replaced the row. -/
def Thread.change : Thread → Option (String × PwChange)
  | .changePassword _ (.acquire u ch) | .changePassword _ (.revokeAll u ch)
  | .changePassword _ (.bump u ch) | .changePassword _ (.release u ch)
  | .changePassword _ (.changed u ch) => some (u, ch)
  | _ => none

/-- The change has bumped the epoch. -/
def Thread.hasClosed : Thread → Option (String × PwChange)
  | .changePassword _ (.release u ch) | .changePassword _ (.changed u ch) => some (u, ch)
  | _ => none

section Changes

variable {cfg : Config} {i : ℕ} {s s' : Shared} {drawn : String} {t t' : Thread}

/-- A thread becomes a change by its update, which replaces the current version. -/
theorem next_change (hn : next cfg i s t drawn = some (s', t')) :
    t'.change = t.change ∨ ∃ b u v, t = .changePassword b (.update u v) ∧
      s' = s.replacePassword cfg u b.newPassword drawn ∧
      t'.change = some (u, ⟨v, s.hist.pwVersion u, s.hist.pwVersion u + 1⟩) := by
  cases t with
  | changePassword b pc =>
      obtain ⟨pc', hstep, rfl⟩ := next_changePassword hn
      cases pc with
      | auth =>
          simp only [changeNext] at hstep
          split at hstep <;>
            (cases hstep; exact .inl rfl)
      | read u =>
          simp only [changeNext] at hstep
          split at hstep
          · cases hstep; exact .inl rfl
          · split at hstep <;>
              (cases hstep; exact .inl rfl)
      | update u v =>
          cases hstep
          exact .inr ⟨b, u, v, rfl, rfl, rfl⟩
      | acquire u ch =>
          obtain ⟨x, -, heq⟩ := Option.map_eq_some_iff.mp hstep
          obtain ⟨rfl, rfl⟩ := Prod.mk.inj heq
          exact .inl rfl
      | revokeAll u ch | bump u ch | release u ch =>
          cases hstep; exact .inl rfl
      | changed u ch => cases hstep
      | refused r => cases hstep
  | login b pc | refresh b pc | logout b pc =>
      obtain ⟨x, -, heq⟩ := Option.map_eq_some_iff.mp hn
      obtain ⟨rfl, rfl⟩ := Prod.mk.inj heq
      exact .inl rfl

/-- A change closes the version it replaced before it counts as closed. -/
theorem next_hasClosed (hn : next cfg i s t drawn = some (s', t')) {u : String} {ch : PwChange}
    (h : t'.hasClosed = some (u, ch)) :
    t.hasClosed = some (u, ch) ∨ (u, ch.replaced) ∈ s'.hist.closed := by
  cases t with
  | changePassword b pc =>
      obtain ⟨pc', hstep, rfl⟩ := next_changePassword hn
      cases pc with
      | auth =>
          simp only [changeNext] at hstep
          split at hstep <;>
            (cases hstep; cases h)
      | read u =>
          simp only [changeNext] at hstep
          split at hstep
          · cases hstep; cases h
          · split at hstep <;>
              (cases hstep; cases h)
      | acquire u ch =>
          obtain ⟨x, -, heq⟩ := Option.map_eq_some_iff.mp hstep
          obtain ⟨rfl, rfl⟩ := Prod.mk.inj heq
          cases h
      | update u v | revokeAll u ch =>
          cases hstep; cases h
      | bump u' ch' =>
          cases hstep
          cases h
          exact .inr List.mem_cons_self
      | release u ch =>
          cases hstep; exact .inl h
      | changed u ch => cases hstep
      | refused r => cases hstep
  | login b pc | refresh b pc | logout b pc =>
      obtain ⟨x, -, heq⟩ := Option.map_eq_some_iff.mp hn
      obtain ⟨rfl, rfl⟩ := Prod.mk.inj heq
      cases h

/-- What is known of a thread that has replaced the row. -/
structure ChangeOk (s : Shared) (t : Thread) : Prop where
  inOrder : ∀ u ch, t.change = some (u, ch) → ch.verified = ch.replaced ∧
    ch.installed = ch.replaced + 1 ∧ ch.installed ≤ s.hist.pwVersion u
  closed : ∀ u ch, t.hasClosed = some (u, ch) → (u, ch.replaced) ∈ s.hist.closed

theorem ChangeOk.of_decay (d : Decay s s') (h : ChangeOk s t) : ChangeOk s' t where
  inOrder u ch hch := by
    obtain ⟨hv, hi, hle⟩ := h.inOrder u ch hch
    exact ⟨hv, hi, hle.trans (d.pwVersion u)⟩
  closed u ch hch := d.closed _ (h.closed u ch hch)

theorem ChangeOk.own
    (hG : ∀ b u v, t = .changePassword b (.update u v) → s.hist.pwVersion u = v)
    (h : ChangeOk s t) (hn : next cfg i s t drawn = some (s', t')) : ChangeOk s' t' where
  inOrder u ch hch := by
    rcases next_change hn with hsame | ⟨b, u', v, rfl, rfl, hnew⟩
    · exact (h.of_decay (Decay.of_effect (next_effect hn))).inOrder u ch (hsame ▸ hch)
    · obtain ⟨rfl, rfl⟩ := Prod.mk.inj (Option.some.inj (hnew.symm.trans hch))
      refine ⟨(hG b u' v rfl).symm, rfl, ?_⟩
      simp [Shared.replacePassword]
  closed u ch hch := by
    rcases next_hasClosed hn hch with hold | hnew
    · exact (Decay.of_effect (next_effect hn)).closed _ (h.closed u ch hold)
    · exact hnew

end Changes

theorem closedInv_boot (users : String → Option User) (now : ℚ) :
    ClosedInv (boot users now).shared where
  access m hm := by cases hm
  refresh h row hr := by cases hr

/-- The changes of the runs in which every check is still good. -/
theorem change_outline (cfg : Config) :
    OwickiGries (router cfg) InOrder (fun _ => True) (fun _ => ChangeOk) where
  enter i s r _ := by
    constructor <;> intro u ch h <;> cases r <;> cases h
  own c i k t s' t' hc hG ht hn := by
    refine ⟨trivial, (hc.2 i t ht).own ?_ hn⟩
    rintro b u v rfl
    simpa [InOrder, checkStillGood, ht] using hG
  others c i k t s' t' j v hc _ ht hn _ hj :=
    (hc.2 j v hj).of_decay (Decay.of_effect (next_effect hn))
  env c x s' hc _ hx :=
    ⟨trivial, fun j v hj => (hc.2 j v hj).of_decay (Decay.of_quiet (Quiet.tick hx))⟩

/-- No two threads replaced the same version. -/
def Distinct (c : Conf Shared Thread) : Prop :=
  ∀ (i j : ℕ) (t v : Thread) (u : String) (ch ch' : PwChange), i ≠ j →
    c.pool[i]? = some t → c.pool[j]? = some v →
    t.change = some (u, ch) → v.change = some (u, ch') → ch.replaced ≠ ch'.replaced

theorem distinct_step {cfg : Config} {c c' : Conf Shared Thread} {e : Event Request String ℚ}
    (hok : ∀ (i : ℕ) t, c.pool[i]? = some t → ChangeOk c.shared t) (h : Distinct c)
    (hs : (router cfg).step c e = some c') : Distinct c' := by
  rcases Prog.step_cases hs with ⟨r, -, rfl⟩ | ⟨i, k, t, s, t', -, ht, hn, rfl⟩ |
      ⟨x, s, -, -, rfl⟩
  · have hnone : (enter r).change = none := by cases r <;> rfl
    intro i j t v u ch ch' hij hi hj ht hv
    rcases getElem?_append_cases hi with hi | ⟨-, rfl⟩
    · rcases getElem?_append_cases hj with hj | ⟨-, rfl⟩
      · exact h i j t v u ch ch' hij hi hj ht hv
      · exact absurd (hnone.symm.trans hv) (by simp)
    · exact absurd (hnone.symm.trans ht) (by simp)
  · -- the replaced version is new when thread `i` has just updated the row
    have hnew : ∀ j v u ch ch', j ≠ i → c.pool[j]? = some v → t'.change = some (u, ch) →
        v.change = some (u, ch') → ch.replaced ≠ ch'.replaced := by
      intro j v u ch ch' hji hj hch hch'
      rcases next_change hn with hsame | ⟨b, u', w, -, -, hupd⟩
      · exact h i j t v u ch ch' (Ne.symm hji) ht hj (hsame ▸ hch) hch'
      · obtain ⟨rfl, rfl⟩ := Prod.mk.inj (Option.some.inj (hupd.symm.trans hch))
        obtain ⟨-, hinst, hle⟩ := (hok j v hj).inOrder u' ch' hch'
        simp only
        omega
    intro a b t₁ t₂ u ch ch' hab ha hb hch hch'
    rcases getElem?_set_cases ht ha with ⟨hai, hat⟩ | ⟨hai, hold⟩
    · rcases getElem?_set_cases ht hb with ⟨hbi, -⟩ | ⟨hbi, hold'⟩
      · exact absurd (hai.trans hbi.symm) hab
      · exact hnew b t₂ u ch ch' hbi hold' (hat ▸ hch) hch'
    · rcases getElem?_set_cases ht hb with ⟨-, hbt⟩ | ⟨-, hold'⟩
      · exact (hnew a t₁ u ch' ch hai hold (hbt ▸ hch') hch).symm
      · exact h a b t₁ t₂ u ch ch' hab hold hold' hch hch'
  · exact h

/-- In the runs in which every check is still good when it takes effect: once a change has
    returned `True`, no live credential of the account belongs to a login that verified the
    password it replaced; of two changes that returned `True` the later one verified what
    the earlier one, or a change after it, installed. -/
theorem change_password_effective (cfg : Config) (users : String → Option User) (now : ℚ)
    (c : Conf Shared Thread) (h : Steps (router cfg).step InOrder (boot users now) c) :
    (∀ (i : ℕ) b u ch, c.pool[i]? = some (.changePassword b (.changed u ch)) →
      (∀ m ∈ c.shared.minted, m.claims.sub = u → accessLive c.shared m.claims = true →
        m.origin.map Login.pw ≠ some ch.replaced) ∧
      (∀ token row, c.shared.db.refreshTokens (cfg.hashRefresh token) = some row →
        row.username = u → refreshLive cfg c.shared token = true →
        (c.shared.hist.origin (cfg.hashRefresh token)).map Login.pw ≠ some ch.replaced)) ∧
    (∀ (i j : ℕ) b b' u ch ch', i ≠ j →
      c.pool[i]? = some (.changePassword b (.changed u ch)) →
      c.pool[j]? = some (.changePassword b' (.changed u ch')) →
      (ch.installed ≤ ch'.verified ∨ ch'.installed ≤ ch.verified) ∧
      (ch'.replaced = ch.installed → ch'.verified = ch.installed)) := by
  have hboot : ∀ A : ℕ → Shared → Thread → Prop, ∀ (i : ℕ) t, (boot users now).pool[i]? = some t →
      A i (boot users now).shared t := fun A i t ht => by simp [boot] at ht
  have hinv := (closed_outline cfg).steps h
    ⟨⟨sessionInv_boot users now, closedInv_boot users now⟩, hboot _⟩
  have hok := ((change_outline cfg).steps h ⟨trivial, hboot _⟩).2
  have hdistinct : Distinct c := by
    refine h.invariant_under (J := Annotated (fun _ => True) (fun _ => ChangeOk))
      (change_outline cfg).step (fun a e a' ha hd _ hs => distinct_step ha.2 hd hs)
      ⟨trivial, hboot _⟩ ?_
    intro i j t v u ch ch' _ hi
    simp [boot] at hi
  refine ⟨fun i b u ch hi => ?_, fun i j b b' u ch ch' hij hi hj => ?_⟩
  · have hclosed := (hok i _ hi).closed u ch rfl
    refine ⟨fun m hm hsub hlive => ?_, fun token row hrow hsub hlive => ?_⟩
    · subst hsub
      exact hinv.1.2.access m hm (accessLive_iff.mp hlive).2.2 _ hclosed
    · obtain ⟨r, hr, hrev, -⟩ := Db.acceptsRefresh_iff.mp hlive
      obtain rfl : row = r := Option.some.inj (hrow.symm.trans hr)
      subst hsub
      exact hinv.1.2.refresh _ row hrow hrev _ hclosed
  · obtain ⟨hv, hinst, -⟩ := (hok i _ hi).inOrder u ch rfl
    obtain ⟨hv', hinst', -⟩ := (hok j _ hj).inOrder u ch' rfl
    have hne := hdistinct i j _ _ u ch ch' hij hi hj rfl rfl
    constructor
    · omega
    · intro heq; rw [hv', heq]

/-- A login of `admin` with the password `password`, its token drawn as `token`. -/
def sampleLogin (i : ℕ) (password token : String) : List (Event Request String ℚ) :=
  .enter (.login ⟨"admin", password, true⟩) :: List.replicate 9 (.sched i token)

/-- A change from `secret` to `fresh`, with the access token of the first login. -/
def sampleChange : Request := .changePassword ⟨some ⟨"admin", 0, 600, 1⟩, "secret", "fresh"⟩

/-- A login, a password change and a login with the new password, one after the other. -/
def sampleInOrder : List (Event Request String ℚ) :=
  sampleLogin 0 "secret" "r0" ++ .enter sampleChange :: List.replicate 7 (.sched 1 "pepper-") ++
    sampleLogin 2 "fresh" "r2"

theorem change_password_effective_in_order :
    ∃ c, Steps (router sampleConfig).step InOrder (boot sampleUsers 0) c ∧
      accessLive c.shared ⟨"admin", 0, 600, 3⟩ = true ∧
      ∀ m ∈ c.shared.minted, m.claims.sub = "admin" → accessLive c.shared m.claims = true →
        m.origin.map Login.pw ≠ some 0 := by
  let c := exec (guardedStep (router sampleConfig).step InOrder) (boot sampleUsers 0) sampleInOrder
  have hrun : Steps (router sampleConfig).step InOrder (boot sampleUsers 0) c :=
    Steps.execGuarded (by with_unfolding_all decide)
  have hpc : c.pool[1]? = some (.changePassword ⟨some ⟨"admin", 0, 600, 1⟩, "secret", "fresh"⟩
      (.changed "admin" ⟨0, 0, 1⟩)) := by with_unfolding_all decide
  exact ⟨c, hrun, by with_unfolding_all decide,
    ((change_password_effective sampleConfig sampleUsers 0 c hrun).1 1 _ _ _ hpc).1⟩

/-- The second login verifies `secret`; the change runs; the login takes the lock. -/
def sampleOvertaken : List (Event Request String ℚ) :=
  sampleLogin 0 "secret" "r0" ++ .enter (.login ⟨"admin", "secret", true⟩) ::
    List.replicate 3 (.sched 1 "") ++ .enter sampleChange ::
    List.replicate 7 (.sched 2 "pepper-") ++ List.replicate 6 (.sched 1 "r1")

/-- Two changes both verify `secret`, then both replace it. -/
def sampleTwice : List (Event Request String ℚ) :=
  sampleLogin 0 "secret" "r0" ++ [.enter sampleChange, .enter sampleChange] ++
    List.replicate 2 (.sched 1 "") ++ List.replicate 2 (.sched 2 "") ++
    List.replicate 5 (.sched 1 "pepper-") ++ List.replicate 5 (.sched 2 "pepper-")

/-- Without the guard a login with the replaced password outlives the change, and two
    changes that verified the same password both return `True`. -/
theorem change_password_overtaken :
    (∃ (c : Conf Shared Thread) (b : ChangePasswordIn) (ch : PwChange) (m : Minted),
      Reachable sampleConfig sampleUsers 0 c ∧
      c.pool[2]? = some (.changePassword b (.changed "admin" ch)) ∧
      m ∈ c.shared.minted ∧ m.claims.sub = "admin" ∧ accessLive c.shared m.claims = true ∧
      m.origin.map Login.pw = some ch.replaced) ∧
    (∃ (c : Conf Shared Thread) (b b' : ChangePasswordIn) (ch ch' : PwChange),
      Reachable sampleConfig sampleUsers 0 c ∧
      c.pool[1]? = some (.changePassword b (.changed "admin" ch)) ∧
      c.pool[2]? = some (.changePassword b' (.changed "admin" ch')) ∧
      ch'.replaced = ch.installed ∧ ch'.verified ≠ ch.installed) := by
  refine ⟨⟨exec (router sampleConfig).step (boot sampleUsers 0) sampleOvertaken,
    ⟨some ⟨"admin", 0, 600, 1⟩, "secret", "fresh"⟩, ⟨0, 0, 1⟩,
    ⟨⟨"admin", 0, 600, 3⟩, some ⟨1, 0⟩⟩, Steps.exec ?_, ?_, ?_, ?_, ?_, ?_⟩,
    ⟨exec (router sampleConfig).step (boot sampleUsers 0) sampleTwice,
      ⟨some ⟨"admin", 0, 600, 1⟩, "secret", "fresh"⟩,
      ⟨some ⟨"admin", 0, 600, 1⟩, "secret", "fresh"⟩, ⟨0, 0, 1⟩, ⟨0, 1, 2⟩,
      Steps.exec ?_, ?_, ?_, ?_, ?_⟩⟩
  all_goals with_unfolding_all decide

end Babycat.Router
