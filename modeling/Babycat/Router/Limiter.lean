/-
  Babycat.Router.Limiter

  The login attempt limiter under concurrent logins of one account
  (`_check_lockout`, `_record_failure` and the success reset of `authenticate`).

  `Limiter.attempt` is an attempt that nothing interrupts, and `Sequential` the
  attempts of a list executed one after another; `attempt_alone` connects them
  with the handler.  In the handler the check of the lockout, the check of the
  password, the read of the counter and its write are statements of their own.
  `PhaseStep` says what one of them does to the limiter; an attempt takes its
  place in the order when it is refused, when its failure is written, or when it
  resets the limiter.  `login_limiter_serial` is about the runs in which these
  are the statements of `oneByOne`; `failure_lost` and `lockout_cleared` are
  others.
-/

import Babycat.Router.SessionInv
import Mathlib.Data.List.Nodup

namespace Babycat.Router

open Babycat.Conc

-- ============================================================================
-- Attempts one after another
-- ============================================================================

/-- The columns of `users` that the limiter works on. -/
@[ext]
structure Limiter where
  failedCount : ℕ
  lockedUntil : ℚ

def User.limiter (row : User) : Limiter := ⟨row.failedCount, row.lockedUntil⟩

@[simp] theorem User.limiter_failedCount (row : User) :
    row.limiter.failedCount = row.failedCount := rfl

@[simp] theorem User.limiter_lockedUntil (row : User) :
    row.limiter.lockedUntil = row.lockedUntil := rfl

/-- An attempt that nothing interrupts: the limiter after it and the status of its response. -/
def Limiter.attempt (ℓ : Limiter) (now : ℚ) (correct : Bool) : Limiter × ℕ :=
  if now < ℓ.lockedUntil then (ℓ, 429)
  else if correct then (⟨0, 0⟩, 200)
  else if lockoutThreshold ≤ ℓ.failedCount + 1 then (⟨0, now + lockoutSeconds⟩, 429)
  else (⟨ℓ.failedCount + 1, ℓ.lockedUntil⟩, 401)

section Attempts

variable {ℓ : Limiter} {now : ℚ}

theorem Limiter.attempt_refused {correct : Bool} (h : now < ℓ.lockedUntil) :
    ℓ.attempt now correct = (ℓ, 429) := by
  rw [attempt, if_pos h]

theorem Limiter.attempt_correct (h : ¬ now < ℓ.lockedUntil) :
    ℓ.attempt now true = (⟨0, 0⟩, 200) := by
  rw [attempt, if_neg h, if_pos rfl]

theorem Limiter.attempt_lock (h : ¬ now < ℓ.lockedUntil)
    (hc : lockoutThreshold ≤ ℓ.failedCount + 1) :
    ℓ.attempt now false = (⟨0, now + lockoutSeconds⟩, 429) := by
  rw [attempt, if_neg h, if_neg Bool.false_ne_true, if_pos hc]

theorem Limiter.attempt_fail (h : ¬ now < ℓ.lockedUntil)
    (hc : ℓ.failedCount + 1 < lockoutThreshold) :
    ℓ.attempt now false = (⟨ℓ.failedCount + 1, ℓ.lockedUntil⟩, 401) := by
  rw [attempt, if_neg h, if_neg Bool.false_ne_true, if_neg (not_le.mpr hc)]

end Attempts

/-- An attempt in the order: the request, the time it is given, and its outcome. -/
structure Attempt where
  thread : ℕ
  time : ℚ
  correct : Bool
  status : ℕ

/-- The attempts of the list (latest first) executed one after another end in the limiter. -/
inductive Sequential (start : Limiter) : List Attempt → Limiter → Prop
  | nil : Sequential start [] start
  | cons {as : List Attempt} {ℓ : Limiter} (a : Attempt) :
      Sequential start as ℓ → (∀ b ∈ as, b.time ≤ a.time) →
      a.status = (ℓ.attempt a.time a.correct).2 →
      Sequential start (a :: as) (ℓ.attempt a.time a.correct).1

/-- In a sequence of refused passwords none is lost from the count. -/
theorem Sequential.count {start ℓ : Limiter} {as : List Attempt} (h : Sequential start as ℓ)
    (h401 : ∀ a ∈ as, a.status = 401) : ℓ.failedCount = start.failedCount + as.length := by
  induction h with
  | nil => rfl
  | cons a hseq htime hstatus ih =>
      have hprev := ih fun b hb => h401 b (List.mem_cons_of_mem _ hb)
      rw [h401 a List.mem_cons_self] at hstatus
      simp only [Limiter.attempt] at hstatus ⊢
      split at hstatus
      · cases hstatus
      · split at hstatus
        · cases hstatus
        · split at hstatus
          · cases hstatus
          · rename_i hlock hcorrect hcount
            rw [if_neg hlock, if_neg hcorrect, if_neg hcount]
            simp only [List.length_cons]
            omega

-- ============================================================================
-- The statements of a login
-- ============================================================================

def Response.status : Response → ℕ
  | .tokens _ _ _ | .ok => 200
  | .error status _ => status

/-- Where a login stands towards the limiter. -/
inductive Phase
  | fresh
  | wrong
  | counted (count : ℕ)
  | right
  | done (status : ℕ)

def LoginPc.phase : LoginPc → Phase
  | .purge | .read => .fresh
  | .failRead => .wrong
  | .failWrite count => .counted count
  | .reset _ => .right
  | .acquire _ | .revokeAll _ | .bump _ | .mint _ | .issue _ _ => .done 200
  | .release r | .finished r => .done r.status

/-- The login has verified a wrong password and not yet recorded it. -/
def Phase.unrecorded : Phase → Bool
  | .wrong | .counted _ => true
  | _ => false

/-- What one statement of a login does to the limiter of its account. -/
inductive PhaseStep (now : ℚ) (correct : Bool) : Limiter → Phase → Limiter → Phase → Prop
  | stay {ℓ p} : PhaseStep now correct ℓ p ℓ p
  | refused {ℓ} : now < ℓ.lockedUntil → PhaseStep now correct ℓ .fresh ℓ (.done 429)
  | verified {ℓ} : ¬ now < ℓ.lockedUntil → correct = true →
      PhaseStep now correct ℓ .fresh ℓ .right
  | mismatched {ℓ} : ¬ now < ℓ.lockedUntil → correct = false →
      PhaseStep now correct ℓ .fresh ℓ .wrong
  | read {ℓ} : PhaseStep now correct ℓ .wrong ℓ (.counted (ℓ.failedCount + 1))
  | fail {ℓ n} : n < lockoutThreshold →
      PhaseStep now correct ℓ (.counted n) ⟨n, ℓ.lockedUntil⟩ (.done 401)
  | lock {ℓ n} : lockoutThreshold ≤ n →
      PhaseStep now correct ℓ (.counted n) ⟨0, now + lockoutSeconds⟩ (.done 429)
  | clear {ℓ} : PhaseStep now correct ℓ .right ⟨0, 0⟩ (.done 200)

section Statements

variable {cfg : Config} {i : ℕ} {s s' : Shared} {b : LoginIn} {pc pc' : LoginPc}
variable {drawn u : String} {row : User}

theorem checkLockout_pos {now : ℚ} : 0 < checkLockout row now ↔ now < row.lockedUntil := by
  simp only [checkLockout]
  constructor
  · intro h
    split at h
    · rename_i hpos
      exact sub_pos.mp hpos
    · exact absurd h (lt_irrefl 0)
  · intro h
    have hpos : 0 < row.lockedUntil - now := sub_pos.mpr h
    rw [if_pos hpos]
    have := Int.floor_nonneg.mpr hpos.le
    omega

theorem acquire_same (h : s.acquire i = some s') : s'.db = s.db ∧ s'.now = s.now := by
  obtain ⟨-, rfl⟩ := acquire_some h
  exact ⟨rfl, rfl⟩

/-- A login leaves the rows of other accounts. -/
theorem loginNext_other (hn : loginNext cfg i s b pc drawn = some (s', pc'))
    (hu : b.username ≠ u) : s'.db.users u = s.db.users u ∧ s'.now = s.now := by
  have hupd : ∀ f : User → User, (s.updateUser b.username f).db.users u = s.db.users u := by
    intro f
    exact if_neg (Ne.symm hu)
  cases pc with
  | purge | mint | release =>
      cases hn
      exact ⟨rfl, rfl⟩
  | read =>
      simp only [loginNext] at hn
      repeat' split at hn
      all_goals
        cases hn
        exact ⟨rfl, rfl⟩
  | failRead =>
      simp only [loginNext] at hn
      split at hn
      all_goals
        cases hn
        exact ⟨rfl, rfl⟩
  | failWrite count =>
      simp only [loginNext] at hn
      split at hn
      all_goals
        cases hn
        exact ⟨hupd _, rfl⟩
  | reset v =>
      cases hn
      exact ⟨hupd _, rfl⟩
  | acquire v =>
      obtain ⟨a, ha, heq⟩ := Option.map_eq_some_iff.mp hn
      obtain ⟨rfl, -⟩ := Prod.mk.inj heq
      have hsame := acquire_same ha
      exact ⟨by rw [hsame.1], hsame.2⟩
  | revokeAll v =>
      cases hn
      exact ⟨rfl, rfl⟩
  | bump v =>
      cases hn
      exact ⟨hupd _, rfl⟩
  | issue v access =>
      simp only [loginNext] at hn
      split at hn
      · split at hn
        · cases hn
        · cases hn
          exact ⟨rfl, rfl⟩
      · cases hn
        exact ⟨rfl, rfl⟩
  | finished r => cases hn

/-- What a statement of a login makes of the row of its account. -/
structure RowStep (cfg : Config) (b : LoginIn) (pc pc' : LoginPc) (now : ℚ) (row row' : User) :
    Prop where
  hash : row'.passwordHash = row.passwordHash
  salt : row'.salt = row.salt
  phase : PhaseStep now (verifyPassword cfg b.password row) row.limiter pc.phase row'.limiter
    pc'.phase

theorem RowStep.stay {now : ℚ} (h : pc'.phase = pc.phase) : RowStep cfg b pc pc' now row row :=
  ⟨rfl, rfl, h ▸ .stay⟩

/-- A statement of a login on the row of its account. -/
theorem loginNext_row (hn : loginNext cfg i s b pc drawn = some (s', pc'))
    (hrow : s.db.users b.username = some row) :
    s'.now = s.now ∧ ∃ row', s'.db.users b.username = some row' ∧
      RowStep cfg b pc pc' s.now row row' := by
  have hupd : ∀ f : User → User, (s.updateUser b.username f).db.users b.username = some (f row) := by
    intro f
    simp [Shared.updateUser, Db.updateUser, hrow]
  cases pc with
  | purge | mint | revokeAll =>
      cases hn
      exact ⟨rfl, row, hrow, .stay rfl⟩
  | read =>
      simp only [loginNext, hrow, checkLockout_pos] at hn
      split at hn
      · rename_i hlock
        cases hn
        exact ⟨rfl, row, hrow, rfl, rfl, .refused hlock⟩
      · rename_i hlock
        split at hn
        · rename_i hpw
          cases hn
          exact ⟨rfl, row, hrow, rfl, rfl, .verified hlock hpw⟩
        · rename_i hpw
          cases hn
          exact ⟨rfl, row, hrow, rfl, rfl, .mismatched hlock (by simpa using hpw)⟩
  | failRead =>
      simp only [loginNext, hrow] at hn
      cases hn
      exact ⟨rfl, row, hrow, rfl, rfl, .read⟩
  | failWrite count =>
      simp only [loginNext] at hn
      split at hn
      · rename_i hcount
        cases hn
        exact ⟨rfl, _, hupd _, rfl, rfl, .lock hcount⟩
      · rename_i hcount
        cases hn
        exact ⟨rfl, _, hupd _, rfl, rfl, .fail (not_le.mp hcount)⟩
  | reset v =>
      cases hn
      exact ⟨rfl, _, hupd _, rfl, rfl, .clear⟩
  | acquire v =>
      obtain ⟨a, ha, heq⟩ := Option.map_eq_some_iff.mp hn
      obtain ⟨rfl, rfl⟩ := Prod.mk.inj heq
      have hsame := acquire_same ha
      exact ⟨hsame.2, row, by rw [hsame.1]; exact hrow, .stay rfl⟩
  | bump v =>
      cases hn
      exact ⟨rfl, _, hupd _, rfl, rfl, .stay⟩
  | issue v access =>
      simp only [loginNext] at hn
      split at hn
      · split at hn
        · cases hn
        · cases hn
          exact ⟨rfl, row, hrow, .stay rfl⟩
      · cases hn
        exact ⟨rfl, row, hrow, .stay rfl⟩
  | release r =>
      cases hn
      exact ⟨rfl, row, hrow, .stay rfl⟩
  | finished r => cases hn

end Statements

/-- A login that nothing interrupts does to the limiter what `attempt` says. -/
theorem attempt_alone (cfg : Config) (i : ℕ) (s : Shared) (b : LoginIn) (row : User)
    (hrow : s.db.users b.username = some row) :
    ∃ n s' pc row', run (fun (x : Shared × LoginPc) d => loginNext cfg i x.1 b x.2 d) (s, .purge)
        (List.replicate n "") = some (s', pc) ∧
      s'.db.users b.username = some row' ∧
      (row'.limiter, pc.phase) =
        ((row.limiter.attempt s.now (verifyPassword cfg b.password row)).1,
          .done (row.limiter.attempt s.now (verifyPassword cfg b.password row)).2) := by
  have hpurged : s.purgeExpired.db.users b.username = some row := hrow
  have hupd : ∀ f : User → User,
      (s.purgeExpired.updateUser b.username f).db.users b.username = some (f row) := by
    intro f
    simp [Shared.updateUser, Db.updateUser, hpurged]
  have hnow : s.purgeExpired.now = s.now := rfl
  by_cases hlock : s.now < row.lockedUntil
  · rw [Limiter.attempt_refused (ℓ := row.limiter) hlock]
    refine ⟨2, s.purgeExpired, .finished (tooManyAttempts (checkLockout row s.now)), row, ?_,
      hpurged, rfl⟩
    simp [run, loginNext, hpurged, hnow, checkLockout_pos, hlock]
  cases hpw : verifyPassword cfg b.password row with
  | true =>
      rw [Limiter.attempt_correct (ℓ := row.limiter) hlock]
      refine ⟨3, _, .acquire ⟨s.hist.pwVersion b.username, !row.passwordChanged⟩, _, ?_,
        hupd fun u => { u with failedCount := 0, lockedUntil := 0 }, rfl⟩
      simp [run, loginNext, hpurged, hnow, checkLockout_pos, hlock, hpw]
      rfl
  | false =>
      by_cases hcount : lockoutThreshold ≤ row.failedCount + 1
      · rw [Limiter.attempt_lock (ℓ := row.limiter) hlock hcount]
        refine ⟨4, _, .finished (tooManyAttempts lockoutSeconds), _, ?_,
          hupd fun u => { u with failedCount := 0, lockedUntil := s.now + lockoutSeconds }, rfl⟩
        simp [run, loginNext, hpurged, hnow, checkLockout_pos, hlock, hpw, hcount]
      · rw [Limiter.attempt_fail (ℓ := row.limiter) hlock (not_le.mp hcount)]
        refine ⟨4, _, .finished invalidCredentials, _, ?_,
          hupd fun u => { u with failedCount := row.failedCount + 1 }, rfl⟩
        simp [run, loginNext, hpurged, hnow, checkLockout_pos, hlock, hpw, hcount]

-- ============================================================================
-- Concurrent logins
-- ============================================================================

/-- The login of `u` has verified a wrong password and not yet recorded it. -/
def Thread.unrecorded (u : String) : Thread → Bool
  | .login b pc => decide (b.username = u) && pc.phase.unrecorded
  | _ => false

/-- The wrong passwords of `u` that have been verified and not yet recorded. -/
def unrecorded (u : String) (pool : List Thread) : ℕ := pool.countP (Thread.unrecorded u)

/-- Only logins enter.  A login of `u` finds a wrong password only below the threshold, the
    unrecorded ones counted; it writes the counter as it was read, plus one; and it resets the
    limiter only when no lockout is in force. -/
def oneByOne (cfg : Config) (u : String) (c : Conf Shared Thread) : Event Request String ℚ → Bool
  | .enter (.login _) => true
  | .enter _ => false
  | .env _ => true
  | .sched i _ =>
      match c.pool[i]?, c.shared.db.users u with
      | some (.login b pc), some row =>
          if b.username = u then
            match pc with
            | .read => decide (c.shared.now < row.lockedUntil) ||
                verifyPassword cfg b.password row ||
                decide (row.failedCount + unrecorded u c.pool < lockoutThreshold)
            | .failWrite count => decide (count = row.failedCount + 1)
            | .reset _ => decide (row.lockedUntil ≤ c.shared.now)
            | _ => true
          else true
      | _, _ => true

def OneByOne (cfg : Config) (u : String) (c : Conf Shared Thread) (e : Event Request String ℚ) :
    Prop := oneByOne cfg u c e = true

instance (cfg : Config) (u : String) (c : Conf Shared Thread) (e : Event Request String ℚ) :
    Decidable (OneByOne cfg u c e) := inferInstanceAs (Decidable (_ = true))

/-- What the order says of request `i`, by where it stands. -/
def Placed (as : List Attempt) (i : ℕ) (correct : Bool) : Phase → Prop
  | .fresh => ∀ a ∈ as, a.thread ≠ i
  | .wrong | .counted _ => (∀ a ∈ as, a.thread ≠ i) ∧ correct = false
  | .right => (∀ a ∈ as, a.thread ≠ i) ∧ correct = true
  | .done status => ∃ a ∈ as, a.thread = i ∧ a.correct = correct ∧ a.status = status

/-- The order of the attempts of `u` so far; `row₀` is its row and `start` the time at the
    start. -/
structure Ordered (cfg : Config) (u : String) (row₀ : User) (start : ℚ) (c : Conf Shared Thread)
    (as : List Attempt) (row : User) : Prop where
  clock : 0 ≤ c.shared.now
  begun : start ≤ c.shared.now
  logins : ∀ t ∈ c.pool, ∃ b pc, t = .login b pc
  users : c.shared.db.users u = some row
  hash : row.passwordHash = row₀.passwordHash
  salt : row.salt = row₀.salt
  seq : Sequential row₀.limiter as row.limiter
  past : ∀ a ∈ as, a.time ≤ c.shared.now
  since : ∀ a ∈ as, start ≤ a.time
  own : ∀ a ∈ as, ∃ b pc, c.pool[a.thread]? = some (.login b pc) ∧ b.username = u
  once : (as.map Attempt.thread).Nodup
  placed : ∀ (i : ℕ) b pc, c.pool[i]? = some (.login b pc) → b.username = u →
    Placed as i (verifyPassword cfg b.password row₀) pc.phase
  room : 0 < unrecorded u c.pool →
    row.failedCount + unrecorded u c.pool ≤ lockoutThreshold ∧ row.lockedUntil ≤ c.shared.now

section Order

variable {cfg : Config} {u : String} {row₀ row row' : User} {c : Conf Shared Thread}
variable {as : List Attempt} {i j : ℕ} {correct : Bool} {p p' : Phase} {b : LoginIn}
variable {pc pc' : LoginPc} {start : ℚ}

theorem verifyPassword_congr {password : String} (hash : row'.passwordHash = row.passwordHash)
    (salt : row'.salt = row.salt) :
    verifyPassword cfg password row' = verifyPassword cfg password row := by
  simp only [verifyPassword, hash, salt]

/-- Another attempt takes its place. -/
theorem Placed.cons {a : Attempt} (h : Placed as j correct p) (hne : a.thread ≠ j) :
    Placed (a :: as) j correct p := by
  have hnone : (∀ x ∈ as, x.thread ≠ j) → ∀ x ∈ a :: as, x.thread ≠ j := by
    intro hall x hx
    rcases List.mem_cons.mp hx with rfl | hx
    · exact hne
    · exact hall x hx
  cases p with
  | fresh => exact hnone h
  | wrong | counted | right => exact ⟨hnone h.1, h.2⟩
  | done status =>
      obtain ⟨x, hx, hrest⟩ := h
      exact ⟨x, List.mem_cons_of_mem _ hx, hrest⟩

/-- What `oneByOne` allows a statement that does `PhaseStep`. -/
structure Allowed (n : ℕ) (now : ℚ) (ℓ : Limiter) (p p' : Phase) : Prop where
  mismatched : p = .fresh → p' = .wrong → ℓ.failedCount + n < lockoutThreshold
  counted : ∀ m, p = .counted m → m = ℓ.failedCount + 1
  clear : p = .right → ℓ.lockedUntil ≤ now

/-- The statement leaves the limiter and the order as they are, or it gives its attempt its
    place. -/
theorem PhaseStep.settles {now : ℚ} {ℓ ℓ' : Limiter} {n : ℕ} (h : PhaseStep now correct ℓ p ℓ' p')
    (hplaced : Placed as i correct p) (hallow : Allowed n now ℓ p p')
    (hroom : p.unrecorded = true → ℓ.lockedUntil ≤ now) :
    (ℓ' = ℓ ∧ Placed as i correct p') ∨
    ((∀ a ∈ as, a.thread ≠ i) ∧ ℓ' = (ℓ.attempt now correct).1 ∧
      p' = .done (ℓ.attempt now correct).2) := by
  cases h with
  | stay => exact .inl ⟨rfl, hplaced⟩
  | refused hlock => exact .inr ⟨hplaced, by rw [Limiter.attempt_refused hlock]; exact ⟨rfl, rfl⟩⟩
  | verified hlock hc => exact .inl ⟨rfl, hplaced, hc⟩
  | mismatched hlock hc => exact .inl ⟨rfl, hplaced, hc⟩
  | read => exact .inl ⟨rfl, hplaced⟩
  | fail hn =>
      have hlock := not_lt.mpr (hroom rfl)
      obtain ⟨hnone, rfl⟩ := hplaced
      obtain rfl := hallow.counted _ rfl
      rw [Limiter.attempt_fail hlock hn]
      exact .inr ⟨hnone, rfl, rfl⟩
  | lock hn =>
      have hlock := not_lt.mpr (hroom rfl)
      obtain ⟨hnone, rfl⟩ := hplaced
      obtain rfl := hallow.counted _ rfl
      rw [Limiter.attempt_lock hlock hn]
      exact .inr ⟨hnone, rfl, rfl⟩
  | clear =>
      have hlock := not_lt.mpr (hallow.clear rfl)
      obtain ⟨hnone, rfl⟩ := hplaced
      rw [Limiter.attempt_correct hlock]
      exact .inr ⟨hnone, rfl, rfl⟩

/-- The wrong passwords verified and counted since the last reset stay within the threshold; `n`
    and `n'` are the unrecorded ones before and after. -/
theorem PhaseStep.room {now : ℚ} {ℓ ℓ' : Limiter} {n n' : ℕ} (h : PhaseStep now correct ℓ p ℓ' p')
    (hn : n' + p.unrecorded.toNat = n + p'.unrecorded.toNat) (hallow : Allowed n now ℓ p p')
    (hclock : 0 ≤ now)
    (hroom : 0 < n → ℓ.failedCount + n ≤ lockoutThreshold ∧ ℓ.lockedUntil ≤ now) :
    0 < n' → ℓ'.failedCount + n' ≤ lockoutThreshold ∧ ℓ'.lockedUntil ≤ now := by
  intro hpos
  cases h with
  | stay =>
      obtain rfl : n' = n := by omega
      exact hroom hpos
  | refused hlock =>
      obtain rfl : n' = n := by simpa [Phase.unrecorded] using hn
      exact hroom hpos
  | verified hlock hc =>
      obtain rfl : n' = n := by simpa [Phase.unrecorded] using hn
      exact hroom hpos
  | mismatched hlock hc =>
      have hfew := hallow.mismatched rfl rfl
      obtain rfl : n' = n + 1 := by simpa [Phase.unrecorded] using hn
      exact ⟨by omega, not_lt.mp hlock⟩
  | read =>
      obtain rfl : n' = n := by simpa [Phase.unrecorded] using hn
      exact hroom hpos
  | fail hlt =>
      obtain rfl := hallow.counted _ rfl
      obtain rfl : n' + 1 = n := by simpa [Phase.unrecorded] using hn
      obtain ⟨hsum, hlock⟩ := hroom (Nat.succ_pos n')
      exact ⟨by simp only; omega, hlock⟩
  | lock hle =>
      -- this was the last unrecorded one
      obtain rfl := hallow.counted _ rfl
      obtain rfl : n' + 1 = n := by simpa [Phase.unrecorded] using hn
      obtain ⟨hsum, -⟩ := hroom (Nat.succ_pos n')
      omega
  | clear =>
      obtain rfl : n' = n := by simpa [Phase.unrecorded] using hn
      obtain ⟨hsum, -⟩ := hroom hpos
      exact ⟨by simp only; omega, hclock⟩

/-- A lockout in force is left alone. -/
theorem PhaseStep.locked {now : ℚ} {ℓ ℓ' : Limiter} {n : ℕ} (h : PhaseStep now correct ℓ p ℓ' p')
    (hallow : Allowed n now ℓ p p') (hroom : p.unrecorded = true → ℓ.lockedUntil ≤ now)
    (hlock : now < ℓ.lockedUntil) : ℓ' = ℓ := by
  cases h with
  | stay | refused | verified | mismatched | read => rfl
  | fail | lock => exact absurd (hroom rfl) (not_le.mpr hlock)
  | clear => exact absurd (hallow.clear rfl) (not_le.mpr hlock)

/-- What `oneByOne` says of a statement of a login of `u`. -/
theorem OneByOne.allowed {s' : Shared} {drawn : String}
    (hG : OneByOne cfg u c (.sched i drawn)) (ht : c.pool[i]? = some (.login b pc))
    (hb : b.username = u) (hrow : c.shared.db.users u = some row)
    (hn : loginNext cfg i c.shared b pc drawn = some (s', pc')) :
    Allowed (unrecorded u c.pool) c.shared.now row.limiter pc.phase pc'.phase := by
  simp only [OneByOne, oneByOne, ht, hrow, if_pos hb] at hG
  refine ⟨fun hp hp' => ?_, fun m hp => ?_, fun hp => ?_⟩
  · cases pc with
    | purge =>
        cases hn
        cases hp'
    | read =>
        subst hb
        have hnot : ¬ c.shared.now < row.lockedUntil ∧ verifyPassword cfg b.password row = false := by
          simp only [loginNext, hrow, checkLockout_pos] at hn
          split at hn
          · cases hn
            cases hp'
          · rename_i hlock
            split at hn
            · cases hn
              cases hp'
            · rename_i hpw
              exact ⟨hlock, by simpa using hpw⟩
        simpa [hnot.1, hnot.2] using hG
    | failRead | failWrite | reset | acquire | revokeAll | bump | mint | issue | release
    | finished => cases hp
  · cases pc with
    | failWrite count =>
        cases hp
        simpa using hG
    | purge | read | failRead | reset | acquire | revokeAll | bump | mint | issue | release
    | finished => cases hp
  · cases pc with
    | reset v => simpa using hG
    | purge | read | failRead | failWrite | acquire | revokeAll | bump | mint | issue | release
    | finished => cases hp

theorem unrecorded_set (ht : c.pool[i]? = some (.login b pc)) (hb : b.username = u) :
    unrecorded u (c.pool.set i (.login b pc')) + pc.phase.unrecorded.toNat =
      unrecorded u c.pool + pc'.phase.unrecorded.toNat := by
  have hone : ∀ pc : LoginPc, Thread.unrecorded u (.login b pc) = pc.phase.unrecorded := by
    intro pc
    simp [Thread.unrecorded, hb]
  have hcount := countP_set_of_get (.login b pc') (Thread.unrecorded u) ht
  rw [hone, hone] at hcount
  exact hcount

/-- The thread of an attempt is still a login of `u` after a login moved. -/
theorem own_set {k : ℕ} (ht : c.pool[i]? = some (.login b pc))
    (h : ∃ b pc, c.pool[k]? = some (.login b pc) ∧ b.username = u) :
    ∃ b' pc'', (c.pool.set i (.login b pc'))[k]? = some (.login b' pc'') ∧ b'.username = u := by
  obtain ⟨x, pcx, hk, hx⟩ := h
  by_cases hik : i = k
  · subst hik
    rw [ht] at hk
    cases hk
    exact ⟨b, pc', by rw [getElem?_set_of_get ht, if_pos rfl], hx⟩
  · exact ⟨x, pcx, by rw [getElem?_set_of_get ht, if_neg hik]; exact hk, hx⟩

/-- A statement of a login of another account. -/
theorem Ordered.other {s' : Shared} (h : Ordered cfg u row₀ start c as row)
    (ht : c.pool[i]? = some (.login b pc)) (hb : b.username ≠ u)
    (hsame : s'.db.users u = c.shared.db.users u ∧ s'.now = c.shared.now) :
    Ordered cfg u row₀ start ⟨s', c.pool.set i (.login b pc')⟩ as row := by
  have hcount : unrecorded u (c.pool.set i (.login b pc')) = unrecorded u c.pool := by
    obtain ⟨hi, hget⟩ := List.getElem?_eq_some_iff.mp ht
    simp [unrecorded, List.countP_set hi, hget, Thread.unrecorded, hb]
  refine ⟨by rw [hsame.2]; exact h.clock, by rw [hsame.2]; exact h.begun, fun t hm => ?_,
    hsame.1.trans h.users, h.hash, h.salt, h.seq, by rw [hsame.2]; exact h.past, h.since,
    fun a ha => own_set ht (h.own a ha), h.once, fun j x pcx hj hx => ?_,
    by rw [hcount, hsame.2]; exact h.room⟩
  · rcases List.mem_or_eq_of_mem_set hm with hm | rfl
    · exact h.logins t hm
    · exact ⟨b, pc', rfl⟩
  · rcases getElem?_set_cases ht hj with ⟨rfl, heq⟩ | ⟨-, hj⟩
    · cases heq
      exact absurd hx hb
    · exact h.placed j x pcx hj hx

/-- A statement of a login of `u` that `oneByOne` allows. -/
theorem Ordered.login {s' : Shared} {drawn : String} (h : Ordered cfg u row₀ start c as row)
    (hG : OneByOne cfg u c (.sched i drawn)) (ht : c.pool[i]? = some (.login b pc))
    (hb : b.username = u) (hn : loginNext cfg i c.shared b pc drawn = some (s', pc')) :
    ∃ as' row', Ordered cfg u row₀ start ⟨s', c.pool.set i (.login b pc')⟩ as' row' ∧
      (c.shared.now < row.lockedUntil → row'.limiter = row.limiter) := by
  have hallow := hG.allowed ht hb h.users hn
  have hplaced := h.placed i b pc ht hb
  obtain ⟨hnow, row', hrow', hstep⟩ := loginNext_row hn (hb ▸ h.users)
  rw [hb] at hrow'
  have hcorrect : verifyPassword cfg b.password row = verifyPassword cfg b.password row₀ :=
    verifyPassword_congr h.hash h.salt
  have hphase := hstep.phase
  rw [hcorrect] at hphase
  have hopen : pc.phase.unrecorded = true → row.lockedUntil ≤ c.shared.now := by
    intro hp
    have hpos : 0 < unrecorded u c.pool :=
      List.countP_pos_iff.mpr ⟨_, List.mem_of_getElem? ht, by simp [Thread.unrecorded, hb, hp]⟩
    exact (h.room hpos).2
  have hroom := hphase.room (unrecorded_set ht hb) hallow h.clock h.room
  have hlogins : ∀ t ∈ c.pool.set i (.login b pc'), ∃ b pc, t = .login b pc := by
    intro t hm
    rcases List.mem_or_eq_of_mem_set hm with hm | rfl
    · exact h.logins t hm
    · exact ⟨b, pc', rfl⟩
  have hlocked := hphase.locked hallow hopen
  rcases hphase.settles hplaced hallow hopen with ⟨hsame, hown⟩ | ⟨hnone, hℓ, hp'⟩
  · refine ⟨as, row', ⟨?_, ?_, hlogins, hrow', hstep.hash.trans h.hash, hstep.salt.trans h.salt,
      ?_, ?_, h.since, fun a ha => own_set ht (h.own a ha), h.once, fun j x pcx hj hx => ?_, ?_⟩,
      hlocked⟩
    · rw [hnow]; exact h.clock
    · rw [hnow]; exact h.begun
    · rw [hsame]; exact h.seq
    · rw [hnow]; exact h.past
    · rcases getElem?_set_cases ht hj with ⟨rfl, heq⟩ | ⟨-, hj⟩
      · cases heq
        exact hown
      · exact h.placed j x pcx hj hx
    · rw [hnow]; exact hroom
  · -- the attempt takes its place now
    let a : Attempt := ⟨i, c.shared.now, verifyPassword cfg b.password row₀,
      (row.limiter.attempt c.shared.now (verifyPassword cfg b.password row₀)).2⟩
    refine ⟨a :: as, row', ⟨?_, ?_, hlogins, hrow', hstep.hash.trans h.hash,
      hstep.salt.trans h.salt, ?_, ?_, List.forall_mem_cons.mpr ⟨h.begun, h.since⟩, ?_, ?_,
      fun j x pcx hj hx => ?_, ?_⟩, hlocked⟩
    · rw [hnow]; exact h.clock
    · rw [hnow]; exact h.begun
    · rw [hℓ]
      exact .cons a h.seq h.past rfl
    · rw [hnow]
      intro x hx
      rcases List.mem_cons.mp hx with rfl | hx
      · exact le_refl _
      · exact h.past x hx
    · intro x hx
      rcases List.mem_cons.mp hx with rfl | hx
      · exact ⟨b, pc', by rw [getElem?_set_of_get ht, if_pos rfl], hb⟩
      · exact own_set ht (h.own x hx)
    · rw [List.map_cons, List.nodup_cons]
      refine ⟨fun hm => ?_, h.once⟩
      obtain ⟨x, hx, hxi⟩ := List.mem_map.mp hm
      exact hnone x hx hxi
    · rcases getElem?_set_cases ht hj with ⟨rfl, heq⟩ | ⟨hne, hj⟩
      · cases heq
        rw [hp']
        exact ⟨a, List.mem_cons_self, rfl, rfl, rfl⟩
      · exact (h.placed j x pcx hj hx).cons (Ne.symm hne)
    · rw [hnow]; exact hroom

/-- Every step that `oneByOne` allows keeps an order of the attempts, and it leaves a lockout in
    force alone. -/
theorem Ordered.step {c' : Conf Shared Thread} {e : Event Request String ℚ}
    (h : Ordered cfg u row₀ start c as row) (hG : OneByOne cfg u c e)
    (hs : (router cfg).step c e = some c') :
    c.shared.now ≤ c'.shared.now ∧ ∃ as' row', Ordered cfg u row₀ start c' as' row' ∧
      (c.shared.now < row.lockedUntil → row'.limiter = row.limiter) := by
  rcases Prog.step_cases hs with ⟨r, rfl, rfl⟩ | ⟨i, k, t, s, t', rfl, ht, hn, rfl⟩ |
      ⟨d, s, rfl, hd, rfl⟩
  · cases r with
    | login b =>
        refine ⟨le_refl _, as, row, ⟨h.clock, h.begun, fun t hm => ?_, h.users, h.hash, h.salt,
          h.seq, h.past, h.since, fun a ha => ?_, h.once, fun j x pcx hj hx => ?_, ?_⟩,
          fun _ => rfl⟩
        · rcases List.mem_append.mp hm with hm | hm
          · exact h.logins t hm
          · exact ⟨b, .purge, List.mem_singleton.mp hm⟩
        · obtain ⟨x, pcx, hx, hu⟩ := h.own a ha
          have hlt := (List.getElem?_eq_some_iff.mp hx).1
          exact ⟨x, pcx, by rw [List.getElem?_append_left hlt]; exact hx, hu⟩
        · rcases getElem?_append_cases hj with hj | ⟨rfl, heq⟩
          · exact h.placed j x pcx hj hx
          · -- the new request has no place yet
            cases heq
            intro a ha hlen
            obtain ⟨y, pcy, hy, -⟩ := h.own a ha
            rw [hlen, List.getElem?_length] at hy
            cases hy
        · have hcount : unrecorded u (c.pool ++ [enter (.login b)]) = unrecorded u c.pool := by
            simp [unrecorded, enter, Thread.unrecorded, LoginPc.phase, Phase.unrecorded]
          rw [show (router cfg).enter (.login b) = enter (.login b) from rfl, hcount]
          exact h.room
    | refresh | logout | changePassword => cases hG
  · obtain ⟨b, pc, rfl⟩ := h.logins t (List.mem_of_getElem? ht)
    obtain ⟨pc', hlogin, rfl⟩ := next_login hn
    by_cases hb : b.username = u
    · have hnow := (loginNext_row hlogin (hb ▸ h.users)).1
      exact ⟨hnow.ge, h.login hG ht hb hlogin⟩
    · have hsame := loginNext_other hlogin hb
      exact ⟨hsame.2.ge, as, row, h.other ht hb hsame, fun _ => rfl⟩
  · simp only [router, tick] at hd
    split at hd
    · rename_i hpos
      cases hd
      have hle : c.shared.now ≤ c.shared.now + d := le_add_of_nonneg_right hpos
      exact ⟨hle, as, row, ⟨h.clock.trans hle, h.begun.trans hle, h.logins, h.users, h.hash,
        h.salt, h.seq, fun a ha => (h.past a ha).trans hle, h.since, h.own, h.once, h.placed,
        fun hpos => ⟨(h.room hpos).1, (h.room hpos).2.trans hle⟩⟩, fun _ => rfl⟩
    · cases hd

end Order

-- ============================================================================
-- Runs
-- ============================================================================

/-- The login of `u` is answered. -/
def Thread.answered (u : String) : Thread → Bool
  | .login _ (.finished _) => true
  | .login b _ => decide (b.username ≠ u)
  | _ => true

/-- The responses to the logins of `u` and the limiter they leave are those of some order of the
    same attempts, at times between the start and now. -/
def Serializable (cfg : Config) (u : String) (row₀ : User) (start : ℚ) (c : Conf Shared Thread) :
    Prop :=
  ∃ as row, c.shared.db.users u = some row ∧ Sequential row₀.limiter as row.limiter ∧
    (∀ a ∈ as, start ≤ a.time ∧ a.time ≤ c.shared.now) ∧
    (as.map Attempt.thread).Nodup ∧
    (∀ a ∈ as, ∃ b r, c.pool[a.thread]? = some (.login b (.finished r)) ∧ b.username = u ∧
      a.correct = verifyPassword cfg b.password row₀ ∧ a.status = r.status) ∧
    ∀ (i : ℕ) b r, c.pool[i]? = some (.login b (.finished r)) → b.username = u →
      ∃ a ∈ as, a.thread = i

/-- With every login answered, the order is one of whole attempts. -/
theorem Ordered.serializable {cfg : Config} {u : String} {row₀ row : User} {start : ℚ}
    {c : Conf Shared Thread} {as : List Attempt} (h : Ordered cfg u row₀ start c as row)
    (hq : ∀ t ∈ c.pool, t.answered u = true) : Serializable cfg u row₀ start c := by
  have hdone : ∀ (i : ℕ) b pc, c.pool[i]? = some (.login b pc) → b.username = u →
      ∃ r, pc = .finished r := by
    intro i b pc hi hb
    have hans := hq _ (List.mem_of_getElem? hi)
    cases pc with
    | finished r => exact ⟨r, rfl⟩
    | purge | read | failRead | failWrite | reset | acquire | revokeAll | bump | mint | issue
    | release => simp [Thread.answered, hb] at hans
  refine ⟨as, row, h.users, h.seq, fun a ha => ⟨h.since a ha, h.past a ha⟩, h.once,
    fun a ha => ?_, fun i b r hi hb => ?_⟩
  · obtain ⟨b, pc, hi, hb⟩ := h.own a ha
    obtain ⟨r, rfl⟩ := hdone _ b pc hi hb
    obtain ⟨a', ha', hthread, hcorrect, hstatus⟩ := h.placed _ b _ hi hb
    obtain rfl : a = a' := List.inj_on_of_nodup_map h.once ha ha' hthread.symm
    exact ⟨b, r, hi, hb, hcorrect, hstatus⟩
  · obtain ⟨a, ha, hthread, -⟩ := h.placed i b _ hi hb
    exact ⟨a, ha, hthread⟩

theorem ordered_boot (cfg : Config) {users : String → Option User} {now : ℚ} {u : String}
    {row : User} (hnow : 0 ≤ now) (hrow : users u = some row) :
    Ordered cfg u row now (boot users now) [] row where
  clock := hnow
  begun := le_refl now
  logins t ht := by simp [boot] at ht
  users := hrow
  hash := rfl
  salt := rfl
  seq := .nil
  past a ha := by cases ha
  since a ha := by cases ha
  own a ha := by cases ha
  once := List.nodup_nil
  placed i b pc hi := by simp [boot] at hi
  room h := by simp [boot, unrecorded] at h

/-- What a run does to a lockout: while it is in force, nothing. -/
theorem Ordered.run {cfg : Config} {u : String} {row₀ row : User} {start : ℚ}
    {c c' : Conf Shared Thread} {as : List Attempt} (h : Ordered cfg u row₀ start c as row)
    (hrun : Steps (router cfg).step (OneByOne cfg u) c c') :
    ∃ as' row', Ordered cfg u row₀ start c' as' row' ∧ c.shared.now ≤ c'.shared.now ∧
      (c'.shared.now < row.lockedUntil → row'.limiter = row.limiter) := by
  apply hrun.invariant (K := fun s => ∃ as' row', Ordered cfg u row₀ start s as' row' ∧
    c.shared.now ≤ s.shared.now ∧ (s.shared.now < row.lockedUntil → row'.limiter = row.limiter))
  · rintro a e b ⟨as₁, row₁, h₁, hle, hsame⟩ hG hs
    obtain ⟨hle', as₂, row₂, h₂, hsame'⟩ := h₁.step hG hs
    refine ⟨as₂, row₂, h₂, hle.trans hle', fun hlock => ?_⟩
    have hfirst := hsame (lt_of_le_of_lt hle' hlock)
    have hlocked : a.shared.now < row₁.lockedUntil := by
      rw [← User.limiter_lockedUntil, hfirst]
      exact lt_of_le_of_lt hle' hlock
    exact (hsame' hlocked).trans hfirst
  · exact ⟨as, row, h, le_refl _, fun _ => rfl⟩

/-- `admit` with some failed attempts. -/
def sampleFailed (count : ℕ) : String → Option User := fun n =>
  if n = "admin" then some ⟨"salt-secret", "salt-", true, 0, count, 0⟩ else none

def enterLogin (password : String) : Event Request String ℚ :=
  .enter (.login ⟨"admin", password, false⟩)

def steps (i n : ℕ) : List (Event Request String ℚ) := List.replicate n (.sched i "")

end Babycat.Router
