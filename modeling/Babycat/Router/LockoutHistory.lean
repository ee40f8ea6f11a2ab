/-
  Babycat.Router.LockoutHistory

  The login limiter against the history of an account (`_check_lockout`,
  `_record_failure`, FR-007).

  The row of the account keeps a counter and the end of a lockout.  `streak` and
  `lockTimes` say what they stand for in terms of the logins so far, which are
  executed one after another; a login reads the clock when it checks the lockout
  and again when it starts one.  Histories have the latest login first.
-/

import Babycat.Router.Limiter

namespace Babycat.Router

-- ============================================================================
-- A login
-- ============================================================================

/-- A login of an account, with the times at which it reads the clock. -/
structure LoginTry where
  checkTime : ℚ
  recordTime : ℚ
  correct : Bool
  deriving DecidableEq

/-- What comes of a login; `passwordChecked` is not in the code. -/
structure LoginAnswer where
  passwordChecked : Bool
  status : ℕ
  retryAfter : Option ℤ
  deriving DecidableEq

/-- `_check_lockout` -/
def Limiter.remaining (ℓ : Limiter) (now : ℚ) : ℤ :=
  if 0 < ℓ.lockedUntil - now then ⌊ℓ.lockedUntil - now⌋ + 1 else 0

/-- `authenticate`, as far as the limiter goes. -/
def Limiter.login (ℓ : Limiter) (t : LoginTry) : Limiter × LoginAnswer :=
  let remaining := ℓ.remaining t.checkTime
  if 0 < remaining then (ℓ, ⟨false, 429, some remaining⟩)
  else if t.correct then (⟨0, 0⟩, ⟨true, 200, none⟩)
  else if lockoutThreshold ≤ ℓ.failedCount + 1 then
    (⟨0, t.recordTime + lockoutSeconds⟩, ⟨true, 429, some lockoutSeconds⟩)
  else (⟨ℓ.failedCount + 1, ℓ.lockedUntil⟩, ⟨true, 401, none⟩)

theorem checkLockout_limiter (row : User) (now : ℚ) :
    checkLockout row now = row.limiter.remaining now := rfl

theorem Limiter.remaining_pos {ℓ : Limiter} {now : ℚ} : 0 < ℓ.remaining now ↔ now < ℓ.lockedUntil :=
  @checkLockout_pos ⟨"", "", true, 0, ℓ.failedCount, ℓ.lockedUntil⟩ now

/-- A login that reads the clock once is an attempt as the handler makes it. -/
theorem Limiter.login_attempt (ℓ : Limiter) (now : ℚ) (correct : Bool) :
    ((ℓ.login ⟨now, now, correct⟩).1, (ℓ.login ⟨now, now, correct⟩).2.status) =
      ℓ.attempt now correct := by
  simp only [login, attempt, Limiter.remaining_pos]
  split
  · rfl
  · split
    · rfl
    · split <;> rfl

/-- What a login does, for each of its outcomes. -/
theorem Limiter.login_cases (ℓ : Limiter) (t : LoginTry) :
    (t.checkTime < ℓ.lockedUntil ∧
      ℓ.login t = (ℓ, ⟨false, 429, some (ℓ.remaining t.checkTime)⟩)) ∨
    (ℓ.lockedUntil ≤ t.checkTime ∧ t.correct = true ∧ ℓ.login t = (⟨0, 0⟩, ⟨true, 200, none⟩)) ∨
    (ℓ.lockedUntil ≤ t.checkTime ∧ t.correct = false ∧ lockoutThreshold ≤ ℓ.failedCount + 1 ∧
      ℓ.login t =
        (⟨0, t.recordTime + lockoutSeconds⟩, ⟨true, 429, some lockoutSeconds⟩)) ∨
    (ℓ.lockedUntil ≤ t.checkTime ∧ t.correct = false ∧ ℓ.failedCount + 1 < lockoutThreshold ∧
      ℓ.login t = (⟨ℓ.failedCount + 1, ℓ.lockedUntil⟩, ⟨true, 401, none⟩)) := by
  simp only [login, Limiter.remaining_pos]
  by_cases hlock : t.checkTime < ℓ.lockedUntil
  · exact .inl ⟨hlock, if_pos hlock⟩
  · rw [if_neg hlock]
    cases hc : t.correct with
    | true => exact .inr (.inl ⟨not_lt.mp hlock, rfl, rfl⟩)
    | false =>
      by_cases hten : lockoutThreshold ≤ ℓ.failedCount + 1
      · refine .inr (.inr (.inl ⟨not_lt.mp hlock, rfl, hten, ?_⟩))
        rw [if_neg Bool.false_ne_true, if_pos hten]
      · refine .inr (.inr (.inr ⟨not_lt.mp hlock, rfl, not_le.mp hten, ?_⟩))
        rw [if_neg Bool.false_ne_true, if_neg hten]

-- ============================================================================
-- Histories
-- ============================================================================

/-- A login that is over. -/
structure PastLogin where
  login : LoginTry
  answer : LoginAnswer
  deriving DecidableEq

/-- The limiter after the logins, and the logins with their answers. -/
def loginRun : List LoginTry → Limiter × List PastLogin
  | [] => (⟨0, 0⟩, [])
  | t :: earlier =>
      let before := loginRun earlier
      let r := before.1.login t
      (r.1, ⟨t, r.2⟩ :: before.2)

/-- The clock does not go back from one reading to the next. -/
def LoginsInOrder : List LoginTry → Prop
  | [] => True
  | t :: earlier => 0 ≤ t.checkTime ∧ t.checkTime ≤ t.recordTime ∧
      (∀ u ∈ earlier, u.recordTime ≤ t.checkTime) ∧ LoginsInOrder earlier

/-- A wrong password that was checked. -/
def PastLogin.failed (p : PastLogin) : Bool := p.answer.passwordChecked && !p.login.correct

def PastLogin.succeeded (p : PastLogin) : Bool := p.answer.passwordChecked && p.login.correct

/-- The failures since the last success or the last lockout. -/
def streak : List PastLogin → ℕ
  | [] => 0
  | p :: earlier =>
      if p.succeeded then 0
      else if p.failed then (if streak earlier + 1 = lockoutThreshold then 0 else streak earlier + 1)
      else streak earlier

theorem streak_cons (p : PastLogin) (earlier : List PastLogin) :
    streak (p :: earlier) =
      if p.succeeded then 0
      else if p.failed then (if streak earlier + 1 = lockoutThreshold then 0 else streak earlier + 1)
      else streak earlier := rfl

/-- The times of the tenth failures. -/
def lockTimes : List PastLogin → List ℚ
  | [] => []
  | p :: earlier =>
      if p.failed ∧ streak earlier + 1 = lockoutThreshold
      then p.login.recordTime :: lockTimes earlier
      else lockTimes earlier

/-- A lockout is in force. -/
def InForce (past : List PastLogin) (now : ℚ) : Prop :=
  ∃ start ∈ lockTimes past, start ≤ now ∧ now < start + lockoutSeconds

/-- The failed logins of a time window. -/
def failuresWithin (first last : ℚ) (past : List PastLogin) : ℕ :=
  past.countP fun p => p.failed && decide (first ≤ p.login.checkTime ∧ p.login.checkTime ≤ last)

theorem streak_lt (past : List PastLogin) : streak past < lockoutThreshold := by
  induction past with
  | nil => decide
  | cons p earlier ih =>
    rw [streak_cons]
    split
    · decide
    · split
      · split
        · decide
        · omega
      · exact ih

/-! ## What a login adds to the history -/

section Added

variable {past : List PastLogin} {p : PastLogin}

theorem streak_refused (h : p.answer.passwordChecked = false) :
    streak (p :: past) = streak past := by
  simp [streak_cons, PastLogin.succeeded, PastLogin.failed, h]

theorem streak_succeeded (h : p.succeeded = true) : streak (p :: past) = 0 := by
  rw [streak_cons, if_pos h]

theorem PastLogin.failed_succeeded (h : p.failed = true) : ¬ p.succeeded = true := by
  simp only [PastLogin.failed, PastLogin.succeeded, Bool.and_eq_true, Bool.not_eq_true'] at h ⊢
  rw [h.2]
  exact fun hs => Bool.false_ne_true hs.2

theorem streak_locking (h : p.failed = true) (hten : streak past + 1 = lockoutThreshold) :
    streak (p :: past) = 0 := by
  rw [streak_cons, if_neg (PastLogin.failed_succeeded h), if_pos h, if_pos hten]

theorem streak_failed (h : p.failed = true) (hten : streak past + 1 ≠ lockoutThreshold) :
    streak (p :: past) = streak past + 1 := by
  rw [streak_cons, if_neg (PastLogin.failed_succeeded h), if_pos h, if_neg hten]

theorem lockTimes_locking (h : p.failed = true) (hten : streak past + 1 = lockoutThreshold) :
    lockTimes (p :: past) = p.login.recordTime :: lockTimes past := by
  exact if_pos ⟨h, hten⟩

theorem lockTimes_same (h : ¬ (p.failed = true ∧ streak past + 1 = lockoutThreshold)) :
    lockTimes (p :: past) = lockTimes past := by
  exact if_neg h

/-- Only a tenth failure changes what is in force. -/
theorem inForce_same (h : ¬ (p.failed = true ∧ streak past + 1 = lockoutThreshold)) {now : ℚ} :
    InForce (p :: past) now ↔ InForce past now := by
  rw [InForce, lockTimes_same h, InForce]

end Added

-- ============================================================================
-- The row against the history
-- ============================================================================

/-- From `since` on the row of the account says what the history says. -/
structure Tracks (ℓ : Limiter) (past : List PastLogin) (since : ℚ) : Prop where
  count : ℓ.failedCount = streak past
  force : ∀ now, since ≤ now → (now < ℓ.lockedUntil ↔ InForce past now)
  started : ∀ start ∈ lockTimes past, start ≤ since
  sincePos : 0 ≤ since

section Tracking

variable {ℓ : Limiter} {past : List PastLogin} {since later : ℚ} {t : LoginTry}

theorem Tracks.mono (h : Tracks ℓ past since) (hle : since ≤ later) : Tracks ℓ past later where
  count := h.count
  force now hnow := h.force now (hle.trans hnow)
  started start hs := (h.started start hs).trans hle
  sincePos := h.sincePos.trans hle

/-- A lockout that is over stays over. -/
theorem Tracks.over (h : Tracks ℓ past since) (hno : ¬ InForce past since) (hle : since ≤ later) :
    ¬ InForce past later := by
  rintro ⟨start, hs, -, hlt⟩
  exact hno ⟨start, hs, h.started start hs, lt_of_le_of_lt hle hlt⟩

/-- A login that is no tenth failure starts no lockout. -/
theorem Tracks.keeps_started (h : Tracks ℓ past t.checkTime) (hrec : t.checkTime ≤ t.recordTime)
    {p : PastLogin} (hsame : ¬ (p.failed = true ∧ streak past + 1 = lockoutThreshold)) :
    ∀ start ∈ lockTimes (p :: past), start ≤ t.recordTime := by
  rw [lockTimes_same hsame]
  exact (h.mono hrec).started

/-- Refused: nothing changes. -/
theorem Tracks.refused (h : Tracks ℓ past t.checkTime) (hrec : t.checkTime ≤ t.recordTime)
    (remaining : Option ℤ) :
    Tracks ℓ (⟨t, ⟨false, 429, remaining⟩⟩ :: past) t.recordTime := by
  have hsame : ¬ ((⟨t, ⟨false, 429, remaining⟩⟩ : PastLogin).failed = true ∧
      streak past + 1 = lockoutThreshold) := fun hf => Bool.false_ne_true hf.1
  have hlater := h.mono hrec
  refine ⟨?_, fun now hnow => ?_, h.keeps_started hrec hsame, hlater.sincePos⟩
  · rw [streak_refused rfl, hlater.count]
  · rw [inForce_same hsame, hlater.force now hnow]

/-- A success: no lockout is in force from here on. -/
theorem Tracks.succeeded (h : Tracks ℓ past t.checkTime) (hrec : t.checkTime ≤ t.recordTime)
    (hfree : ℓ.lockedUntil ≤ t.checkTime) (hc : t.correct = true) :
    Tracks ⟨0, 0⟩ (⟨t, ⟨true, 200, none⟩⟩ :: past) t.recordTime := by
  have hsucc : (⟨t, ⟨true, 200, none⟩⟩ : PastLogin).succeeded = true := hc
  have hsame : ¬ ((⟨t, ⟨true, 200, none⟩⟩ : PastLogin).failed = true ∧
      streak past + 1 = lockoutThreshold) :=
    fun hf => PastLogin.failed_succeeded hf.1 hsucc
  have hnonneg : 0 ≤ t.recordTime := h.sincePos.trans hrec
  have hno : ¬ InForce past t.checkTime := fun hf =>
    not_lt.mpr hfree ((h.force t.checkTime (le_refl _)).mpr hf)
  refine ⟨(streak_succeeded hsucc).symm, fun now hnow => ?_, h.keeps_started hrec hsame, hnonneg⟩
  rw [inForce_same hsame]
  exact ⟨fun hneg => absurd (hnonneg.trans hnow) (not_le.mpr hneg),
    fun hf => absurd hf (h.over hno (hrec.trans hnow))⟩

/-- The tenth failure: its lockout is the only one in force. -/
theorem Tracks.locked (h : Tracks ℓ past t.checkTime) (hrec : t.checkTime ≤ t.recordTime)
    (hfree : ℓ.lockedUntil ≤ t.checkTime) (hc : t.correct = false)
    (hstreak : streak past + 1 = lockoutThreshold) :
    Tracks ⟨0, t.recordTime + lockoutSeconds⟩
      (⟨t, ⟨true, 429, some lockoutSeconds⟩⟩ :: past) t.recordTime := by
  have hfail : (⟨t, ⟨true, 429, some lockoutSeconds⟩⟩ : PastLogin).failed = true := by
    simp [PastLogin.failed, hc]
  have hno : ¬ InForce past t.checkTime := fun hf =>
    not_lt.mpr hfree ((h.force t.checkTime (le_refl _)).mpr hf)
  refine ⟨(streak_locking hfail hstreak).symm, fun now hnow => ?_, ?_, h.sincePos.trans hrec⟩
  · rw [InForce, lockTimes_locking hfail hstreak]
    constructor
    · intro hlt
      exact ⟨t.recordTime, List.mem_cons_self, hnow, hlt⟩
    · rintro ⟨start, hs, hstart, hlt⟩
      rcases List.mem_cons.mp hs with rfl | hs
      · exact hlt
      · exact absurd ⟨start, hs, hstart, hlt⟩ (h.over hno (hrec.trans hnow))
  · rw [lockTimes_locking hfail hstreak]
    intro start hs
    rcases List.mem_cons.mp hs with rfl | hs
    · exact le_refl _
    · exact (h.mono hrec).started start hs

/-- A failure that is counted. -/
theorem Tracks.counted (h : Tracks ℓ past t.checkTime) (hrec : t.checkTime ≤ t.recordTime)
    (hc : t.correct = false) (hfew : streak past + 1 ≠ lockoutThreshold) :
    Tracks ⟨ℓ.failedCount + 1, ℓ.lockedUntil⟩ (⟨t, ⟨true, 401, none⟩⟩ :: past) t.recordTime := by
  have hfail : (⟨t, ⟨true, 401, none⟩⟩ : PastLogin).failed = true := by
    simp [PastLogin.failed, hc]
  have hsame : ¬ ((⟨t, ⟨true, 401, none⟩⟩ : PastLogin).failed = true ∧
      streak past + 1 = lockoutThreshold) := fun hf => hfew hf.2
  have hlater := h.mono hrec
  refine ⟨?_, fun now hnow => ?_, h.keeps_started hrec hsame, hlater.sincePos⟩
  · rw [streak_failed hfail hfew, ← h.count]
  · rw [inForce_same hsame, ← hlater.force now hnow]

/-- A login keeps row and history in step. -/
theorem Tracks.login (h : Tracks ℓ past t.checkTime) (hrec : t.checkTime ≤ t.recordTime) :
    Tracks (ℓ.login t).1 (⟨t, (ℓ.login t).2⟩ :: past) t.recordTime := by
  have hcount := h.count
  have hlt := streak_lt past
  rcases ℓ.login_cases t with ⟨hlock, heq⟩ | ⟨hfree, hc, heq⟩ | ⟨hfree, hc, hten, heq⟩ |
      ⟨hfree, hc, hfew, heq⟩
  · rw [heq]
    exact h.refused hrec _
  · rw [heq]
    exact h.succeeded hrec hfree hc
  · rw [heq]
    exact h.locked hrec hfree hc (by omega)
  · rw [heq]
    exact h.counted hrec hc (by omega)

end Tracking

/-- After logins in order the row says what the history says. -/
theorem loginRun_tracks {tries : List LoginTry} (h : LoginsInOrder tries) {since : ℚ}
    (hpos : 0 ≤ since) (hafter : ∀ t ∈ tries, t.recordTime ≤ since) :
    Tracks (loginRun tries).1 (loginRun tries).2 since := by
  induction tries generalizing since with
  | nil =>
    refine ⟨rfl, fun now hnow => ?_, fun start hs => absurd hs List.not_mem_nil, hpos⟩
    refine ⟨fun hlt => absurd (hpos.trans hnow) (not_le.mpr hlt), fun hf => ?_⟩
    obtain ⟨start, hs, -⟩ := hf
    cases hs
  | cons t earlier ih =>
    obtain ⟨hnonneg, hrec, hearlier, horder⟩ := h
    have hbefore := ih horder hnonneg hearlier
    exact (hbefore.login hrec).mono (hafter t List.mem_cons_self)

-- ============================================================================
-- What each login is answered
-- ============================================================================

/-- The time from which `Retry-After` counts. -/
def PastLogin.answeredAt (p : PastLogin) : ℚ :=
  if p.answer.passwordChecked then p.login.recordTime else p.login.checkTime

/-- The answer to a login with the history before it, as FR-007 has it. -/
structure Answered (past : List PastLogin) (p : PastLogin) : Prop where
  checked : p.answer.passwordChecked = true ↔ ¬ InForce past p.login.checkTime
  blocked : p.answer.status = 429 ↔
    p.answer.passwordChecked = false ∨ (p.failed = true ∧ streak past + 1 = lockoutThreshold)
  granted : p.answer.status = 200 ↔ p.succeeded = true
  retryGiven : p.answer.retryAfter.isSome = true ↔ p.answer.status = 429
  retry : ∀ wait, p.answer.retryAfter = some wait →
    ∀ now, p.answeredAt + wait ≤ now → ¬ InForce (p :: past) now

section Answers

variable {ℓ : Limiter} {past : List PastLogin} {t : LoginTry}

/-- The rounding of `Retry-After` is upwards. -/
theorem Limiter.lockedUntil_le {now : ℚ} (h : now < ℓ.lockedUntil) :
    ℓ.lockedUntil ≤ now + ℓ.remaining now := by
  rw [remaining, if_pos (sub_pos.mpr h)]
  have hfloor := Int.lt_floor_add_one (ℓ.lockedUntil - now)
  push_cast
  linarith

theorem Tracks.answered (h : Tracks ℓ past t.checkTime) (hrec : t.checkTime ≤ t.recordTime) :
    Answered past ⟨t, (ℓ.login t).2⟩ := by
  have hforce := h.force t.checkTime (le_refl _)
  have hafter := h.login hrec
  rcases ℓ.login_cases t with ⟨hlock, heq⟩ | ⟨hfree, hc, heq⟩ | ⟨hfree, hc, hten, heq⟩ |
      ⟨hfree, hc, hfew, heq⟩
  · rw [heq] at hafter ⊢
    have hsame : ¬ ((⟨t, ⟨false, 429, some (ℓ.remaining t.checkTime)⟩⟩ : PastLogin).failed = true ∧
        streak past + 1 = lockoutThreshold) := fun hf => Bool.false_ne_true hf.1
    refine ⟨?_, by simp, by simp [PastLogin.succeeded], by simp, fun wait hwait now hnow => ?_⟩
    · exact ⟨fun hf => absurd hf Bool.false_ne_true, fun hno => absurd (hforce.mp hlock) hno⟩
    · -- whatever is in force has ended when the row says so
      cases hwait
      have hnow : t.checkTime + ℓ.remaining t.checkTime ≤ now := hnow
      have hend := Limiter.lockedUntil_le hlock
      rw [inForce_same hsame, ← h.force now (hlock.le.trans (hend.trans hnow))]
      exact not_lt.mpr (hend.trans hnow)
  · have hno : ¬ InForce past t.checkTime := fun hf => not_lt.mpr hfree (hforce.mpr hf)
    rw [heq]
    exact ⟨⟨fun _ => hno, fun _ => rfl⟩, by simp [PastLogin.failed, hc],
      by simp [PastLogin.succeeded, hc], by simp, fun wait hwait => by cases hwait⟩
  · have hno : ¬ InForce past t.checkTime := fun hf => not_lt.mpr hfree (hforce.mpr hf)
    rw [heq] at hafter ⊢
    have hstreak : streak past + 1 = lockoutThreshold := by
      have hlt := streak_lt past
      have hcount := h.count
      omega
    refine ⟨⟨fun _ => hno, fun _ => rfl⟩, by simp [PastLogin.failed, hc, hstreak],
      by simp [PastLogin.succeeded, hc], by simp, fun wait hwait now hnow => ?_⟩
    cases hwait
    have hnow : t.recordTime + lockoutSeconds ≤ now := hnow
    have hlater : t.recordTime ≤ now :=
      (le_add_of_nonneg_right (by norm_num [lockoutSeconds])).trans hnow
    rw [← hafter.force now hlater]
    exact not_lt.mpr hnow
  · have hno : ¬ InForce past t.checkTime := fun hf => not_lt.mpr hfree (hforce.mpr hf)
    have hten : streak past + 1 ≠ lockoutThreshold := by
      have hcount := h.count
      omega
    rw [heq]
    exact ⟨⟨fun _ => hno, fun _ => rfl⟩, by simp [hten], by simp [PastLogin.succeeded, hc],
      by simp, fun wait hwait => by cases hwait⟩

end Answers

/-- Every login of a run is answered for the history before it. -/
theorem loginRun_answered {tries : List LoginTry} (h : LoginsInOrder tries)
    {newer past : List PastLogin} {p : PastLogin}
    (heq : (loginRun tries).2 = newer ++ p :: past) : Answered past p := by
  induction tries generalizing newer with
  | nil => cases newer <;> cases heq
  | cons t earlier ih =>
    obtain ⟨hnonneg, hrec, hearlier, horder⟩ := h
    cases newer with
    | nil =>
      obtain ⟨rfl, rfl⟩ := List.cons.inj heq
      exact (loginRun_tracks horder hnonneg hearlier).answered hrec
    | cons q newer => exact ih horder (List.cons.inj heq).2

-- ============================================================================
-- Time windows
-- ============================================================================

def Within (first last : ℚ) (p : PastLogin) : Prop :=
  first ≤ p.login.checkTime ∧ p.login.checkTime ≤ last

instance (first last : ℚ) (p : PastLogin) : Decidable (Within first last p) :=
  inferInstanceAs (Decidable (_ ∧ _))

section Windows

variable {first last : ℚ} {past : List PastLogin} {p : PastLogin} {tries : List LoginTry}

theorem failuresWithin_outside (h : ¬ Within first last p) :
    failuresWithin first last (p :: past) = failuresWithin first last past := by
  rw [failuresWithin, List.countP_cons_of_neg (by simpa [Within] using fun _ => not_and.mp h)]
  rfl

theorem failuresWithin_other (h : ¬ p.failed = true) :
    failuresWithin first last (p :: past) = failuresWithin first last past := by
  rw [failuresWithin, List.countP_cons_of_neg (by simp [h])]
  rfl

theorem failuresWithin_cons :
    failuresWithin first last (p :: past) ≤ failuresWithin first last past + 1 := by
  rw [failuresWithin, failuresWithin, List.countP_cons]
  split <;> omega

theorem failuresWithin_zero (h : ∀ p ∈ past, p.login.checkTime < first) :
    failuresWithin first last past = 0 := by
  rw [failuresWithin, List.countP_eq_zero]
  intro p hp
  simp [not_le.mpr (h p hp)]

theorem loginRun_logins (tries : List LoginTry) :
    (loginRun tries).2.map PastLogin.login = tries := by
  induction tries with
  | nil => rfl
  | cons t earlier ih =>
    rw [loginRun, List.map_cons, ih]

theorem LoginsInOrder.check_le {t : LoginTry} (h : LoginsInOrder (t :: tries)) :
    ∀ u ∈ tries, u.checkTime ≤ t.checkTime := by
  intro u hu
  obtain ⟨-, -, hearlier, horder⟩ := h
  refine le_trans ?_ (hearlier u hu)
  clear hearlier
  induction tries with
  | nil => cases hu
  | cons v tries ih =>
    rcases List.mem_cons.mp hu with rfl | hu
    · exact horder.2.1
    · exact ih hu horder.2.2.2

/-- As long as the window is open its failures are in the count, or a lockout has started in
    it. -/
def Bounded (first last : ℚ) (past : List PastLogin) : Prop :=
  failuresWithin first last past ≤ streak past ∨
  ((∃ start ∈ lockTimes past, first ≤ start) ∧ failuresWithin first last past ≤ lockoutThreshold)

theorem Bounded.le (h : Bounded first last past) :
    failuresWithin first last past ≤ lockoutThreshold := by
  rcases h with hle | ⟨-, hle⟩
  · exact hle.trans (streak_lt past).le
  · exact hle

theorem Bounded.login (h : Bounded first last past) (hanswer : Answered past p)
    (hstarted : ∀ start ∈ lockTimes past, start ≤ p.login.checkTime)
    (hrec : p.login.checkTime ≤ p.login.recordTime)
    (hearlier : ∀ q ∈ past, q.login.checkTime ≤ p.login.checkTime)
    (hshort : last - first < lockoutSeconds) (hlast : p.login.checkTime ≤ last)
    (hno : Within first last p → ¬ p.succeeded = true) : Bounded first last (p :: past) := by
  by_cases hfirst : first ≤ p.login.checkTime
  · by_cases hfail : p.failed = true
    · have hmore := @failuresWithin_cons first last past p
      rcases h with hle | ⟨⟨start, hs, hfs⟩, -⟩
      · by_cases hten : streak past + 1 = lockoutThreshold
        · right
          rw [lockTimes_locking hfail hten]
          exact ⟨⟨_, List.mem_cons_self, hfirst.trans hrec⟩, by omega⟩
        · left
          rw [streak_failed hfail hten]
          omega
      · -- the lockout that started in the window is still in force
        have hchecked : p.answer.passwordChecked = true := (Bool.and_eq_true _ _ ▸ hfail).1
        refine absurd ⟨start, hs, hstarted start hs, ?_⟩ (hanswer.checked.mp hchecked)
        linarith
    · have hrefused : p.answer.passwordChecked = false := by
        have hsucc := hno ⟨hfirst, hlast⟩
        simp only [PastLogin.failed, PastLogin.succeeded] at hfail hsucc
        cases hc : p.answer.passwordChecked with
        | false => rfl
        | true => cases hp : p.login.correct <;> simp [hc, hp] at hfail hsucc
      rw [Bounded, failuresWithin_other hfail, streak_refused hrefused,
        lockTimes_same fun hf => hfail hf.1]
      exact h
  · left
    rw [failuresWithin_zero]
    · exact Nat.zero_le _
    · intro q hq
      rcases List.mem_cons.mp hq with rfl | hq
      · exact not_le.mp hfirst
      · exact lt_of_le_of_lt (hearlier q hq) (not_le.mp hfirst)

theorem loginRun_mem {q : PastLogin} (hq : q ∈ (loginRun tries).2) : q.login ∈ tries := by
  have hmem := List.mem_map_of_mem (f := PastLogin.login) hq
  rwa [loginRun_logins] at hmem

theorem loginRun_bounded (h : LoginsInOrder tries) (hshort : last - first < lockoutSeconds)
    (hopen : ∀ t ∈ tries, t.checkTime ≤ last)
    (hno : ∀ p ∈ (loginRun tries).2, Within first last p → ¬ p.succeeded = true) :
    Bounded first last (loginRun tries).2 := by
  induction tries with
  | nil => exact .inl (le_refl _)
  | cons t earlier ih =>
    have hbefore := ih h.2.2.2 (fun u hu => hopen u (List.mem_cons_of_mem _ hu))
      (fun q hq => hno q (List.mem_cons_of_mem _ hq))
    have htracks := loginRun_tracks h.2.2.2 h.1 h.2.2.1
    exact hbefore.login (htracks.answered h.2.1) htracks.started h.2.1
      (fun q hq => h.check_le q.login (loginRun_mem hq)) hshort (hopen t List.mem_cons_self)
      (hno _ List.mem_cons_self)

/-- A window shorter than a lockout has at most ten failures. -/
theorem failuresWithin_le (h : LoginsInOrder tries) (hshort : last - first < lockoutSeconds)
    (hno : ∀ p ∈ (loginRun tries).2, Within first last p → ¬ p.succeeded = true) :
    failuresWithin first last (loginRun tries).2 ≤ lockoutThreshold := by
  induction tries with
  | nil => exact Nat.zero_le _
  | cons t earlier ih =>
    by_cases hlast : t.checkTime ≤ last
    · refine (loginRun_bounded h hshort (fun u hu => ?_) hno).le
      rcases List.mem_cons.mp hu with rfl | hu
      · exact hlast
      · exact (h.check_le u hu).trans hlast
    · rw [loginRun, failuresWithin_outside fun hin => hlast hin.2]
      exact ih h.2.2.2 fun q hq => hno q (List.mem_cons_of_mem _ hq)

end Windows

/-- The login limiter as a sequential specification (FR-007): each login is answered for the
    history before it, the row keeps the count, a success resets it, and a window shorter than a
    lockout that has no success has at most ten checked wrong passwords. -/
theorem login_limiter_history (tries : List LoginTry) (h : LoginsInOrder tries) :
    (∀ newer p past, (loginRun tries).2 = newer ++ p :: past → Answered past p) ∧
    (loginRun tries).1.failedCount = streak (loginRun tries).2 ∧
    (∀ p past, (loginRun tries).2 = p :: past → p.succeeded = true →
      (loginRun tries).1 = ⟨0, 0⟩) ∧
    ∀ first last : ℚ, last - first < lockoutSeconds →
      (∀ p ∈ (loginRun tries).2, Within first last p → ¬ p.succeeded = true) →
      failuresWithin first last (loginRun tries).2 ≤ lockoutThreshold := by
  refine ⟨fun newer p past heq => loginRun_answered h heq, ?_, ?_,
    fun first last hshort hno => failuresWithin_le h hshort hno⟩
  · cases tries with
    | nil => rfl
    | cons t earlier =>
      obtain ⟨hnonneg, hrec, hearlier, horder⟩ := h
      exact ((loginRun_tracks horder hnonneg hearlier).login hrec).count
  · intro p past heq hsucc
    cases tries with
    | nil => cases heq
    | cons t earlier =>
      obtain ⟨rfl, -⟩ := List.cons.inj heq
      obtain ⟨hchecked, hc⟩ := (Bool.and_eq_true _ _ ▸ hsucc :
        ((loginRun earlier).1.login t).2.passwordChecked = true ∧ t.correct = true)
      rcases (loginRun earlier).1.login_cases t with ⟨-, hr⟩ | ⟨-, -, hr⟩ | ⟨-, hw, -⟩ |
          ⟨-, hw, -⟩
      · rw [hr] at hchecked
        cases hchecked
      · rw [loginRun, hr]
      · exact absurd (hc.symm.trans hw) Bool.true_eq_false.mp
      · exact absurd (hc.symm.trans hw) Bool.true_eq_false.mp

/-- Ten wrong passwords, a login that is refused, and one after the wait. -/
def sampleLogins : List LoginTry :=
  ⟨1809, 1809, true⟩ :: ⟨100, 100, true⟩ ::
    ([9, 8, 7, 6, 5, 4, 3, 2, 1, 0].map fun now => ⟨now, now, false⟩)

theorem login_limiter_history_sample :
    (loginRun sampleLogins).2.map (fun p => p.answer.status) =
      [200, 429, 429, 401, 401, 401, 401, 401, 401, 401, 401, 401] ∧
    failuresWithin 0 1000 (loginRun sampleLogins).2 ≤ lockoutThreshold := by
  have horder : LoginsInOrder sampleLogins := by
    simp [sampleLogins, LoginsInOrder]
    norm_num
  refine ⟨by decide +kernel, (login_limiter_history sampleLogins horder).2.2.2 0 1000 ?_ ?_⟩
  · norm_num [lockoutSeconds]
  · decide +kernel

end Babycat.Router
