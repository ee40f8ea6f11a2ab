/-
  Babycat.Router.Accounts

  The account database of the router (`database.py`) and the statements
  `auth.py` runs on it.

  A table is a partial function from its unique column to the rest of the row,
  so the UNIQUE constraints of the schema hold by construction:
  `users` by `username`, `refresh_tokens` by `token_hash`, `whep_sessions` by
  `session_path`.  Each definition below is one committed statement; the clock
  is `time.time()` as a rational number of seconds and `int(time.time())` is
  its floor.

  The two hash functions are deployment parameters of `Config`.  An access
  token is represented by its payload: `verifyToken` accepts a payload when it
  is one of those `createToken` signed and has not expired, which is what an
  unforgeable HMAC gives.
-/

import Mathlib.Data.Rat.Floor
import Mathlib.Logic.Function.Basic

namespace Babycat.Router

/-- Deployment values and the hash functions. -/
structure Config where
  jwtExpiry : ℤ
  refreshExpiry : ℤ
  /-- `_hash_password`: PBKDF2 of password and salt. -/
  hashPassword : String → String → String
  /-- `_hash_refresh`: SHA-256 of a refresh token. -/
  hashRefresh : String → String

def lockoutThreshold : ℕ := 10

def lockoutSeconds : ℤ := 1800

def whepSessionMaxAge : ℤ := 24 * 3600

/-- A row of `users`, without its key. -/
structure User where
  passwordHash : String
  salt : String
  passwordChanged : Bool
  tokenEpoch : ℕ
  failedCount : ℕ
  lockedUntil : ℚ
  deriving DecidableEq

/-- A row of `refresh_tokens`, without its key. -/
structure RefreshRow where
  username : String
  expiresAt : ℤ
  revoked : Bool
  deriving DecidableEq

/-- A row of `whep_sessions`, without its key. -/
structure WhepRow where
  username : String
  createdAt : ℤ
  deriving DecidableEq

/-- The account database. -/
structure Db where
  users : String → Option User
  refreshTokens : String → Option RefreshRow
  whepSessions : String → Option WhepRow

/-- The payload of an access token. -/
structure Claims where
  sub : String
  iat : ℤ
  exp : ℤ
  epoch : ℕ
  deriving DecidableEq

/-! ## Password, lockout and access tokens -/

def verifyPassword (cfg : Config) (password : String) (row : User) : Bool :=
  cfg.hashPassword password row.salt == row.passwordHash

/-- Seconds left of a lockout, 0 when none is in force. -/
def checkLockout (row : User) (now : ℚ) : ℤ :=
  if 0 < row.lockedUntil - now then ⌊row.lockedUntil - now⌋ + 1 else 0

def createToken (cfg : Config) (username : String) (epoch : ℕ) (now : ℚ) : Claims where
  sub := username
  iat := ⌊now⌋
  exp := ⌊now⌋ + cfg.jwtExpiry
  epoch := epoch

/-- Signature and expiry of a presented token; `signed` are the payloads signed so far. -/
def verifyToken (signed : List Claims) (now : ℚ) (token : Claims) : Option Claims :=
  if token ∈ signed ∧ ¬ (token.exp : ℚ) < now then some token else none

theorem verifyToken_eq_some {signed : List Claims} {now : ℚ} {token payload : Claims} :
    verifyToken signed now token = some payload ↔
      token = payload ∧ token ∈ signed ∧ now ≤ token.exp := by
  simp only [verifyToken]
  split
  · rename_i h; simp [h.1, not_lt.mp h.2]
  · rename_i h
    constructor
    · intro hnone; cases hnone
    · rintro ⟨-, hs, hx⟩; exact absurd ⟨hs, not_lt.mpr hx⟩ h

namespace Db

/-- `UPDATE users SET ... WHERE username = ?`. -/
def updateUser (db : Db) (username : String) (f : User → User) : Db :=
  { db with users := fun n => if n = username then (db.users n).map f else db.users n }

def getEpoch (db : Db) (username : String) : Option ℕ :=
  (db.users username).map User.tokenEpoch

def bumpEpoch (db : Db) (username : String) : Db :=
  db.updateUser username fun u => { u with tokenEpoch := u.tokenEpoch + 1 }

/-- Expired or revoked refresh tokens and day-old WHEP records, one commit. -/
def purgeExpired (db : Db) (now : ℚ) : Db :=
  { db with
    refreshTokens := fun h => (db.refreshTokens h).filter fun r =>
      !(decide (r.expiresAt < ⌊now⌋) || r.revoked)
    whepSessions := fun p => (db.whepSessions p).filter fun w =>
      !decide (w.createdAt < ⌊now⌋ - whepSessionMaxAge) }

/-- `INSERT INTO refresh_tokens`. -/
def insertRefresh (db : Db) (hash : String) (row : RefreshRow) : Db :=
  { db with refreshTokens := Function.update db.refreshTokens hash (some row) }

/-- `UPDATE refresh_tokens SET revoked = 1 WHERE token_hash = ? AND revoked = 0`. -/
def revokeHash (db : Db) (hash : String) : Db :=
  { db with refreshTokens := fun h =>
      if h = hash then (db.refreshTokens h).map fun r => { r with revoked := true }
      else db.refreshTokens h }

/-- The row count of `revokeHash` is positive. -/
def hasUnrevoked (db : Db) (hash : String) : Bool :=
  match db.refreshTokens hash with
  | some r => !r.revoked
  | none => false

def revokeAllRefreshTokens (db : Db) (username : String) : Db :=
  { db with refreshTokens := fun h => (db.refreshTokens h).map fun r =>
      if r.username = username then { r with revoked := true } else r }

/-- `require_auth`: the payload of the presented token, or the detail of the 401. -/
def requireAuth (db : Db) (signed : List Claims) (now : ℚ) :
    Option Claims → Except String Claims
  | none => .error "missing token"
  | some token =>
      match verifyToken signed now token with
      | none => .error "invalid or expired token"
      | some payload =>
          if some payload.epoch = db.getEpoch payload.sub then .ok payload
          else .error "token revoked"

/-- The row test of `rotate_refresh_token`: present, not revoked, not expired. -/
def acceptsRefresh (db : Db) (now : ℚ) (hash : String) : Bool :=
  match db.refreshTokens hash with
  | some row => !row.revoked && !decide (row.expiresAt < ⌊now⌋)
  | none => false

/-! ## What the statements leave and change -/

section Lemmas

variable (db : Db) (now : ℚ) (n u : String) (f : User → User) (h h' : String) (row : RefreshRow)

/-- An update of other columns leaves every epoch. -/
theorem updateUser_getEpoch (hf : ∀ r, (f r).tokenEpoch = r.tokenEpoch) :
    (db.updateUser u f).getEpoch n = db.getEpoch n := by
  simp only [getEpoch, updateUser]
  split
  · rw [Option.map_map]; congr 1; funext r; exact hf r
  · rfl

theorem bumpEpoch_getEpoch :
    (db.bumpEpoch u).getEpoch n = if n = u then (db.getEpoch n).map (· + 1) else db.getEpoch n := by
  simp only [getEpoch, bumpEpoch, updateUser]
  split
  · simp [Option.map_map, Function.comp_def]
  · rfl

variable {db now u h h' row}

/-- A row that survives the purge was there before. -/
theorem purgeExpired_row {r : RefreshRow} (hr : (db.purgeExpired now).refreshTokens h = some r) :
    db.refreshTokens h = some r :=
  (Option.filter_eq_some_iff.mp hr).1

/-- The purge keeps what is neither revoked nor expired. -/
theorem purgeExpired_kept {r : RefreshRow} (hr : db.refreshTokens h = some r)
    (hu : r.revoked = false) (hx : ⌊now⌋ ≤ r.expiresAt) :
    (db.purgeExpired now).refreshTokens h = some r :=
  Option.filter_eq_some_iff.mpr ⟨hr, by simp [hu, hx]⟩

theorem insertRefresh_row {r : RefreshRow}
    (hr : (db.insertRefresh h' row).refreshTokens h = some r) :
    (h = h' ∧ r = row) ∨ (h ≠ h' ∧ db.refreshTokens h = some r) := by
  simp only [insertRefresh] at hr
  by_cases heq : h = h'
  · subst heq; left; simpa [eq_comm] using hr
  · right; exact ⟨heq, by simpa [Function.update_of_ne heq] using hr⟩

/-- An unrevoked row after `revokeHash` is another row, unchanged. -/
theorem revokeHash_row {r : RefreshRow} (hr : (db.revokeHash h').refreshTokens h = some r)
    (hu : r.revoked = false) : h ≠ h' ∧ db.refreshTokens h = some r := by
  simp only [revokeHash] at hr
  split at hr
  · obtain ⟨r', -, rfl⟩ := Option.map_eq_some_iff.mp hr
    simp at hu
  · rename_i hne; exact ⟨hne, hr⟩

/-- An unrevoked row after `revokeAllRefreshTokens` is another account's, unchanged. -/
theorem revokeAllRefreshTokens_row {r : RefreshRow}
    (hr : (db.revokeAllRefreshTokens u).refreshTokens h = some r) (hu : r.revoked = false) :
    r.username ≠ u ∧ db.refreshTokens h = some r := by
  simp only [revokeAllRefreshTokens] at hr
  obtain ⟨r', hr', rfl⟩ := Option.map_eq_some_iff.mp hr
  by_cases hn : r'.username = u
  · simp [hn] at hu
  · simp only [hn, if_false] at hu ⊢
    exact ⟨hn, hr'⟩

theorem hasUnrevoked_iff :
    db.hasUnrevoked h = true ↔ ∃ r, db.refreshTokens h = some r ∧ r.revoked = false := by
  simp only [hasUnrevoked]
  split
  · rename_i r hr; simp [hr]
  · rename_i hr; simp [hr]

theorem acceptsRefresh_iff :
    db.acceptsRefresh now h = true ↔
      ∃ r, db.refreshTokens h = some r ∧ r.revoked = false ∧ ⌊now⌋ ≤ r.expiresAt := by
  simp only [acceptsRefresh]
  split
  · rename_i r hr; simp [hr]
  · rename_i hr; simp [hr]

theorem requireAuth_ok_iff {signed : List Claims} {token : Claims} {payload : Claims} :
    db.requireAuth signed now (some token) = .ok payload ↔
      payload = token ∧ token ∈ signed ∧ now ≤ token.exp ∧
        db.getEpoch token.sub = some token.epoch := by
  simp only [requireAuth, verifyToken]
  by_cases hv : token ∈ signed ∧ ¬ (token.exp : ℚ) < now
  · by_cases he : some token.epoch = db.getEpoch token.sub
    · simp [hv, he.symm, eq_comm, not_lt.mp hv.2]
    · simp [hv, he, Ne.symm he, eq_comm]
  · simp only [hv, if_false]
    constructor
    · intro h; cases h
    · rintro ⟨-, hs, hx, -⟩; exact absurd ⟨hs, not_lt.mpr hx⟩ hv

end Lemmas

end Db

end Babycat.Router
