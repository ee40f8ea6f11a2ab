/-
  Babycat.Router.Session

  The session-mutating requests of the router as threads over one shared
  state: `/api/login`, `/api/refresh`, `/api/logout` and
  `/api/change-password` (`main.py` with `auth.py`).

  A request is the sequence of its database statements; one step of its thread
  is one committed statement, or taking or releasing `SESSION_LOCK`.  The
  endpoints run on a thread pool, so any thread may move between any two steps
  of another one, and the clock may advance anywhere.  A value the process
  draws (a token, a salt) is the argument of the step that draws it; a refresh
  token whose hash was issued before is never drawn.

  `History` is bookkeeping the code does not have: which login a credential
  descends from (a rotation hands the origin of the token it takes to the one
  it gives), which version of the password row a request verified, which
  refresh tokens were exchanged.  No step reads it to decide what to do, except
  that a drawn token must be new.
-/

import Babycat.Conc.Pool
import Babycat.Router.Accounts

namespace Babycat.Router

open Babycat.Conc

/-- A login that passed its password check: the thread that ran it and the version
    of the password row it verified. -/
structure Login where
  thread : ℕ
  pw : ℕ
  deriving DecidableEq

/-- A signed access token with the login it descends from. -/
structure Minted where
  claims : Claims
  origin : Option Login
  deriving DecidableEq

/-- Bookkeeping for the statements about runs. -/
structure History where
  /-- The most recent login of an account that has performed its epoch bump. -/
  lastLogin : String → Option Login
  /-- How often the password row of an account has been replaced. -/
  pwVersion : String → ℕ
  /-- The hashes of all refresh tokens ever inserted. -/
  issued : List String
  /-- The login a refresh token (by hash) descends from. -/
  origin : String → Option Login
  /-- The hashes of the refresh tokens that were exchanged, newest first. -/
  exchanged : List String
  /-- Account and replaced password version of the password changes that have
      performed their epoch bump. -/
  closed : List (String × ℕ)

/-- What the requests share. -/
structure Shared where
  db : Db
  now : ℚ
  sessionLock : Option ℕ
  minted : List Minted
  hist : History

/-! ## Requests and responses -/

structure LoginIn where
  username : String
  password : String
  rememberMe : Bool
  deriving DecidableEq

structure RefreshIn where
  refreshToken : String
  deriving DecidableEq

/-- The body of a logout and the token of its `Authorization` header. -/
structure LogoutIn where
  refreshToken : Option String
  bearer : Option Claims
  deriving DecidableEq

structure ChangePasswordIn where
  bearer : Option Claims
  currentPassword : String
  newPassword : String
  deriving DecidableEq

inductive Request
  | login (body : LoginIn)
  | refresh (body : RefreshIn)
  | logout (body : LogoutIn)
  | changePassword (body : ChangePasswordIn)
  deriving DecidableEq

inductive Response
  | tokens (access : Claims) (mustChangePassword : Bool) (refresh : Option String)
  | ok
  | error (status : ℕ) (detail : String)
  deriving DecidableEq

def invalidCredentials : Response := .error 401 "invalid credentials"

def tooManyAttempts (remaining : ℤ) : Response :=
  .error 429 s!"too many attempts, retry after {remaining}s"

def invalidRefreshToken : Response := .error 401 "invalid or expired refresh token"

def currentPasswordIncorrect : Response := .error 400 "current password is incorrect"

/-! ## Program counters -/

/-- What a login keeps of the row it verified. -/
structure Verified where
  pw : ℕ
  mustChangePassword : Bool
  deriving DecidableEq

inductive LoginPc
  | purge
  | read
  | failRead
  | failWrite (count : ℕ)
  | reset (v : Verified)
  | acquire (v : Verified)
  | revokeAll (v : Verified)
  | bump (v : Verified)
  | mint (v : Verified)
  | issue (v : Verified) (access : Claims)
  | release (r : Response)
  | finished (r : Response)
  deriving DecidableEq

inductive RefreshPc
  | acquire
  | purge
  | select
  | rotate (username : String)
  | mint (username newToken : String) (expiresAt : ℤ)
  | release (r : Response)
  | finished (r : Response)
  deriving DecidableEq

inductive LogoutPc
  | acquire
  | select (token : String)
  | revoke (token : String) (owner : Option String)
  | bearer (username : Option String)
  | bump (username : String)
  | release (username : Option String)
  | finished (username : Option String)
  deriving DecidableEq

/-- The versions of the password row a change verified, replaced and installed. -/
structure PwChange where
  verified : ℕ
  replaced : ℕ
  installed : ℕ
  deriving DecidableEq

inductive ChangePc
  | auth
  | read (username : String)
  | update (username : String) (verified : ℕ)
  | acquire (username : String) (ch : PwChange)
  | revokeAll (username : String) (ch : PwChange)
  | bump (username : String) (ch : PwChange)
  | release (username : String) (ch : PwChange)
  | changed (username : String) (ch : PwChange)
  | refused (r : Response)
  deriving DecidableEq

inductive Thread
  | login (body : LoginIn) (pc : LoginPc)
  | refresh (body : RefreshIn) (pc : RefreshPc)
  | logout (body : LogoutIn) (pc : LogoutPc)
  | changePassword (body : ChangePasswordIn) (pc : ChangePc)
  deriving DecidableEq

def enter : Request → Thread
  | .login b => .login b .purge
  | .refresh b => .refresh b .acquire
  | .logout b => .logout b .acquire
  | .changePassword b => .changePassword b .auth

/-! ## Statements on the shared state -/

namespace Shared

def signed (s : Shared) : List Claims := s.minted.map Minted.claims

/-- `with SESSION_LOCK:`, entered when the lock is free. -/
def acquire (s : Shared) (i : ℕ) : Option Shared :=
  if s.sessionLock = none then some { s with sessionLock := some i } else none

def release (s : Shared) : Shared := { s with sessionLock := none }

def purgeExpired (s : Shared) : Shared := { s with db := s.db.purgeExpired s.now }

def updateUser (s : Shared) (username : String) (f : User → User) : Shared :=
  { s with db := s.db.updateUser username f }

def revokeAllRefreshTokens (s : Shared) (username : String) : Shared :=
  { s with db := s.db.revokeAllRefreshTokens username }

def bumpEpoch (s : Shared) (username : String) : Shared :=
  { s with db := s.db.bumpEpoch username }

/-- The epoch bump of a login, which makes it the account's most recent one. -/
def bumpLogin (s : Shared) (username : String) (ℓ : Login) : Shared :=
  { s.bumpEpoch username with
    hist := { s.hist with lastLogin := Function.update s.hist.lastLogin username (some ℓ) } }

/-- The epoch bump of a password change that replaced version `v`. -/
def bumpClosing (s : Shared) (username : String) (v : ℕ) : Shared :=
  { s.bumpEpoch username with
    hist := { s.hist with closed := (username, v) :: s.hist.closed } }

/-- `create_token(username, get_epoch(username, db) or 0)`. -/
def nextClaims (s : Shared) (cfg : Config) (username : String) : Claims :=
  createToken cfg username ((s.db.getEpoch username).getD 0) s.now

def mint (s : Shared) (claims : Claims) (origin : Option Login) : Shared :=
  { s with minted := ⟨claims, origin⟩ :: s.minted }

/-- `issue_refresh_token`. -/
def issueRefreshToken (s : Shared) (cfg : Config) (username hash : String)
    (origin : Option Login) : Shared :=
  { s with
    db := s.db.insertRefresh hash ⟨username, ⌊s.now⌋ + cfg.refreshExpiry, false⟩
    hist := { s.hist with
      issued := hash :: s.hist.issued
      origin := Function.update s.hist.origin hash origin } }

def revokeHash (s : Shared) (hash : String) : Shared :=
  { s with db := s.db.revokeHash hash }

/-- The `UPDATE` of `rotate_refresh_token` and its `INSERT`, one commit. -/
def rotate (s : Shared) (cfg : Config) (username hash newHash : String) : Shared :=
  let s' := (s.revokeHash hash).issueRefreshToken cfg username newHash (s.hist.origin hash)
  { s' with hist := { s'.hist with exchanged := hash :: s'.hist.exchanged } }

/-- The `UPDATE` of `change_password`. -/
def replacePassword (s : Shared) (cfg : Config) (username newPassword salt : String) : Shared :=
  { s.updateUser username (fun u => { u with
      passwordHash := cfg.hashPassword newPassword salt
      salt := salt
      passwordChanged := true }) with
    hist := { s.hist with
      pwVersion := Function.update s.hist.pwVersion username (s.hist.pwVersion username + 1) } }

end Shared

/-! ## The handlers -/

/-- `login`: `authenticate`, then the response. -/
def loginNext (cfg : Config) (i : ℕ) (s : Shared) (b : LoginIn) :
    LoginPc → String → Option (Shared × LoginPc)
  | .purge, _ => some (s.purgeExpired, .read)
  | .read, _ =>
      match s.db.users b.username with
      | none => some (s, .failRead)
      | some row =>
          if 0 < checkLockout row s.now then
            some (s, .finished (tooManyAttempts (checkLockout row s.now)))
          else if verifyPassword cfg b.password row then
            some (s, .reset ⟨s.hist.pwVersion b.username, !row.passwordChanged⟩)
          else some (s, .failRead)
  -- `_record_failure` reads the counter again and writes it back in a second statement
  | .failRead, _ =>
      match s.db.users b.username with
      | none => some (s, .finished invalidCredentials)
      | some row => some (s, .failWrite (row.failedCount + 1))
  | .failWrite count, _ =>
      if lockoutThreshold ≤ count then
        some (s.updateUser b.username fun u =>
          { u with failedCount := 0, lockedUntil := s.now + lockoutSeconds },
          .finished (tooManyAttempts lockoutSeconds))
      else
        some (s.updateUser b.username fun u => { u with failedCount := count },
          .finished invalidCredentials)
  | .reset v, _ =>
      some (s.updateUser b.username fun u => { u with failedCount := 0, lockedUntil := 0 },
        .acquire v)
  -- what the row says now is not looked at again
  | .acquire v, _ => (s.acquire i).map fun s' => (s', .revokeAll v)
  | .revokeAll v, _ => some (s.revokeAllRefreshTokens b.username, .bump v)
  | .bump v, _ => some (s.bumpLogin b.username ⟨i, v.pw⟩, .mint v)
  | .mint v, _ =>
      some (s.mint (s.nextClaims cfg b.username) (some ⟨i, v.pw⟩),
        .issue v (s.nextClaims cfg b.username))
  | .issue v access, drawn =>
      if b.rememberMe then
        if cfg.hashRefresh drawn ∈ s.hist.issued then none
        else some (s.issueRefreshToken cfg b.username (cfg.hashRefresh drawn) (some ⟨i, v.pw⟩),
          .release (.tokens access v.mustChangePassword (some drawn)))
      else some (s, .release (.tokens access v.mustChangePassword none))
  | .release r, _ => some (s.release, .finished r)
  | .finished _, _ => none

/-- `refresh`: rotation and minting in one critical section. -/
def refreshNext (cfg : Config) (i : ℕ) (s : Shared) (b : RefreshIn) :
    RefreshPc → String → Option (Shared × RefreshPc)
  | .acquire, _ => (s.acquire i).map fun s' => (s', .purge)
  | .purge, _ => some (s.purgeExpired, .select)
  | .select, _ =>
      match s.db.refreshTokens (cfg.hashRefresh b.refreshToken) with
      | none => some (s, .release invalidRefreshToken)
      | some row =>
          if row.revoked || decide (row.expiresAt < ⌊s.now⌋) then
            some (s, .release invalidRefreshToken)
          else some (s, .rotate row.username)
  -- the `UPDATE ... WHERE revoked = 0` decides, and its row count is the answer
  | .rotate username, drawn =>
      if s.db.hasUnrevoked (cfg.hashRefresh b.refreshToken) then
        if cfg.hashRefresh drawn ∈ s.hist.issued then none
        else some (s.rotate cfg username (cfg.hashRefresh b.refreshToken) (cfg.hashRefresh drawn),
          .mint username drawn (⌊s.now⌋ + cfg.refreshExpiry))
      else some (s, .release invalidRefreshToken)
  | .mint username newToken _, _ =>
      some (s.mint (s.nextClaims cfg username) (s.hist.origin (cfg.hashRefresh newToken)),
        .release (.tokens (s.nextClaims cfg username) false (some newToken)))
  | .release r, _ => some (s.release, .finished r)
  | .finished _, _ => none

/-- Python truth of an optional string. -/
def truthy : Option String → Bool
  | none => false
  | some x => x != ""

/-- Where `logout` starts in its critical section. -/
def logoutStart (b : LogoutIn) : LogoutPc :=
  match b.refreshToken with
  | some token => if truthy (some token) then .select token else .bearer none
  | none => .bearer none

/-- Where `logout` goes once it knows (or does not know) the account. -/
def afterIdentify : Option String → LogoutPc
  | some u => if truthy (some u) then .bump u else .release (some u)
  | none => .release none

/-- Where `logout` goes after the refresh token: to the bearer token when it named nobody. -/
def afterRevoke (username : Option String) : LogoutPc :=
  if truthy username then afterIdentify username else .bearer username

/-- `logout`: the account from the refresh token, else from a current bearer token. -/
def logoutNext (cfg : Config) (i : ℕ) (s : Shared) (b : LogoutIn) :
    LogoutPc → Option (Shared × LogoutPc)
  | .acquire => (s.acquire i).map fun s' => (s', logoutStart b)
  | .select token =>
      some (s, .revoke token
        ((s.db.refreshTokens (cfg.hashRefresh token)).map RefreshRow.username))
  | .revoke token owner =>
      some (s.revokeHash (cfg.hashRefresh token),
        afterRevoke (if s.db.hasUnrevoked (cfg.hashRefresh token) then owner else none))
  | .bearer username =>
      match b.bearer.bind (verifyToken s.signed s.now) with
      | none => some (s, afterIdentify username)
      | some claims =>
          if some claims.epoch = s.db.getEpoch claims.sub then
            some (s, afterIdentify (some claims.sub))
          else some (s, afterIdentify username)
  | .bump username => some (s.bumpEpoch username, .release (some username))
  | .release username => some (s.release, .finished username)
  | .finished _ => none

/-- `api_change_password`: `require_auth`, then `change_password`. -/
def changeNext (cfg : Config) (i : ℕ) (s : Shared) (b : ChangePasswordIn) :
    ChangePc → String → Option (Shared × ChangePc)
  | .auth, _ =>
      match s.db.requireAuth s.signed s.now b.bearer with
      | .error detail => some (s, .refused (.error 401 detail))
      | .ok user => some (s, .read user.sub)
  | .read username, _ =>
      match s.db.users username with
      | none => some (s, .refused currentPasswordIncorrect)
      | some row =>
          if verifyPassword cfg b.currentPassword row then
            some (s, .update username (s.hist.pwVersion username))
          else some (s, .refused currentPasswordIncorrect)
  -- the password row changes before the lock is taken
  | .update username verified, salt =>
      some (s.replacePassword cfg username b.newPassword salt,
        .acquire username
          ⟨verified, s.hist.pwVersion username, s.hist.pwVersion username + 1⟩)
  | .acquire username ch, _ => (s.acquire i).map fun s' => (s', .revokeAll username ch)
  | .revokeAll username ch, _ => some (s.revokeAllRefreshTokens username, .bump username ch)
  | .bump username ch, _ => some (s.bumpClosing username ch.replaced, .release username ch)
  | .release username ch, _ => some (s.release, .changed username ch)
  | .changed _ _, _ => none
  | .refused _, _ => none

/-- One step of a request; `drawn` is what the step draws from the random source. -/
def next (cfg : Config) (i : ℕ) (s : Shared) : Thread → String → Option (Shared × Thread)
  | .login b pc, drawn => (loginNext cfg i s b pc drawn).map fun r => (r.1, .login b r.2)
  | .refresh b pc, drawn => (refreshNext cfg i s b pc drawn).map fun r => (r.1, .refresh b r.2)
  | .logout b pc, _ => (logoutNext cfg i s b pc).map fun r => (r.1, .logout b r.2)
  | .changePassword b pc, drawn =>
      (changeNext cfg i s b pc drawn).map fun r => (r.1, .changePassword b r.2)

/-- The clock advances by `d`. -/
def tick (s : Shared) (d : ℚ) : Option Shared :=
  if 0 ≤ d then some { s with now := s.now + d } else none

/-- The router's session handling. -/
def router (cfg : Config) : Prog Shared Thread Request String ℚ where
  enter := enter
  next := next cfg
  env := tick

/-- A database with accounts and no session yet, and no request under way. -/
def boot (users : String → Option User) (now : ℚ) : Conf Shared Thread where
  shared :=
    { db := ⟨users, fun _ => none, fun _ => none⟩
      now := now
      sessionLock := none
      minted := []
      hist := ⟨fun _ => none, fun _ => 0, [], fun _ => none, [], []⟩ }
  pool := []

/-- The states the router can reach from `boot users now`. -/
def Reachable (cfg : Config) (users : String → Option User) (now : ℚ)
    (c : Conf Shared Thread) : Prop :=
  Steps (router cfg).step free (boot users now) c

/-! ## Live credentials -/

/-- `require_auth` accepts the token. -/
def accessLive (s : Shared) (token : Claims) : Bool :=
  (s.db.requireAuth s.signed s.now (some token)).isOk

/-- `rotate_refresh_token` would accept the token. -/
def refreshLive (cfg : Config) (s : Shared) (token : String) : Bool :=
  s.db.acceptsRefresh s.now (cfg.hashRefresh token)

theorem accessLive_iff {s : Shared} {token : Claims} :
    accessLive s token = true ↔
      token ∈ s.signed ∧ s.now ≤ token.exp ∧ s.db.getEpoch token.sub = some token.epoch := by
  simp only [accessLive]
  constructor
  · intro h
    cases hr : s.db.requireAuth s.signed s.now (some token) with
    | error e => rw [hr] at h; cases h
    | ok p => exact (Db.requireAuth_ok_iff.mp hr).2
  · intro h
    rw [Db.requireAuth_ok_iff.mpr ⟨rfl, h⟩]; rfl

theorem mem_signed {s : Shared} {token : Claims} :
    token ∈ s.signed ↔ ∃ m ∈ s.minted, m.claims = token := List.mem_map

end Babycat.Router
