/-
  Babycat.Router.Whep

  WebRTC sessions and their registry: `/live/whep` (`whep_open`,
  `whep_close`), `_register_whep_and_recheck` and `_terminate_whep_sessions`
  (`main.py`), next to the session-mutating requests of `Router.Session`.

  The handler of a login, a logout or a password change takes the steps of
  `Router.Session` and, when it has bumped the epoch of an account, goes on to
  `_terminate_whep_sessions`.  A block under `_whep_lock` is one step: every
  `INSERT` and every other `DELETE` by account or path takes that lock, and a
  purge between the `SELECT` and the `DELETE` of a sweep only removes rows that
  the sweep removes as well or that it does not touch.

  The streamer gives every session it accepts a path of its own; it may refuse
  or fail any request and close any session by itself.  A setup whose answer
  does not reach the router is a refused one.

  `accepted`, `registeredAt`, `deletes` and the epoch of a sweep are
  bookkeeping: which sessions were accepted and under which claims, when their
  rows were inserted, which upstream `DELETE`s were issued and for whom.  The
  account's rows are listed in the order of `accepted`
  (`RegInv.mem_sessionsOf` says that none is left out).
-/

import Babycat.Router.Session

namespace Babycat.Router

/-- Account whose epoch the next step of the handler bumps. -/
def Thread.bumps : Thread → Option String
  | .login b (.bump _) => some b.username
  | .logout _ (.bump username) => some username
  | .changePassword _ (.bump username _) => some username
  | _ => none

/-- Account whose WHEP sessions the handler terminates when it is through. -/
def Thread.terminates : Thread → Option String
  | .login b (.finished (.tokens _ _ _)) => some b.username
  | .logout _ (.finished username) => if truthy username then username else none
  | .changePassword _ (.changed username _) => some username
  | _ => none

/-- The handler has its outcome. -/
def Thread.isFinished : Thread → Bool
  | .login _ (.finished _) | .refresh _ (.finished _) | .logout _ (.finished _) => true
  | .changePassword _ (.changed _ _) | .changePassword _ (.refused _) => true
  | _ => false

end Babycat.Router

namespace Babycat.Router.Whep

open Babycat.Conc

/-- A session the streamer accepted: its path and the claims its setup was authenticated by. -/
structure Setup where
  path : String
  owner : String
  epoch : ℕ
  deriving DecidableEq

/-- An upstream `DELETE`.  For one of a sweep: the epoch of the operation that swept and the
    epoch of the account when it was issued. -/
structure Delete where
  path : String
  epoch : Option ℕ
  current : Option ℕ
  deriving DecidableEq

structure Shared where
  session : Router.Shared
  accepted : List Setup
  isOpen : String → Bool
  registeredAt : String → Option ℤ
  deletes : List Delete

inductive Request
  | session (r : Router.Request)
  | whepOpen (bearer : Option Claims)
  | whepClose (bearer : Option Claims) (session : String)
  deriving DecidableEq

inductive Answer
  | relayed (status : ℕ)
  | error (status : ℕ) (detail : String)
  deriving DecidableEq

/-- What a step leaves open: a drawn secret, or what the streamer does with a request.
    `answered` is any answer that sets up or closes nothing, 502 for none at all. -/
inductive Choice
  | drawn (x : String)
  | accepted (location : String)
  | closed
  | answered (status : ℕ)
  deriving DecidableEq

def Choice.secret : Choice → String
  | .drawn x => x
  | _ => ""

inductive SweepPc
  | select
  | closing (sessions : List String)
  | done
  deriving DecidableEq

inductive OpenPc
  | auth
  | relay (user : Claims)
  | register (user : Claims) (location : String)
  | recheck (user : Claims)
  | sweep (user : Claims) (pc : SweepPc)
  | finished (r : Answer)
  deriving DecidableEq

inductive ClosePc
  | auth
  | unregister (user : Claims)
  | relay (user : Claims)
  | finished (r : Answer)
  deriving DecidableEq

inductive Thread
  | handler (t : Router.Thread) (epoch : Option ℕ)
  | terminate (t : Router.Thread) (username : String) (epoch : Option ℕ) (pc : SweepPc)
  | whepOpen (bearer : Option Claims) (pc : OpenPc)
  | whepClose (bearer : Option Claims) (session : String) (pc : ClosePc)
  deriving DecidableEq

def enter : Request → Thread
  | .session r => .handler (Router.enter r) none
  | .whepOpen bearer => .whepOpen bearer .auth
  | .whepClose bearer session => .whepClose bearer session .auth

/-! ## The registry -/

namespace Shared

/-- The table `whep_sessions`. -/
def rows (s : Shared) : String → Option WhepRow := s.session.db.whepSessions

def setRows (s : Shared) (rows : String → Option WhepRow) : Shared :=
  { s with session := { s.session with db := { s.session.db with whepSessions := rows } } }

/-- `_current_epoch`. -/
def currentEpoch (s : Shared) (username : String) : Option ℕ := s.session.db.getEpoch username

/-- The streamer sets up a session. -/
def accept (s : Shared) (σ : Setup) : Shared :=
  { s with accepted := σ :: s.accepted, isOpen := Function.update s.isOpen σ.path true }

/-- `_register_whep_session`: `INSERT OR REPLACE`, `created_at` by default. -/
def registerWhepSession (s : Shared) (username path : String) : Shared :=
  { s.setRows (Function.update s.rows path (some ⟨username, ⌊s.session.now⌋⟩)) with
    registeredAt := Function.update s.registeredAt path (some ⌊s.session.now⌋) }

/-- `_unregister_whep_session`: `DELETE ... WHERE session_path = ? AND username = ?`. -/
def unregisterWhepSession (s : Shared) (username path : String) : Shared :=
  s.setRows fun p =>
    if p = path then (s.rows p).filter fun row => !decide (row.username = username) else s.rows p

/-- `SELECT session_path FROM whep_sessions WHERE username = ?`. -/
def sessionsOf (s : Shared) (username : String) : List String :=
  (s.accepted.map Setup.path).filter fun p =>
    (s.rows p).any fun row => decide (row.username = username)

/-- `DELETE FROM whep_sessions WHERE username = ?`. -/
def removeSessions (s : Shared) (username : String) : Shared :=
  s.setRows fun p => (s.rows p).filter fun row => !decide (row.username = username)

/-- An upstream `DELETE` that the streamer answers with `k`. -/
def delete (s : Shared) (d : Delete) (k : Choice) : Shared :=
  { s with
    deletes := d :: s.deletes
    isOpen := if k = .closed then Function.update s.isOpen d.path false else s.isOpen }

end Shared

/-! ## The handlers -/

/-- `_terminate_whep_sessions`; no outcome of a `DELETE` stops the loop. -/
def sweepNext (s : Shared) (username : String) (epoch : Option ℕ) :
    SweepPc → Choice → Option (Shared × SweepPc)
  | .select, _ => some (s.removeSessions username, .closing (s.sessionsOf username))
  | .closing [], _ => some (s, .done)
  | .closing (path :: rest), k =>
      match k with
      | .closed | .answered _ =>
          some (s.delete ⟨path, epoch, s.currentEpoch username⟩ k, .closing rest)
      | _ => none
  | .done, _ => none

/-- `whep_open` with `_register_whep_and_recheck`. -/
def openNext (s : Shared) (bearer : Option Claims) : OpenPc → Choice → Option (Shared × OpenPc)
  | .auth, _ =>
      match s.session.db.requireAuth s.session.signed s.session.now bearer with
      | .error detail => some (s, .finished (.error 401 detail))
      | .ok user => some (s, .relay user)
  | .relay user, k =>
      match k with
      | .accepted location =>
          -- `if location:`; the streamer hands out no path twice
          if location = "" ∨ location ∈ s.accepted.map Setup.path then none
          else some (s.accept ⟨location, user.sub, user.epoch⟩, .register user location)
      | .answered status => some (s, .finished (.relayed status))
      | _ => none
  | .register user location, _ => some (s.registerWhepSession user.sub location, .recheck user)
  -- an epoch that moved during the setup: the sweep of the bump may have missed this session
  | .recheck user, _ =>
      if s.currentEpoch user.sub ≠ some user.epoch then some (s, .sweep user .select)
      else some (s, .finished (.relayed 201))
  | .sweep _ .done, _ => some (s, .finished (.relayed 201))
  | .sweep user pc, k =>
      (sweepNext s user.sub (some user.epoch) pc k).map fun r => (r.1, .sweep user r.2)
  | .finished _, _ => none

/-- The session path of a `whep_close`. -/
def sessionPath (session : String) : String := "/live/whep/" ++ session

/-- `whep_close`: the row goes before the `DELETE` is relayed. -/
def closeNext (s : Shared) (bearer : Option Claims) (session : String) :
    ClosePc → Choice → Option (Shared × ClosePc)
  | .auth, _ =>
      match s.session.db.requireAuth s.session.signed s.session.now bearer with
      | .error detail => some (s, .finished (.error 401 detail))
      | .ok user => some (s, .unregister user)
  | .unregister user, _ =>
      some (s.unregisterWhepSession user.sub (sessionPath session), .relay user)
  | .relay _, k =>
      match k with
      | .closed => some (s.delete ⟨sessionPath session, none, none⟩ k, .finished (.relayed 200))
      | .answered status =>
          some (s.delete ⟨sessionPath session, none, none⟩ k, .finished (.relayed status))
      | _ => none
  | .finished _, _ => none

/-- A step of a `Router.Session` handler; its epoch bump is the epoch of its sweep. -/
def handlerNext (cfg : Config) (i : ℕ) (s : Shared) (t : Router.Thread) (epoch : Option ℕ)
    (k : Choice) : Option (Shared × Thread) :=
  (Router.next cfg i s.session t k.secret).map fun r =>
    ({ s with session := r.1 },
      .handler r.2 (match t.bumps with
        | some username => r.1.db.getEpoch username
        | none => epoch))

/-- One step of a request. -/
def next (cfg : Config) (i : ℕ) (s : Shared) : Thread → Choice → Option (Shared × Thread)
  | .handler t epoch, k =>
      match t.terminates with
      | some username => some (s, .terminate t username epoch .select)
      | none => handlerNext cfg i s t epoch k
  | .terminate t username epoch pc, k =>
      (sweepNext s username epoch pc k).map fun r => (r.1, .terminate t username epoch r.2)
  | .whepOpen bearer pc, k => (openNext s bearer pc k).map fun r => (r.1, .whepOpen bearer r.2)
  | .whepClose bearer session pc, k =>
      (closeNext s bearer session pc k).map fun r => (r.1, .whepClose bearer session r.2)

/-- The clock advances, or the streamer closes a session by itself. -/
inductive Env
  | tick (d : ℚ)
  | drop (path : String)
  deriving DecidableEq

def env (s : Shared) : Env → Option Shared
  | .tick d => (tick s.session d).map fun session => { s with session }
  | .drop path => some { s with isOpen := Function.update s.isOpen path false }

/-- The router's session handling with its WebRTC sessions. -/
def router (cfg : Config) : Prog Shared Thread Request Choice Env where
  enter := enter
  next := next cfg
  env := env

/-- Accounts, no session of any kind, and no request under way. -/
def boot (users : String → Option User) (now : ℚ) : Conf Shared Thread where
  shared :=
    { session := (Router.boot users now).shared
      accepted := []
      isOpen := fun _ => false
      registeredAt := fun _ => none
      deletes := [] }
  pool := []

/-- The states the router can reach from `boot users now`. -/
def Reachable (cfg : Config) (users : String → Option User) (now : ℚ)
    (c : Conf Shared Thread) : Prop :=
  Steps (router cfg).step free (boot users now) c

/-- The request is answered and has nothing left to do. -/
def Thread.isFinished : Thread → Bool
  | .handler t _ => t.isFinished && t.terminates.isNone
  | .terminate _ _ _ .done => true
  | .whepOpen _ (.finished _) | .whepClose _ _ (.finished _) => true
  | _ => false

end Babycat.Router.Whep
