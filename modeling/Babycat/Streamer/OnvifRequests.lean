/-
  Babycat.Streamer.OnvifRequests

  The SOAP requests of a PTZ command (`ptz.py`: `configure`, `clear_config`,
  `_issue_request`, `_resolve_profile_token`) among those of other threads.

  Every critical section of `_lock` is one step.  The URL, the credentials and
  the profile token of a command are read in different ones, and the token is
  cached behind a round trip.  Each value carries the number of the `configure`
  call that it belongs to, and a request is torn when the numbers differ.  None is
  in a run in which no command is caught between its reads.
-/

import Babycat.Conc.Pool
import Babycat.Text.PyStr

namespace Babycat.Onvif

open Babycat.Conc
open Babycat.Text (PyStr pyStr)

-- ============================================================================
-- The configuration
-- ============================================================================

/-- A value, and the `configure` call that has set it. -/
structure Stamped where
  value : PyStr
  call : ℕ
  deriving DecidableEq

/-- A profile token, and the call under which the camera has named it; none for the fallback. -/
structure Token where
  text : PyStr
  call : Option ℕ
  deriving DecidableEq

/-- `_PTZ_PROFILE_FALLBACK` -/
def fallback : Token := ⟨pyStr "profile_1", none⟩

/-- A request as it is sent; one of `GetProfiles` has no token. -/
structure SoapRequest where
  url : Stamped
  user : Option Stamped
  password : Stamped
  token : Option Token
  deriving DecidableEq

structure OnvifState where
  url : Option Stamped
  user : Option Stamped
  password : Option Stamped
  profileToken : Option Token
  /-- The `configure` calls so far. -/
  calls : ℕ
  /-- The requests so far, the last one first. -/
  sent : List SoapRequest

namespace OnvifState

variable (s : OnvifState)

/-- What the module starts with. -/
def initial : OnvifState := ⟨none, none, none, none, 0, []⟩

def configure (url user password : PyStr) : OnvifState where
  url := some ⟨url, s.calls⟩
  user := some ⟨user, s.calls⟩
  password := some ⟨password, s.calls⟩
  profileToken := none
  calls := s.calls + 1
  sent := s.sent

/-- `clear_config`, as far as requests read it. -/
def clearConfig : OnvifState :=
  { s with url := none, user := none, password := none, profileToken := none }

def isConfigured : Bool := s.url.isSome

/-- The call whose configuration is in place. -/
def current : Option ℕ := s.url.map Stamped.call

end OnvifState

-- ============================================================================
-- A request
-- ============================================================================

/-- `_issue_request`, up to the moment when the request is sent. -/
inductive Issue
  | check
  | readUrl
  | credentials (url : Option Stamped)
  | send (url user : Option Stamped) (password : Stamped)
  deriving DecidableEq

inductive IssueStep
  | go (pc : Issue)
  /-- None is returned and nothing sent: PTZ is not configured, or an exception is caught. -/
  | failed
  | sent (r : SoapRequest)

def issueNext (s : OnvifState) (token : Option Token) : Issue → IssueStep
  | .check => if s.isConfigured then .go .readUrl else .failed
  | .readUrl => .go (.credentials s.url)
  | .credentials url =>
      match s.password with
      | some password => .go (.send url s.user password)
      | none => .failed
  | .send url user password =>
      match url with
      | some url => .sent ⟨url, user, password, token⟩
      | none => .failed

/-- A PTZ command or a status poll. -/
inductive Command
  /-- `_resolve_profile_token` looks into the cache. -/
  | resolve
  | ask (pc : Issue)
  | store (token : Token)
  | body (token : Token) (pc : Issue)
  | finished
  deriving DecidableEq

/-- The token of an answer to `GetProfiles`. -/
def tokenOf (r : SoapRequest) : Option PyStr → Token
  | some text => ⟨text, some r.url.call⟩
  | none => fallback

/-- The next step of a command; `answer` is the token that the camera names, if it does. -/
def commandNext (s : OnvifState) (answer : Option PyStr) : Command → Option (OnvifState × Command)
  | .resolve =>
      some (s, match s.profileToken.filter (·.text ≠ []) with
        | some token => .body token .check
        | none => .ask .check)
  | .ask pc =>
      match issueNext s none pc with
      | .go pc => some (s, .ask pc)
      | .failed => some (s, .store fallback)
      | .sent r => some ({ s with sent := r :: s.sent }, .store (tokenOf r answer))
  | .store token => some ({ s with profileToken := some token }, .body token .check)
  | .body token pc =>
      match issueNext s (some token) pc with
      | .go pc => some (s, .body token pc)
      | .failed => some (s, .finished)
      | .sent r => some ({ s with sent := r :: s.sent }, .finished)
  | .finished => none

inductive Thread
  | configure (url user password : PyStr)
  | clearConfig
  | command (pc : Command)
  | returned
  deriving DecidableEq

inductive Request
  | configure (url user password : PyStr)
  | clearConfig
  | command

/-- The threads of the streamer, as far as they set or use the PTZ target. -/
def onvif : Prog OnvifState Thread Request (Option PyStr) Empty where
  enter
    | .configure url user password => .configure url user password
    | .clearConfig => .clearConfig
    | .command => .command .resolve
  next _ s t answer :=
    match t with
    | .configure url user password => some (s.configure url user password, .returned)
    | .clearConfig => some (s.clearConfig, .returned)
    | .command pc => (commandNext s answer pc).map fun r => (r.1, .command r.2)
    | .returned => none
  env _ e := e.elim

abbrev Streamer := Conf OnvifState Thread

def start : Streamer := ⟨.initial, []⟩

-- ============================================================================
-- What requests should be
-- ============================================================================

/-- All values of the request belong to one `configure` call; the fallback belongs to any. -/
def SoapRequest.Untorn (r : SoapRequest) : Prop :=
  (∃ user, r.user = some user ∧ user.call = r.url.call) ∧ r.password.call = r.url.call ∧
    ∀ token ∈ r.token, ∀ n ∈ token.call, n = r.url.call

/-- The cached token belongs to the configuration that is in place. -/
def OnvifState.CacheFresh (s : OnvifState) : Prop :=
  ∀ token ∈ s.profileToken, ∀ n ∈ token.call, s.current = some n

/-- A command that has read a part of the configuration and is to read another one, or to cache a
token that it asks for. -/
def Thread.betweenReads : Thread → Bool
  | .command (.ask (.credentials (some _))) | .command (.ask (.send (some _) _ _)) => true
  | .command (.store token) => token.call.isSome
  | .command (.body token .check) | .command (.body token .readUrl) => token.call.isSome
  | .command (.body _ (.credentials (some _))) => true
  | _ => false

/-- A command that is to cache a token that it asks for. -/
def Thread.beforeStore : Thread → Bool
  | .command (.ask (.send (some _) _ _)) => true
  | .command (.store token) => token.call.isSome
  | _ => false

/-- `configure` runs while no command is between its reads, `clear_config` while none is to cache
a token. -/
def undisturbed (c : Streamer) : Event Request (Option PyStr) Empty → Bool
  | .sched i _ =>
      match c.pool[i]? with
      | some (.configure _ _ _) => c.pool.all fun t => !t.betweenReads
      | some .clearConfig => c.pool.all fun t => !t.beforeStore
      | _ => true
  | _ => true

def Undisturbed (c : Streamer) (e : Event Request (Option PyStr) Empty) : Prop :=
  undisturbed c e = true

instance (c : Streamer) (e : Event Request (Option PyStr) Empty) : Decidable (Undisturbed c e) :=
  inferInstanceAs (Decidable (_ = true))

-- ============================================================================
-- What a command knows
-- ============================================================================

/-- What a request under way knows of the configuration in place. -/
def Issue.Knows (current token : Option ℕ) : Issue → Prop
  | .check | .readUrl => ∀ m ∈ token, ∀ n ∈ current, n = m
  | .credentials url => ∀ u ∈ url, (∀ m ∈ token, m = u.call) ∧ ∀ n ∈ current, n = u.call
  | .send url user password =>
      ∀ u ∈ url, (∀ m ∈ token, m = u.call) ∧ (∃ w, user = some w ∧ w.call = u.call) ∧
        password.call = u.call

/-- A request that is ready belongs to the configuration in place. -/
def Issue.Current (current : Option ℕ) : Issue → Prop
  | .send url _ _ => ∀ u ∈ url, current = some u.call
  | _ => True

def Knows (_ : ℕ) (s : OnvifState) : Thread → Prop
  | .command (.ask pc) => pc.Knows s.current none ∧ pc.Current s.current
  | .command (.store token) => ∀ n ∈ token.call, s.current = some n
  | .command (.body token pc) => pc.Knows s.current token.call
  | _ => True

/-- The values in place belong to one call. -/
def OnvifState.Aligned (s : OnvifState) : Prop :=
  ∀ password ∈ s.password, s.current = some password.call ∧
    ∃ user, s.user = some user ∧ user.call = password.call

structure Inv (s : OnvifState) : Prop where
  aligned : s.Aligned
  fresh : s.CacheFresh
  untorn : ∀ r ∈ s.sent, r.Untorn

section Steps

variable {s : OnvifState} {token : Option Token} {pc pc' : Issue}

/-- A step of a request keeps what it knows; a request that is sent is not torn. -/
theorem issueNext_knows (token : Option Token) (h : s.Aligned)
    (hpc : pc.Knows s.current (token.bind Token.call)) :
    (∀ pc', issueNext s token pc = .go pc' →
      pc'.Knows s.current (token.bind Token.call) ∧ pc'.Current s.current) ∧
      ∀ r, issueNext s token pc = .sent r → r.Untorn := by
  cases pc with
  | check =>
    rw [issueNext]
    refine ⟨fun pc' hgo => ?_, fun r hsent => ?_⟩
    · split_ifs at hgo
      cases hgo
      exact ⟨hpc, trivial⟩
    · split_ifs at hsent
  | readUrl =>
    refine ⟨fun pc' hgo => ?_, fun r hsent => by cases hsent⟩
    cases hgo
    refine ⟨fun u hu => ?_, trivial⟩
    have hcurrent : s.current = some u.call := by
      rw [OnvifState.current, show s.url = some u from hu, Option.map_some]
    refine ⟨fun m hm => (hpc m hm _ hcurrent).symm, fun n hn => ?_⟩
    exact Option.some.inj (hn.symm.trans hcurrent)
  | credentials url =>
    rw [issueNext]
    cases hpassword : s.password with
    | none => exact ⟨fun pc' hgo => (by cases hgo), fun r hsent => (by cases hsent)⟩
    | some password =>
      refine ⟨fun pc' hgo => ?_, fun r hsent => by cases hsent⟩
      cases hgo
      obtain ⟨hcurrent, user, huser, hcall⟩ := h password hpassword
      have hsame : ∀ u ∈ url, password.call = u.call := fun u hu => (hpc u hu).2 _ hcurrent
      refine ⟨fun u hu => ⟨(hpc u hu).1, ⟨user, huser, hcall.trans (hsame u hu)⟩, hsame u hu⟩,
        fun u hu => ?_⟩
      rw [hcurrent, hsame u hu]
  | send url user password =>
    cases url with
    | none => exact ⟨fun pc' hgo => (by cases hgo), fun r hsent => (by cases hsent)⟩
    | some url =>
      refine ⟨fun pc' hgo => (by cases hgo), fun r hsent => ?_⟩
      cases hsent
      obtain ⟨htoken, huser, hpassword⟩ := hpc url rfl
      refine ⟨huser, hpassword, fun t ht n hn => htoken n ?_⟩
      rw [show token = some t from ht, Option.bind_some]
      exact hn

/-- The URL of a request that is sent is the one it was ready with. -/
theorem issueNext_sent {r : SoapRequest} (h : issueNext s token pc = .sent r) :
    pc = .send (some r.url) r.user r.password := by
  cases pc with
  | check =>
    rw [issueNext] at h
    split_ifs at h
  | readUrl => cases h
  | credentials url =>
    rw [issueNext] at h
    split at h <;> cases h
  | send url user password =>
    cases url with
    | none => cases h
    | some url =>
      cases h
      rfl

/-- What a request knows it knows of any configuration that is in place for a shorter time. -/
theorem Issue.Knows.of_cleared {current m : Option ℕ} (h : pc.Knows current m) : pc.Knows none m := by
  have hnone : ∀ {k : ℕ}, ∀ n ∈ (none : Option ℕ), n = k := fun n hn => by cases hn
  cases pc with
  | check | readUrl => exact fun k _ => hnone
  | credentials url => exact fun u hu => ⟨(h u hu).1, hnone⟩
  | send url user password => exact h

end Steps

-- ============================================================================
-- The steps of the threads
-- ============================================================================

section Threads

variable {s s' : OnvifState} {answer : Option PyStr} {pc pc' : Command} {i : ℕ}

/-- A step of a command leaves the configuration alone. -/
theorem commandNext_frame (h : commandNext s answer pc = some (s', pc')) :
    s'.url = s.url ∧ s'.user = s.user ∧ s'.password = s.password := by
  cases pc with
  | resolve | store token =>
    cases h
    exact ⟨rfl, rfl, rfl⟩
  | ask pc | body token pc =>
    rw [commandNext] at h
    split at h <;> cases h <;> exact ⟨rfl, rfl, rfl⟩
  | finished => cases h

/-- Only the configuration in place counts. -/
theorem OnvifState.Aligned.of_frame (h : s.Aligned)
    (hframe : s'.url = s.url ∧ s'.user = s.user ∧ s'.password = s.password) : s'.Aligned := by
  rw [OnvifState.Aligned, OnvifState.current, hframe.1, hframe.2.1, hframe.2.2]
  exact h

theorem commandNext_inv (hI : Inv s) (hA : Knows i s (.command pc))
    (h : commandNext s answer pc = some (s', pc')) :
    Inv s' ∧ Knows i s' (.command pc') := by
  have hframe := commandNext_frame h
  have hcurrent : s'.current = s.current := by
    rw [OnvifState.current, OnvifState.current, hframe.1]
  have haligned := hI.aligned.of_frame hframe
  cases pc with
  | resolve =>
    rw [commandNext] at h
    obtain ⟨rfl, rfl⟩ := Prod.mk.inj (Option.some.inj h)
    refine ⟨hI, ?_⟩
    split
    · rename_i token htoken
      have hcached : token ∈ s.profileToken := (Option.filter_eq_some_iff.mp htoken).1
      intro m hm n hn
      have hm' := hI.fresh token hcached m hm
      exact Option.some.inj (hn.symm.trans hm')
    · exact ⟨fun m hm => (by cases hm), trivial⟩
  | ask issue =>
    obtain ⟨hknows, hready⟩ := hA
    have hissue := issueNext_knows none hI.aligned hknows
    rw [commandNext] at h
    cases hstep : issueNext s none issue with
    | go issue' =>
      rw [hstep] at h
      cases h
      exact ⟨hI, hissue.1 issue' hstep⟩
    | failed =>
      rw [hstep] at h
      cases h
      exact ⟨hI, fun n hn => (by cases hn)⟩
    | sent r =>
      rw [hstep] at h
      cases h
      refine ⟨⟨haligned, hI.fresh, List.forall_mem_cons.mpr ⟨hissue.2 r hstep, hI.untorn⟩⟩,
        fun n hn => ?_⟩
      rw [issueNext_sent hstep] at hready
      have hurl : s.current = some r.url.call := hready r.url rfl
      cases answer with
      | none => cases hn
      | some text => exact hurl.trans hn
  | store token =>
    cases h
    refine ⟨⟨haligned, fun t ht => ?_, hI.untorn⟩, fun m hm n hn => ?_⟩
    · rw [← Option.some.inj ht]
      exact hA
    · have hm' := hA m hm
      exact Option.some.inj (hn.symm.trans hm')
  | body token issue =>
    have hissue := issueNext_knows (some token) hI.aligned hA
    rw [commandNext] at h
    cases hstep : issueNext s (some token) issue with
    | go issue' =>
      rw [hstep] at h
      cases h
      exact ⟨hI, (hissue.1 issue' hstep).1⟩
    | failed =>
      rw [hstep] at h
      cases h
      exact ⟨hI, trivial⟩
    | sent r =>
      rw [hstep] at h
      cases h
      exact ⟨⟨haligned, hI.fresh, List.forall_mem_cons.mpr ⟨hissue.2 r hstep, hI.untorn⟩⟩, trivial⟩
  | finished => cases h

/-- What a thread knows is a matter of the call in place. -/
theorem Knows.of_current {t : Thread} {j : ℕ} (h : Knows j s t) (hcurrent : s'.current = s.current) :
    Knows j s' t := by
  cases t with
  | command pc =>
    cases pc with
    | ask | store | body =>
      simp only [Knows, hcurrent] at h ⊢
      exact h
    | resolve | finished => trivial
  | _ => trivial

/-- Between no reads there is nothing to know. -/
theorem knows_of_quiet {t : Thread} {j : ℕ} (hknows : Knows j s t) (h : t.betweenReads = false) :
    Knows j s' t := by
  cases t with
  | command pc =>
    cases pc with
    | resolve | finished => trivial
    | ask issue =>
      cases issue with
      | check | readUrl => exact ⟨fun m hm => (by cases hm), trivial⟩
      | credentials url =>
        cases url with
        | none => exact ⟨fun u hu => (by cases hu), trivial⟩
        | some url => cases h
      | send url user password =>
        cases url with
        | none => exact ⟨fun u hu => (by cases hu), fun u hu => (by cases hu)⟩
        | some url => cases h
    | store token =>
      intro n hn
      rw [Thread.betweenReads, show token.call = some n from hn] at h
      cases h
    | body token issue =>
      cases issue with
      | check | readUrl =>
        intro m hm
        rw [Thread.betweenReads, show token.call = some m from hm] at h
        cases h
      | credentials url =>
        cases url with
        | none => exact fun u hu => (by cases hu)
        | some url => cases h
      | send url user password => exact hknows
  | _ => trivial

/-- What is known stays true when the configuration is cleared before no store. -/
theorem knows_cleared {t : Thread} {j : ℕ} (hknows : Knows j s t) (h : t.beforeStore = false) :
    Knows j s.clearConfig t := by
  cases t with
  | command pc =>
    cases pc with
    | resolve | finished => trivial
    | ask issue =>
      refine ⟨hknows.1.of_cleared, ?_⟩
      cases issue with
      | send url user password =>
        cases url with
        | none => exact fun u hu => (by cases hu)
        | some url => cases h
      | _ => trivial
    | store token =>
      intro n hn
      rw [Thread.beforeStore, show token.call = some n from hn] at h
      cases h
    | body token issue => exact Issue.Knows.of_cleared hknows
  | _ => trivial

theorem inv_configure (hI : Inv s) (url user password : PyStr) :
    Inv (s.configure url user password) where
  aligned p hp := by
    cases hp
    exact ⟨rfl, _, rfl, rfl⟩
  fresh token htoken := by cases htoken
  untorn := hI.untorn

theorem inv_clearConfig (hI : Inv s) : Inv s.clearConfig where
  aligned p hp := by cases hp
  fresh token htoken := by cases htoken
  untorn := hI.untorn

/-- The requests of an undisturbed run. -/
theorem untorn_outline : OwickiGries onvif Undisturbed Inv Knows where
  enter i s r _ := by cases r <;> trivial
  own c i k t s' t' hc _ ht hn := by
    have hA := hc.2 i t ht
    cases t with
    | configure url user password =>
      cases hn
      exact ⟨inv_configure hc.1 url user password, trivial⟩
    | clearConfig =>
      cases hn
      exact ⟨inv_clearConfig hc.1, trivial⟩
    | command pc =>
      obtain ⟨r, hr, heq⟩ := Option.map_eq_some_iff.mp hn
      cases heq
      exact commandNext_inv hc.1 hA hr
    | returned => cases hn
  others c i k t s' t' j v hc hG ht hn _ hj := by
    have hA := hc.2 j v hj
    have hmem : v ∈ c.pool := List.mem_of_getElem? hj
    rw [Undisturbed, undisturbed, ht] at hG
    cases t with
    | configure url user password =>
      cases hn
      have hquiet := List.all_eq_true.mp hG v hmem
      exact knows_of_quiet hA ((Bool.not_eq_true' _).mp hquiet)
    | clearConfig =>
      cases hn
      have hquiet := List.all_eq_true.mp hG v hmem
      exact knows_cleared hA ((Bool.not_eq_true' _).mp hquiet)
    | command pc =>
      obtain ⟨r, hr, heq⟩ := Option.map_eq_some_iff.mp hn
      cases heq
      refine hA.of_current ?_
      rw [OnvifState.current, OnvifState.current, (commandNext_frame hr).1]
    | returned => cases hn
  env c x := x.elim

end Threads

-- ============================================================================
-- Runs
-- ============================================================================

theorem annotated_start : Annotated Inv Knows start where
  left := ⟨fun p hp => (by cases hp), fun t ht => (by cases ht), List.forall_mem_nil _⟩
  right i t ht := by cases ht

/-- In a run whose reconfigurations come while no command is between its reads, no request is torn,
and the cached token belongs to the configuration in place. -/
theorem requests_untorn {c : Streamer} (h : Steps onvif.step Undisturbed start c) :
    (∀ r ∈ c.shared.sent, r.Untorn) ∧ c.shared.CacheFresh := by
  have hI := (untorn_outline.steps h annotated_start).1
  exact ⟨hI.untorn, hI.fresh⟩

section Schedules

/-- Thread `i` takes so many steps; the camera names a token to whoever asks. -/
abbrev goes (i n : ℕ) : List (Event Request (Option PyStr) Empty) :=
  List.replicate n (.sched i (some (pyStr "Profile_1")))

/-- A camera is configured by thread 0, and a command enters as thread 1. -/
abbrev firstCommand : List (Event Request (Option PyStr) Empty) :=
  .enter (.configure (pyStr "http://10.0.0.5/onvif") (pyStr "admin") (pyStr "pw")) :: goes 0 1 ++
    [.enter .command]

/-- Another one takes its place, by thread 2. -/
abbrev reconfigured : List (Event Request (Option PyStr) Empty) :=
  .enter (.configure (pyStr "http://10.0.0.6/onvif") (pyStr "root") (pyStr "secret")) :: goes 2 1

/-- A command before the reconfiguration and one after it. -/
abbrev between : Streamer :=
  exec (guardedStep onvif.step Undisturbed) start
    (firstCommand ++ goes 1 10 ++ reconfigured ++ .enter .command :: goes 3 10)

set_option maxRecDepth 4000 in
/-- The two commands send two requests each. -/
theorem requests_untorn_between :
    between.shared.sent.map (fun r => (r.url.call, r.token.map Token.call)) =
        [(1, some (some 1)), (1, none), (0, some (some 0)), (0, none)] ∧
      (∀ r ∈ between.shared.sent, r.Untorn) ∧ between.shared.CacheFresh :=
  ⟨by decide, requests_untorn (Steps.execGuarded (by decide))⟩

/-- The command has read the URL when the camera is replaced. -/
abbrev afterUrl : List (Event Request (Option PyStr) Empty) :=
  firstCommand ++ goes 1 3 ++ reconfigured ++ goes 1 2

/-- The command has the token of the first camera when it is replaced. -/
abbrev afterAnswer : List (Event Request (Option PyStr) Empty) :=
  firstCommand ++ goes 1 5 ++ reconfigured ++ goes 1 5

/-- The credentials of the new camera go to the old one; the token of the old camera is cached, and
goes to the new one. -/
theorem requests_torn :
    (∃ c, Steps onvif.step free start c ∧
      ∃ r ∈ c.shared.sent, r.url.call = 0 ∧ r.password.call = 1 ∧ ¬r.Untorn) ∧
    ∃ c, Steps onvif.step free start c ∧ ¬c.shared.CacheFresh ∧
      ∃ r ∈ c.shared.sent, r.url.call = 1 ∧ r.token.bind Token.call = some 0 ∧ ¬r.Untorn := by
  refine ⟨⟨exec onvif.step start afterUrl, Steps.exec (by decide),
    ⟨⟨pyStr "http://10.0.0.5/onvif", 0⟩, some ⟨pyStr "root", 1⟩, ⟨pyStr "secret", 1⟩, none⟩,
      by decide, rfl, rfl, fun h => ?_⟩,
    exec onvif.step start afterAnswer, Steps.exec (by decide), fun h => ?_,
    ⟨⟨pyStr "http://10.0.0.6/onvif", 1⟩, some ⟨pyStr "root", 1⟩, ⟨pyStr "secret", 1⟩,
      some ⟨pyStr "Profile_1", some 0⟩⟩, by decide, rfl, rfl, fun h => ?_⟩
  · have hpassword : 1 = 0 := h.2.1
    cases hpassword
  · have hcached : (⟨pyStr "Profile_1", some 0⟩ : Token) ∈
        (exec onvif.step start afterAnswer).shared.profileToken := by decide
    have hcurrent : (exec onvif.step start afterAnswer).shared.current = some 1 := by
      decide
    have hfresh := h _ hcached 0 rfl
    rw [hcurrent] at hfresh
    cases hfresh
  · have htoken : 0 = 1 := h.2.2 _ rfl 0 rfl
    cases htoken

end Schedules

end Babycat.Onvif
