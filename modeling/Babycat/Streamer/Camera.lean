/-
  Babycat.Streamer.Camera

  The streamer's companion process (`camera.py`, the PTZ target and presets of
  `ptz.py`, the MediaMTX supervisor of `main.py`).

  What the operations change lies in four places: the two profile files, the
  source at the MediaMTX child, the PTZ target and the presets in memory.  One
  step of a thread is one file access, one call of the control API, one
  assignment under `ptz._lock` or one acquisition of a lock.  The files hold
  what the process itself has written.
-/

import Babycat.Conc.Mutex
import Babycat.Streamer.Profile

namespace Babycat.Streamer

open Babycat.Conc
open Babycat.Recorder (Json Payload PyFloat)

/-! ## State -/

/-- The conversions of Python. -/
structure StreamerConfig where
  /-- The text of a float, a list or a dict. -/
  repr : Json → String
  /-- `int(key)`; `none` is an exception. -/
  toInt : String → Option ℤ
  /-- `float(value)`; `none` is an exception. -/
  toFloat : Json → Option PyFloat
  /-- `round(x, 3)`. -/
  round3 : PyFloat → PyFloat

/-- The applied slot (`cam_applied.json`); what is missing is empty. -/
structure Applied where
  streamingActive : Bool
  profile : Option Profile
  presets : Payload
  patrol : Payload
  valid : streamingActive = true → profile.isSome = true

/-- What `ptz.configure` was given. -/
structure PtzTarget where
  url : String
  user : String
  password : String
  deriving DecidableEq

/-- The presets in memory: slot, pan and tilt. -/
abbrev Presets := List (ℤ × PyFloat × PyFloat)

/-- The MediaMTX child, as its supervisor sees it. -/
inductive Child
  | up
  | exited
  /-- `startup_apply` is spawned, and the child about to be. -/
  | starting
  deriving DecidableEq

structure Companion where
  /-- `cam_profile.json`. -/
  registered : Option Payload
  applied : Applied
  configLock : Option ℕ
  runtimeLock : Option ℕ
  /-- `_startup_apply_running`. -/
  restoring : Option ℕ
  /-- The source of the path at MediaMTX. -/
  source : String
  ptz : Option PtzTarget
  presets : Presets
  /-- The patrol setting in memory. -/
  patrol : Payload
  child : Child
  /-- The `startup_apply` threads that are spawned and have not run. -/
  spawned : ℕ

/-- `MEDIAMTX_SOURCE_DETACHED`. -/
def detached : String := "publisher"

inductive Outcome
  | ok
  | error (text : String)
  deriving DecidableEq

def mediamtxApiError : Outcome := .error "MediaMTX API connection failed"

/-- What a step leaves open: the answer of the control API. -/
inductive CameraChoice
  | go
  /-- The source is set and the answer is 200. -/
  | patched
  /-- The call fails and the source is as it was. -/
  | refused
  /-- The call fails after the source was set. -/
  | lost
  deriving DecidableEq

/-! ## Operations on the state -/

/-- `_patch_source`. -/
def patchSource (s : Companion) (k : CameraChoice) (source : String) : Option (Companion × Bool) :=
  match k with
  | .patched => if s.child = .up then some ({ s with source := source }, true) else none
  | .lost => if s.child = .up then some ({ s with source := source }, false) else none
  | .refused => some (s, false)
  | .go => none

/-- The PTZ target of a profile. -/
def ptzTarget (repr : Json → String) (p : Profile) : Option PtzTarget :=
  if p.onvifPort.truthy then some ⟨buildOnvifUrl repr p, p.username, p.password⟩ else none

/-- `_configure_ptz`. -/
def configurePtz (repr : Json → String) (s : Companion) (p : Profile) : Companion :=
  { s with ptz := ptzTarget repr p }

/-- One entry of a `ptz_presets` mapping; `none` when it is skipped. -/
def loadPreset (cfg : StreamerConfig) (key : String) (value : Json) :
    Option (ℤ × PyFloat × PyFloat) :=
  match cfg.toInt key, value with
  | some slot, .dict fields =>
      if slot ∈ [1, 2, 3, 4] then
        match (fields.lookup "pan").bind cfg.toFloat, (fields.lookup "tilt").bind cfg.toFloat with
        | some pan, some tilt => some (slot, cfg.round3 pan, cfg.round3 tilt)
        | _, _ => none
      else none
  | _, _ => none

/-- `ptz.load_presets`. -/
def loadPresets (cfg : StreamerConfig) (data : Payload) : Presets :=
  data.foldl (fun loaded item =>
    match loadPreset cfg item.1 item.2 with
    | some preset => preset :: loaded.filter fun other => other.1 != preset.1
    | none => loaded) []

/-- The presets that a start keeps: they belong to the camera. -/
def keptPresets (a : Applied) (p : Profile) : Payload :=
  if a.profile.map Profile.ip = some p.ip then a.presets else []

/-- The slot that a start writes. -/
def promote (s : Companion) (a : Applied) (p : Profile) : Applied where
  streamingActive := true
  profile := some p
  presets := keptPresets a p
  patrol := if a.patrol.isEmpty then s.patrol else a.patrol
  valid _ := rfl

/-- The slot that a stop writes. -/
def Applied.stopped (a : Applied) : Applied :=
  { a with
    streamingActive := false
    valid := fun h => by cases h }

/-! ## Threads -/

/-- `register`. -/
inductive RegisterPc
  | read
  | acquire (p : Profile)
  | merge (p : Profile)
  | write (d : Payload)
  | release
  | returned (o : Outcome)

/-- `streaming_start`. -/
inductive StartPc
  | acquire
  | registered
  | applied (p : Profile)
  | patch (p : Profile) (a : Applied)
  | configure (p : Profile) (a : Applied)
  | collect (p : Profile) (a : Applied)
  | acquireConfig (a : Applied)
  | write (a : Applied)
  | releaseConfig (presets : Payload)
  | presets (data : Payload)
  | release (o : Outcome)
  | returned (o : Outcome)

/-- `streaming_stop`. -/
inductive StopPc
  | acquire
  | acquireConfig
  | read
  | write (a : Applied)
  | releaseConfig
  | clear
  | patch
  | release (o : Outcome)
  | returned (o : Outcome)

/-- `startup_apply`. -/
inductive RestorePc
  /-- Tries `_startup_apply_running`. -/
  | spawned
  /-- Reads the flag, outside the runtime lock. -/
  | flag
  | acquire
  | read
  | patch (p : Profile)
  | configure (p : Profile)
  /-- Leaves the attempt: for the next one, or for good. -/
  | release (again : Bool)
  | finish
  | returned

inductive StreamerThread
  | register (config : Payload) (pc : RegisterPc)
  | start (pc : StartPc)
  | stop (pc : StopPc)
  | restore (pc : RestorePc)

inductive StreamerRequest
  | register (config : Payload)
  | start
  | stop
  | restore

def enterStreamer : StreamerRequest → StreamerThread
  | .register config => .register config .read
  | .start => .start .acquire
  | .stop => .stop .acquire
  | .restore => .restore .spawned

/-! ## Steps -/

def registerNext (cfg : StreamerConfig) (i : ℕ) (s : Companion) (config : Payload) :
    RegisterPc → Option (Companion × RegisterPc)
  | .read =>
      some (s, match normalizeProfile cfg.repr config (s.registered.getD []) with
        | .ok p => .acquire p
        | .error text => .returned (.error text))
  | .acquire p =>
      if s.configLock = none then some ({ s with configLock := some i }, .merge p) else none
  | .merge p => some (s, .write (update (s.registered.getD []) p.toDict))
  | .write d => some ({ s with registered := some d }, .release)
  | .release => some ({ s with configLock := none }, .returned .ok)
  | .returned _ => none

def startNext (cfg : StreamerConfig) (i : ℕ) (s : Companion) (k : CameraChoice) :
    StartPc → Option (Companion × StartPc)
  | .acquire =>
      if s.runtimeLock = none then some ({ s with runtimeLock := some i }, .registered) else none
  | .registered =>
      some (s, match s.registered with
        | none => .release (.error "no registered profile")
        | some registered =>
            match normalizeProfile cfg.repr registered registered with
            | .ok p => .applied p
            | .error text => .release (.error text))
  | .applied p => some (s, .patch p s.applied)
  | .patch p a =>
      if sourceTypeOf cfg.repr p.toDict [] = defaultSourceType then
        (patchSource s k (buildRtspUrl cfg.repr p)).map fun r =>
          (r.1, if r.2 then .configure p a else .release mediamtxApiError)
      else some (s, .release mediamtxApiError)
  | .configure p a => some (configurePtz cfg.repr s p, .collect p a)
  | .collect p a => some (s, .acquireConfig (promote s a p))
  | .acquireConfig a =>
      if s.configLock = none then some ({ s with configLock := some i }, .write a) else none
  | .write a => some ({ s with applied := a }, .releaseConfig a.presets)
  | .releaseConfig presets => some ({ s with configLock := none }, .presets presets)
  | .presets data => some ({ s with presets := loadPresets cfg data }, .release .ok)
  | .release o => some ({ s with runtimeLock := none }, .returned o)
  | .returned _ => none

def stopNext (i : ℕ) (s : Companion) (k : CameraChoice) : StopPc → Option (Companion × StopPc)
  | .acquire =>
      if s.runtimeLock = none then some ({ s with runtimeLock := some i }, .acquireConfig) else none
  | .acquireConfig =>
      if s.configLock = none then some ({ s with configLock := some i }, .read) else none
  | .read => some (s, .write s.applied.stopped)
  | .write a => some ({ s with applied := a }, .releaseConfig)
  | .releaseConfig => some ({ s with configLock := none }, .clear)
  | .clear => some ({ s with ptz := none }, .patch)
  | .patch =>
      (patchSource s k detached).map fun r =>
        (r.1, .release (if r.2 then .ok else mediamtxApiError))
  | .release o => some ({ s with runtimeLock := none }, .returned o)
  | .returned _ => none

def restoreNext (cfg : StreamerConfig) (i : ℕ) (s : Companion) (k : CameraChoice) :
    RestorePc → Option (Companion × RestorePc)
  | .spawned =>
      if s.spawned = 0 then none
      else if s.restoring = none then
        some ({ s with spawned := s.spawned - 1, restoring := some i }, .flag)
      else some ({ s with spawned := s.spawned - 1 }, .returned)
  | .flag => some (s, if s.applied.streamingActive then .acquire else .finish)
  | .acquire =>
      if s.runtimeLock = none then some ({ s with runtimeLock := some i }, .read) else none
  | .read =>
      some (s, if s.applied.streamingActive then
          match s.applied.profile with
          | some p => .patch p
          | none => .release false
        else .release false)
  | .patch p =>
      if sourceTypeOf cfg.repr p.toDict [] = defaultSourceType then
        (patchSource s k (buildRtspUrl cfg.repr p)).map fun r =>
          (r.1, if r.2 then .configure p else .release true)
      else some (s, .release true)
  | .configure p => some (configurePtz cfg.repr s p, .release false)
  | .release again =>
      some ({ s with runtimeLock := none }, if again then .acquire else .finish)
  | .finish => some ({ s with restoring := none }, .returned)
  | .returned => none

def streamerNext (cfg : StreamerConfig) (i : ℕ) (s : Companion) :
    StreamerThread → CameraChoice → Option (Companion × StreamerThread)
  | .register config pc, _ =>
      (registerNext cfg i s config pc).map fun r => (r.1, .register config r.2)
  | .start pc, k => (startNext cfg i s k pc).map fun r => (r.1, .start r.2)
  | .stop pc, k => (stopNext i s k pc).map fun r => (r.1, .stop r.2)
  | .restore pc, k => (restoreNext cfg i s k pc).map fun r => (r.1, .restore r.2)

/-- What happens to the child: it exits, the supervisor spawns `startup_apply`, it comes up. -/
inductive ChildEvent
  | crash
  | spawn
  | popen
  deriving DecidableEq

def childNext (s : Companion) : ChildEvent → Option Companion
  | .crash =>
      if s.child = .up then some { s with child := .exited, source := detached } else none
  | .spawn =>
      if s.child = .exited then some { s with child := .starting, spawned := s.spawned + 1 }
      else none
  | .popen => if s.child = .starting then some { s with child := .up } else none

/-- The companion process and the MediaMTX child. -/
def streamer (cfg : StreamerConfig) :
    Prog Companion StreamerThread StreamerRequest CameraChoice ChildEvent where
  enter := enterStreamer
  next := streamerNext cfg
  env := childNext

/-- The start of the process on the files that it finds: the child is about to come up, and one
    `startup_apply` is spawned. -/
def streamerStart (cfg : StreamerConfig) (registered : Option Payload) (applied : Applied)
    (patrol : Payload) : Conf Companion StreamerThread where
  shared :=
    { registered := registered
      applied := applied
      configLock := none
      runtimeLock := none
      restoring := none
      source := detached
      ptz := none
      presets := loadPresets cfg applied.presets
      patrol := patrol
      child := .starting
      spawned := 1 }
  pool := []

/-! ## The runtime lock -/

def StartPc.inside : StartPc → Bool
  | .acquire | .returned _ => false
  | _ => true

def StopPc.inside : StopPc → Bool
  | .acquire | .returned _ => false
  | _ => true

def RestorePc.inside : RestorePc → Bool
  | .read | .patch _ | .configure _ | .release _ => true
  | _ => false

/-- The thread holds the runtime lock. -/
def StreamerThread.inside : StreamerThread → Bool
  | .register _ _ => false
  | .start pc => pc.inside
  | .stop pc => pc.inside
  | .restore pc => pc.inside

/-- The pieces of state that the runtime lock guards are as they were. -/
structure Kept (s s' : Companion) : Prop where
  applied : s'.applied = s.applied
  source : s'.source = s.source
  ptz : s'.ptz = s.ptz
  presets : s'.presets = s.presets

/-- The step that takes the runtime lock. -/
inductive Enters : StreamerThread → StreamerThread → Prop
  | start : Enters (.start .acquire) (.start .registered)
  | stop : Enters (.stop .acquire) (.stop .acquireConfig)
  | restore : Enters (.restore .acquire) (.restore .read)

/-- A step of a thread is a step of its handler. -/
inductive HandlerStep (cfg : StreamerConfig) (i : ℕ) (s : Companion) (k : CameraChoice)
    (s' : Companion) : StreamerThread → StreamerThread → Prop
  | register (config : Payload) (pc pc' : RegisterPc) :
      registerNext cfg i s config pc = some (s', pc') →
        HandlerStep cfg i s k s' (.register config pc) (.register config pc')
  | start (pc pc' : StartPc) :
      startNext cfg i s k pc = some (s', pc') → HandlerStep cfg i s k s' (.start pc) (.start pc')
  | stop (pc pc' : StopPc) :
      stopNext i s k pc = some (s', pc') → HandlerStep cfg i s k s' (.stop pc) (.stop pc')
  | restore (pc pc' : RestorePc) :
      restoreNext cfg i s k pc = some (s', pc') →
        HandlerStep cfg i s k s' (.restore pc) (.restore pc')

section Lock

variable {cfg : StreamerConfig} {i : ℕ} {s s' : Companion} {k : CameraChoice}
variable {t t' : StreamerThread}

theorem next_handler (h : streamerNext cfg i s t k = some (s', t')) :
    HandlerStep cfg i s k s' t t' := by
  cases t with
  | register config pc =>
      obtain ⟨r, hr, heq⟩ := Option.map_eq_some_iff.mp h
      cases heq
      exact .register config pc r.2 hr
  | start pc =>
      obtain ⟨r, hr, heq⟩ := Option.map_eq_some_iff.mp h
      cases heq
      exact .start pc r.2 hr
  | stop pc =>
      obtain ⟨r, hr, heq⟩ := Option.map_eq_some_iff.mp h
      cases heq
      exact .stop pc r.2 hr
  | restore pc =>
      obtain ⟨r, hr, heq⟩ := Option.map_eq_some_iff.mp h
      cases heq
      exact .restore pc r.2 hr

/-- The control API changes the source at most. -/
theorem patchSource_only {source : String} {ok : Bool}
    (h : patchSource s k source = some (s', ok)) : ∃ source', s' = { s with source := source' } := by
  cases k with
  | go => cases h
  | refused =>
      cases h
      exact ⟨s.source, rfl⟩
  | _ =>
      simp only [patchSource] at h
      split at h <;> cases h
      exact ⟨source, rfl⟩

theorem patchSource_runtimeLock {source : String} {ok : Bool}
    (h : patchSource s k source = some (s', ok)) : s'.runtimeLock = s.runtimeLock := by
  obtain ⟨_, rfl⟩ := patchSource_only h
  rfl

/-- A start patches the URL of its profile; a profile is of the supported type. -/
theorem startNext_patch {p : Profile} {a : Applied} {pc' : StartPc}
    (h : startNext cfg i s k (.patch p a) = some (s', pc')) :
    ∃ ok, patchSource s k (buildRtspUrl cfg.repr p) = some (s', ok) ∧
      pc' = if ok then .configure p a else .release mediamtxApiError := by
  simp only [startNext] at h
  rw [if_pos (sourceTypeOf_toDict cfg.repr p)] at h
  obtain ⟨⟨b, ok⟩, hpatch, heq⟩ := Option.map_eq_some_iff.mp h
  cases heq
  exact ⟨ok, hpatch, rfl⟩

theorem restoreNext_patch {p : Profile} {pc' : RestorePc}
    (h : restoreNext cfg i s k (.patch p) = some (s', pc')) :
    ∃ ok, patchSource s k (buildRtspUrl cfg.repr p) = some (s', ok) ∧
      pc' = if ok then .configure p else .release true := by
  simp only [restoreNext] at h
  rw [if_pos (sourceTypeOf_toDict cfg.repr p)] at h
  obtain ⟨⟨b, ok⟩, hpatch, heq⟩ := Option.map_eq_some_iff.mp h
  cases heq
  exact ⟨ok, hpatch, rfl⟩

/-- A step of a thread that does not hold the runtime lock. -/
theorem next_outside (h : streamerNext cfg i s t k = some (s', t')) (hout : t.inside = false) :
    Kept s s' ∧ ((s'.runtimeLock = s.runtimeLock ∧ t'.inside = false) ∨
      (s.runtimeLock = none ∧ s'.runtimeLock = some i ∧ t'.inside = true ∧
        Enters t t')) := by
  cases next_handler h with
  | register config pc pc' hb =>
      cases pc with
      | acquire p =>
          simp only [registerNext] at hb
          split at hb <;> cases hb
          exact ⟨⟨rfl, rfl, rfl, rfl⟩, .inl ⟨rfl, rfl⟩⟩
      | returned o => cases hb
      | _ =>
          cases hb
          exact ⟨⟨rfl, rfl, rfl, rfl⟩, .inl ⟨rfl, rfl⟩⟩
  | start pc pc' hb =>
      cases pc with
      | acquire =>
          simp only [startNext] at hb
          split at hb <;> cases hb
          exact ⟨⟨rfl, rfl, rfl, rfl⟩, .inr ⟨‹_›, rfl, rfl, .start⟩⟩
      | returned o => cases hb
      | _ => cases hout
  | stop pc pc' hb =>
      cases pc with
      | acquire =>
          simp only [stopNext] at hb
          split at hb <;> cases hb
          exact ⟨⟨rfl, rfl, rfl, rfl⟩, .inr ⟨‹_›, rfl, rfl, .stop⟩⟩
      | returned o => cases hb
      | _ => cases hout
  | restore pc pc' hb =>
      cases pc with
      | spawned =>
          simp only [restoreNext] at hb
          split at hb
          · cases hb
          · split at hb <;> cases hb <;> exact ⟨⟨rfl, rfl, rfl, rfl⟩, .inl ⟨rfl, rfl⟩⟩
      | flag =>
          cases hb
          refine ⟨⟨rfl, rfl, rfl, rfl⟩, .inl ⟨rfl, ?_⟩⟩
          split <;> rfl
      | acquire =>
          simp only [restoreNext] at hb
          split at hb <;> cases hb
          exact ⟨⟨rfl, rfl, rfl, rfl⟩, .inr ⟨‹_›, rfl, rfl, .restore⟩⟩
      | finish =>
          cases hb
          exact ⟨⟨rfl, rfl, rfl, rfl⟩, .inl ⟨rfl, rfl⟩⟩
      | returned => cases hb
      | _ => cases hout

/-- A step of a thread that holds it. -/
theorem next_within (h : streamerNext cfg i s t k = some (s', t')) (hin : t.inside = true) :
    (s'.runtimeLock = s.runtimeLock ∧ t'.inside = true) ∨
      (s'.runtimeLock = none ∧ t'.inside = false) := by
  cases next_handler h with
  | register config pc pc' hb => cases hin
  | start pc pc' hb =>
      cases pc with
      | acquire | returned o => cases hin
      | registered =>
          left
          cases hb
          refine ⟨rfl, ?_⟩
          split
          · rfl
          · split <;> rfl
      | patch p a =>
          left
          obtain ⟨ok, hpatch, rfl⟩ := startNext_patch hb
          exact ⟨patchSource_runtimeLock hpatch, by cases ok <;> rfl⟩
      | acquireConfig a =>
          left
          simp only [startNext] at hb
          split at hb <;> cases hb
          exact ⟨rfl, rfl⟩
      | release o =>
          cases hb
          exact .inr ⟨rfl, rfl⟩
      | _ =>
          cases hb
          exact .inl ⟨rfl, rfl⟩
  | stop pc pc' hb =>
      cases pc with
      | acquire | returned o => cases hin
      | acquireConfig =>
          left
          simp only [stopNext] at hb
          split at hb <;> cases hb
          exact ⟨rfl, rfl⟩
      | patch =>
          left
          obtain ⟨⟨b, ok⟩, hpatch, heq⟩ := Option.map_eq_some_iff.mp hb
          cases heq
          exact ⟨patchSource_runtimeLock hpatch, rfl⟩
      | release o =>
          cases hb
          exact .inr ⟨rfl, rfl⟩
      | _ =>
          cases hb
          exact .inl ⟨rfl, rfl⟩
  | restore pc pc' hb =>
      cases pc with
      | read =>
          left
          cases hb
          refine ⟨rfl, ?_⟩
          split
          · split <;> rfl
          · rfl
      | patch p =>
          left
          obtain ⟨ok, hpatch, rfl⟩ := restoreNext_patch hb
          exact ⟨patchSource_runtimeLock hpatch, by cases ok <;> rfl⟩
      | configure p =>
          cases hb
          exact .inl ⟨rfl, rfl⟩
      | release again =>
          cases hb
          refine .inr ⟨rfl, ?_⟩
          cases again <;> rfl
      | _ => cases hin

theorem childNext_runtimeLock {e : ChildEvent} (h : childNext s e = some s') :
    s'.runtimeLock = s.runtimeLock := by
  cases e <;> simp only [childNext] at h <;> split at h <;> cases h <;> rfl

theorem streamer_mutex (cfg : StreamerConfig) :
    Mutex (streamer cfg) Companion.runtimeLock StreamerThread.inside where
  enter r := by cases r <;> rfl
  outside h hout := by
    obtain ⟨-, ⟨hlock, hout'⟩ | ⟨hfree, hlock, hin, -⟩⟩ := next_outside h hout
    · exact .inl ⟨hlock, hout'⟩
    · exact .inr ⟨hfree, hlock, hin⟩
  within h hin := next_within h hin
  env h := childNext_runtimeLock h

end Lock

end Babycat.Streamer
