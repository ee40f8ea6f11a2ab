/-
  Babycat.Streamer.Ptz

  PTZ presets, patrol and position (`ptz.py`, `control_ptz` of `main.py`), next
  to the operations of `camera.py`.

  A `/ptz` handler runs on the event loop from its parsed body to its answer, so
  two of them never overlap; the starts and stops of the streaming are threads
  of their own and may run at any point of it.  One loop polls the position.
  Besides the state of the process the model keeps what the cameras have
  reported so far.
-/

import Babycat.Streamer.Camera

namespace Babycat.Streamer

open Babycat.Conc
open Babycat.Recorder (Json Payload PyFloat)

-- ============================================================================
-- Presets and patrol
-- ============================================================================

/-- Pan and tilt. -/
abbrev Position := PyFloat × PyFloat

/-- `_presets[slot] = position`. -/
def setPreset (m : Presets) (slot : ℤ) (p : Position) : Presets :=
  (slot, p) :: m.filter fun other => other.1 != slot

/-- The presets as they are stored; the slots become texts. -/
def dumpPresets (m : Presets) : Payload :=
  m.map fun x => (toString x.1, .dict [("pan", .float x.2.1), ("tilt", .float x.2.2)])

/-- `int(value)`; `none` is an exception. -/
def pyInt (toInt : String → Option ℤ) : Json → Option ℤ
  | .int n => some n
  | .bool b => some b.toNat
  | .float (.finite q) => some (if 0 ≤ q then q.floor else q.ceil)
  | .str s => toInt s
  | _ => none

/-- What `load_patrol` makes of a stored setting: enabled, and the interval in seconds. -/
def patrolSetting (cfg : StreamerConfig) (data : Payload) : Bool × ℤ :=
  ((data.get "enabled").truthy,
    match pyInt cfg.toInt (data.get "interval_s") with
    | some n => max 5 n
    | none => 30)

/-- `ptz.load_patrol`; without a stored setting this is what `_patrol` starts as. -/
def loadPatrol (cfg : StreamerConfig) (data : Payload) : Payload :=
  let setting := patrolSetting cfg data
  [("enabled", .bool setting.1), ("interval_s", .int setting.2), ("slot", .null)]

/-- The assignments of `set_patrol` to `_patrol`. -/
def setPatrol (patrol : Payload) (enabled : Bool) (interval : Option ℤ) : Payload :=
  update patrol (("enabled", .bool enabled) ::
    (interval.map fun n => ("interval_s", Json.int (max 5 n))).toList)

/-- `_patrol["slot"] = slot`. -/
def setPatrolSlot (patrol : Payload) (slot : Option ℤ) : Payload :=
  update patrol [("slot", slot.elim .null .int)]

-- ============================================================================
-- The process
-- ============================================================================

/-- `poll_once`. -/
inductive PollPc
  | idle
  /-- `GetStatus` is sent to the camera with this ip. -/
  | asked (ip : String)
  | answered (p : Position)
  deriving DecidableEq

structure PtzState where
  camera : Companion
  /-- `_current`, once it is known. -/
  current : Option Position
  poll : PollPc
  /-- The ip in `_ONVIF_URL`. -/
  targetIp : Option String
  /-- The `/ptz` handler that runs on the event loop. -/
  loop : Option ℕ
  /-- The positions that the cameras have reported. -/
  reported : List (String × Position)

inductive PtzOutcome
  | ok
  /-- 409 -/
  | conflict
  /-- The file is not written, 500. -/
  | failed
  deriving DecidableEq

/-- `save_preset`, then `camera.save_presets`. -/
inductive SavePc
  | enter
  | read
  | store (p : Position)
  | acquire (m : Presets)
  | merge (m : Presets)
  | write (m : Presets) (a : Applied)
  | release (o : PtzOutcome)
  | finish (o : PtzOutcome)
  | answered (o : PtzOutcome)

/-- `set_patrol`, then `camera.save_patrol`. -/
inductive PatrolPc
  | enter
  | set
  | home
  | point (slot : Option ℤ)
  | read
  | acquire (p : Payload)
  | merge (p : Payload)
  | write (p : Payload) (a : Applied)
  | release (o : PtzOutcome)
  | finish (o : PtzOutcome)
  | answered (o : PtzOutcome)

def saveNext (slot : ℤ) (i : ℕ) (s : PtzState) (k : CameraChoice) :
    SavePc → Option (PtzState × SavePc)
  | .enter => if s.loop = none then some ({ s with loop := some i }, .read) else none
  | .read =>
      some (s, if slot ∈ [1, 2, 3, 4] then
          match s.current with
          | some p => .store p
          | none => .finish .conflict
        else .finish .conflict)
  | .store p =>
      let m := setPreset s.camera.presets slot p
      some ({ s with camera := { s.camera with presets := m } }, .acquire m)
  | .acquire m =>
      if s.camera.configLock = none then
        some ({ s with camera := { s.camera with configLock := some i } }, .merge m)
      else none
  | .merge m => some (s, .write m { s.camera.applied with presets := dumpPresets m })
  | .write _ a =>
      if k = .refused then some (s, .release .failed)
      else some ({ s with camera := { s.camera with applied := a } }, .release .ok)
  | .release o => some ({ s with camera := { s.camera with configLock := none } }, .finish o)
  | .finish o => some ({ s with loop := none }, .answered o)
  | .answered _ => none

def patrolNext (enabled : Bool) (interval : Option ℤ) (i : ℕ) (s : PtzState) (k : CameraChoice) :
    PatrolPc → Option (PtzState × PatrolPc)
  | .enter => if s.loop = none then some ({ s with loop := some i }, .set) else none
  | .set =>
      let wasEnabled := (s.camera.patrol.get "enabled").truthy
      some ({ s with camera :=
          { s.camera with patrol := setPatrol s.camera.patrol enabled interval } },
        if wasEnabled && !enabled then .home else .read)
  | .home =>
      some (s, .point (if (s.camera.presets.lookup 1).isSome then some 1 else none))
  | .point slot =>
      some ({ s with camera :=
          { s.camera with patrol := setPatrolSlot s.camera.patrol slot } }, .read)
  | .read => some (s, .acquire s.camera.patrol)
  | .acquire p =>
      if s.camera.configLock = none then
        some ({ s with camera := { s.camera with configLock := some i } }, .merge p)
      else none
  | .merge p => some (s, .write p { s.camera.applied with patrol := p })
  | .write _ a =>
      if k = .refused then some (s, .release .failed)
      else some ({ s with camera := { s.camera with applied := a } }, .release .ok)
  | .release o => some ({ s with camera := { s.camera with configLock := none } }, .finish o)
  | .finish o => some ({ s with loop := none }, .answered o)
  | .answered _ => none

/-- The ip of the PTZ target after a step of `camera.py`, if it changes the target: an assignment
    of `configure`, or `clear_config`. -/
def retargets (repr : Json → String) : StreamerThread → Option (Option String)
  | .start (.configure p _) | .restore (.configure p) =>
      some ((ptzTarget repr p).map fun _ => p.ip)
  | .stop .clear => some none
  | _ => none

/-- What `configure` and `clear_config` do besides setting the target: the latter forgets the
    position. -/
def PtzState.retarget (s : PtzState) : Option (Option String) → PtzState
  | none => s
  | some (some ip) => { s with targetIp := some ip }
  | some none => { s with targetIp := none, current := none }

inductive PtzThread
  | camera (t : StreamerThread)
  | save (slot : ℤ) (pc : SavePc)
  | patrol (enabled : Bool) (interval : Option ℤ) (pc : PatrolPc)

inductive PtzRequest
  | camera (r : StreamerRequest)
  | save (slot : ℤ)
  | patrol (enabled : Bool) (interval : Option ℤ)

def ptzNext (cfg : StreamerConfig) (i : ℕ) (s : PtzState) (t : PtzThread) (k : CameraChoice) :
    Option (PtzState × PtzThread) :=
  match t with
  | .camera t => (streamerNext cfg i s.camera t k).map fun r =>
      ({ s with camera := r.1 }.retarget (retargets cfg.repr t), .camera r.2)
  | .save slot pc => (saveNext slot i s k pc).map fun r => (r.1, .save slot r.2)
  | .patrol enabled interval pc =>
      (patrolNext enabled interval i s k pc).map fun r => (r.1, .patrol enabled interval r.2)

inductive PtzEnv
  | child (e : ChildEvent)
  /-- A poll sends its request. -/
  | ask
  | answer (pan tilt : PyFloat)
  | fail
  /-- The poll updates the current position. -/
  | store
  /-- The patrol loop moves on. -/
  | patrolAt (slot : Option ℤ)

def ptzEnv (cfg : StreamerConfig) (s : PtzState) : PtzEnv → Option PtzState
  | .child e => (childNext s.camera e).map fun camera => { s with camera := camera }
  | .ask =>
      match s.poll, s.targetIp with
      | .idle, some ip => some { s with poll := .asked ip }
      | _, _ => none
  | .answer pan tilt =>
      match s.poll with
      | .asked ip =>
          let p := (cfg.round3 pan, cfg.round3 tilt)
          some { s with poll := .answered p, reported := (ip, p) :: s.reported }
      | _ => none
  | .fail =>
      match s.poll with
      | .asked _ => some { s with poll := .idle }
      | _ => none
  | .store =>
      match s.poll with
      | .answered p => some { s with current := some p, poll := .idle }
      | _ => none
  | .patrolAt slot =>
      some { s with camera := { s.camera with patrol := setPatrolSlot s.camera.patrol slot } }

/-- The companion process with its `/ptz` requests and its loops. -/
def ptz (cfg : StreamerConfig) : Prog PtzState PtzThread PtzRequest CameraChoice PtzEnv where
  enter
    | .camera r => .camera (enterStreamer r)
    | .save slot => .save slot .enter
    | .patrol enabled interval => .patrol enabled interval .enter
  next := ptzNext cfg
  env := ptzEnv cfg

/-- The start of the process on the files that it finds. -/
def ptzStart (cfg : StreamerConfig) (registered : Option Payload) (applied : Applied)
    (reported : List (String × Position)) : Conf PtzState PtzThread where
  shared :=
    { camera := (streamerStart cfg registered applied (loadPatrol cfg applied.patrol)).shared
      current := none
      poll := .idle
      targetIp := none
      loop := none
      reported := reported }
  pool := []

end Babycat.Streamer
