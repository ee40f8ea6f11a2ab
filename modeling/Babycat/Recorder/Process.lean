/-
  Babycat.Recorder.Process

  The recorder process: the cooldown gate of `/notify` (`finalize.py`) with
  its anchor in memory and in the state file, the worker of every accepted
  event, the buffer endpoints that share the state file, the deletion
  endpoints, and restarts at any point.

  The thread that handles a notification goes on as the worker of its event.
  `accepted` and `suppressed` are not in the code: they record what the gate
  has decided, in order, and what became of every accepted event.

  Times are rational.  For the floats of the code the comparison of the gate is
  the same: its anchor is 0 or at least the cooldown, so a difference that has
  to be rounded is larger than the cooldown.
-/

import Babycat.Conc.Restart
import Babycat.Recorder.Clips
import Babycat.Recorder.StateFile
import Mathlib.Data.NNRat.Defs

namespace Babycat.Recorder

open Babycat.Conc

/-- Deployment values and the conversions of Python. -/
structure RecorderConfig where
  /-- `TRIGGER_COOLDOWN`. -/
  cooldown : ℚ≥0
  clips : ClipConfig
  /-- `float(value)`; `none` is an exception. -/
  toFloat : Json → Option PyFloat
  /-- `str(value)`. -/
  toStr : Json → String

/-- `time.gmtime` and `time.strftime` take the time: its year is a C `int`. -/
def gmtime (t : ℚ) : Bool := decide (-67768040609740800 ≤ t ∧ t < 67767976233532800)

/-- What became of an accepted event. -/
structure Accepted where
  time : PyFloat
  /-- The event time as its worker has read it. -/
  workerTime : Option PyFloat
  /-- The final name that its clip got. -/
  published : Option String
  /-- The final name that its sidecar got. -/
  sidecar : Option String
  /-- Its clip was counted. -/
  counted : Bool
  /-- The report after the count was made, or raised. -/
  reported : Option Bool
  /-- The history rows inserted for it. -/
  rows : List EventRow
  deriving DecidableEq

/-- The record of an event that was accepted just now. -/
def Accepted.fresh (t : PyFloat) : Accepted := ⟨t, none, none, none, false, none, []⟩

structure Process where
  /-- `_trigger_last_save`. -/
  lastSave : PyFloat
  /-- The thread that holds `_trigger_lock`. -/
  triggerLock : Option ℕ
  files : StateFiles
  store : Store
  accepted : List Accepted
  suppressed : List PyFloat

/-- What a step leaves open. -/
inductive RecorderChoice
  | io (k : Choice)
  /-- `time.time()`. -/
  | clock (now : ℚ)
  /-- The step of a capture path raises. -/
  | fail
  deriving DecidableEq

/-- `payload.get("event_time") or time.time()` as a float; the inner `none` is an exception. -/
def readEventTime (cfg : RecorderConfig) (p : Payload) (k : RecorderChoice) :
    Option (Option PyFloat) :=
  if (p.get "event_time").truthy then some (cfg.toFloat (p.get "event_time"))
  else
    match k with
    | .clock now => some (some (.finite now))
    | _ => none

/-- `[str(k) for k in payload.get("keywords") or []]`; `none` is a `TypeError`. -/
def matchedKeywords (cfg : RecorderConfig) (p : Payload) : Option (List String) :=
  if (p.get "keywords").truthy then (p.get "keywords").iterate.map (List.map cfg.toStr)
  else some []

/-! ## Threads -/

inductive NotifyOutcome
  | suppressed
  | accepted
  | failed
  deriving DecidableEq

/-- `accept_event`; `start n` is past the gate, with the place of the event in the record. -/
inductive NotifyPc
  | eventTime
  | acquire (t : PyFloat)
  | check (t : PyFloat)
  | move (t : PyFloat)
  | update (t : PyFloat) (pc : UpdatePc)
  | release (t : PyFloat) (o : NotifyOutcome)
  | start (n : ℕ)
  | answered (o : NotifyOutcome)
  deriving DecidableEq

/-- `_process_event`. -/
inductive WorkerPc
  | keywords
  | eventTime (keywords : List String)
  | event (e : EventIn) (pc : EventPc)
  /-- The thread has ended with an exception. -/
  | dead
  deriving DecidableEq

inductive RecorderThread
  | notify (p : Payload) (pc : NotifyPc)
  | worker (n : ℕ) (p : Payload) (pc : WorkerPc)
  /-- `buffer_start` and `buffer_stop`: `none` when `update` is over. -/
  | buffer (active : Bool) (pc : Option UpdatePc)
  | deleteClips (deleted : ℕ) (pc : DeletePc)
  | deleteAllClips (deleted : ℕ) (pc : DeletePc)

inductive RecorderRequest
  | notify (p : Payload)
  | buffer (active : Bool)
  | deleteClips (names : List String)
  | deleteAllClips

def enterRecorder : RecorderRequest → RecorderThread
  | .notify p => .notify p .eventTime
  | .buffer active => .buffer active (some .acquire)
  | .deleteClips names => .deleteClips 0 (.next names)
  | .deleteAllClips => .deleteAllClips 0 (.next [])

/-! ## Steps -/

/-- `accept_event`, and the start of the worker. -/
def notifyNext (cfg : RecorderConfig) (i : ℕ) (p : Payload) (s : Process) (k : RecorderChoice) :
    NotifyPc → Option (Process × RecorderThread)
  | .eventTime =>
      (readEventTime cfg p k).map fun
        | some t => (s, .notify p (.acquire t))
        | none => (s, .notify p (.answered .failed))
  | .acquire t =>
      if s.triggerLock = none then some ({ s with triggerLock := some i }, .notify p (.check t))
      else none
  | .check t =>
      if (t.sub s.lastSave).lt cfg.cooldown then
        some ({ s with suppressed := t :: s.suppressed }, .notify p (.release t .suppressed))
      else some (s, .notify p (.move t))
  | .move t => some ({ s with lastSave := t }, .notify p (.update t .acquire))
  | .update t pc =>
      (updateNext (.lastEventAcceptedAt t) i s.files (k = .io .raise) pc).map fun r =>
        ({ s with files := r.1 }, .notify p (match r.2 with
          | .running pc' => .update t pc'
          | .returned => .release t .accepted
          | .raised => .release t .failed))
  | .release t o =>
      some (match o with
        | .accepted =>
            ({ s with
                triggerLock := none
                accepted := s.accepted ++ [.fresh t] },
              .notify p (.start s.accepted.length))
        | _ => ({ s with triggerLock := none }, .notify p (.answered o)))
  | .start n =>
      some (s, if k = .io .raise then .notify p (.answered .failed) else .worker n p .keywords)
  | .answered _ => none

/-- What the step of a worker at `pc` adds to the record of its event. -/
def Accepted.note (a : Accepted) (s : Store) (name : String) (raises : Bool) : EventPc → Accepted
  | .capture _ (.publish _ _) =>
      if s.parts.contains name then { a with published := some name } else a
  | .capture _ (.replaceSidecar _ _) => if raises then a else { a with sidecar := some name }
  | .capture _ (.count size) => { a with counted := decide (minClipSize ≤ size) }
  | .capture _ .report => { a with reported := some !raises }
  | _ => a

/-- The worker of event `n`. -/
def workerNext (cfg : RecorderConfig) (n : ℕ) (p : Payload) (s : Process) (k : RecorderChoice) :
    WorkerPc → Option (Process × WorkerPc)
  | .keywords =>
      some (s, match matchedKeywords cfg p with
        | some keywords => .eventTime keywords
        | none => .dead)
  | .eventTime keywords =>
      (readEventTime cfg p k).map fun x =>
        ({ s with accepted := s.accepted.modify n fun a => { a with workerTime := x } },
          match x with
          | some (.finite t) => .event ⟨keywords, t⟩ (.capture .rollover .base)
          -- neither `localtime` nor `gmtime` takes a time that is not finite
          | _ => .dead)
  | .event e (.capture mode pc) =>
      match k with
      | .fail =>
          some ({ s with
              accepted := s.accepted.modify n fun a =>
                if pc = .report then { a with reported := some false } else a },
            .event e (.insert none))
      | .io k =>
          (eventNext cfg.clips e s.store k (.capture mode pc)).map fun r =>
            ({ s with
                store := r.1
                accepted := s.accepted.modify n fun a =>
                  a.note s.store (cfg.clips.clipBase e.eventTime) (k = .raise)
                    (.capture mode pc) },
              .event e r.2)
      | .clock _ => none
  | .event e (.insert clipName) =>
      if gmtime e.eventTime ∧ k ≠ .io .raise then
        let row : EventRow := ⟨String.intercalate "," e.keywords, clipName, e.eventTime⟩
        some ({ s with
            store := { s.store with events := s.store.events ++ [row] }
            accepted := s.accepted.modify n fun a => { a with rows := a.rows ++ [row] } },
          .event e .done)
      else some (s, .dead)
  | .event _ .done | .dead => none

def recorderNext (cfg : RecorderConfig) (i : ℕ) (s : Process) :
    RecorderThread → RecorderChoice → Option (Process × RecorderThread)
  | .notify p pc, k => notifyNext cfg i p s k pc
  | .worker n p pc, k => (workerNext cfg n p s k pc).map fun r => (r.1, .worker n p r.2)
  | .buffer active (some pc), k =>
      (updateNext (.bufferActive active) i s.files (k = .io .raise) pc).map fun r =>
        ({ s with files := r.1 }, .buffer active (match r.2 with
          | .running pc' => some pc'
          | _ => none))
  | .buffer _ none, _ => none
  | .deleteClips n pc, .io k =>
      (deleteClips s.store k n pc).map fun r =>
        ({ s with store := r.1 }, .deleteClips r.2.1 r.2.2)
  | .deleteAllClips n pc, .io k =>
      (deleteAllClips s.store k n pc).map fun r =>
        ({ s with store := r.1 }, .deleteAllClips r.2.1 r.2.2)
  | .deleteClips _ _, _ | .deleteAllClips _ _, _ => none

/-- The process between two restarts. -/
def recorder (cfg : RecorderConfig) :
    Prog Process RecorderThread RecorderRequest RecorderChoice Empty where
  enter := enterRecorder
  next := recorderNext cfg
  env _ x := nomatch x

/-! ## Restarts -/

/-- The sweep of the partial files and the recount of `lifespan`. -/
def Store.boot (s : Store) : Store :=
  { s with parts := [], temps := [], count := s.clips.recount }

/-- The next start: memory and locks are gone, the anchor comes from the state file. -/
def Process.boot (s : Process) : Process :=
  { s with
    lastSave := s.files.anchor
    triggerLock := none
    files := s.files.boot
    store := s.store.boot }

abbrev RecorderLife := Life RecorderRequest RecorderChoice Empty

/-- One step of the recorder over its restarts. -/
def recorderStep (cfg : RecorderConfig) :
    Conf Process RecorderThread → RecorderLife → Option (Conf Process RecorderThread) :=
  (recorder cfg).life Process.boot

/-- The first start, on a state file and a clip tree as they may be. -/
def recorderStart (files : StateFiles) (store : Store) : Conf Process RecorderThread where
  shared := Process.boot ⟨.nan, none, files, store, [], []⟩
  pool := []

end Babycat.Recorder
