/-
  Babycat.Analyzer.Runtime

  The analyzer process as threads over one shared state: the boot sequence,
  the inference worker and the watchdog (`main.py`), the request handlers
  (`server.py`) and the frame callbacks of the GStreamer pipelines.

  One step of a thread is one lock acquisition of `AppState`, of the ring or of
  the settings file, or one access to a module global.  A section under
  `_pipeline_lock` that touches nothing else is one step; the longer sections
  hold the lock across their steps.  The choice of a step is what the program
  does not decide: the answer of the VLM, a failing file write, a pipeline that
  cannot be built.  The clock may advance anywhere, and a notification thread
  delivers at any time after it was started.

  `History` is bookkeeping the code does not have: how many stops have dropped
  the active flag, and with which count the frames of an inference were sampled
  and its effects surfaced.
-/

import Babycat.Analyzer.State
import Babycat.Conc.Pool
import Mathlib.Data.Rat.Floor

namespace Babycat.Analyzer

open Babycat.Conc
open Babycat.Text (PyStr pyStr codePoint strip nonBlank)

/-- Deployment values, and what Python takes from its locale and Unicode tables. -/
structure Config where
  nFrames : ℕ
  ringSize : ℕ
  minInferInterval : ℚ
  maxConsecutiveInferFailures : ℕ
  /-- `str.lower`. -/
  lower : PyStr → PyStr
  /-- The local minute of the day at a time, from `time.localtime`. -/
  localMinutes : ℚ → ℤ

def watchdogGrace : ℚ := 15

def watchdogTimeout : ℚ := 15

def watchdogTimeoutMax : ℚ := 60

/-! ## Shared state -/

/-- A frame in the ring; `source` is the pipeline whose callback pushed it. -/
structure Sample where
  capturedAt : ℚ
  frame : ℕ
  source : ℕ
  deriving DecidableEq

/-- The payloads of `notify_event` and `notify_inference`. -/
inductive Notification
  | event (keywords : List PyStr) (vlmText : PyStr) (eventTime lastFrameTime : ℚ)
      (inferenceStartedAt : ℚ) (inferenceElapsedMs : ℤ)
  | inference (judgedAt : ℚ) (vlmText : PyStr) (labels : List PyStr) (preset : PyStr)
      (model : String) (inferenceElapsedMs : ℤ)
  deriving DecidableEq

/-- A notification thread that was started and has not delivered. -/
structure Outgoing where
  note : Notification
  sampledAt : ℕ
  deriving DecidableEq

inductive Effect
  | update
  | event
  | inference
  deriving DecidableEq

/-- An effect of an inference: how many stops there had been when its frames were sampled,
    and how many when the effect took place. -/
structure Surfaced where
  effect : Effect
  sampledAt : ℕ
  surfacedAt : ℕ
  deriving DecidableEq

structure History where
  stops : ℕ
  surfaced : List Surfaced
  /-- With how many stops the frames of the judgment on display were sampled. -/
  shown : ℕ

structure Shared where
  app : AppState
  /-- The content of the settings file, as `settings.load` returns it. -/
  file : Saved
  now : ℚ
  holderName : String
  threadsStarted : Bool
  /-- `PipelineLifecycle._refs` is set. -/
  refs : Bool
  pipeline : Option ℕ
  pipelineLock : Option ℕ
  startLock : Option ℕ
  pipelineStartedAt : ℚ
  lastFrameTime : ℚ
  /-- How many pipelines have been built; each is known by its number. -/
  built : ℕ
  /-- The pipelines that deliver frames: playing and not yet back from `set_state(NULL)`. -/
  live : ℕ → Bool
  inCallback : ℕ → Bool
  ring : List Sample
  inferQueue : Bool
  outbox : List Outgoing
  hist : History

/-- What a step leaves open. -/
inductive Choice
  | go
  | infer (raw : PyStr)
  | inferError (cause : String)
  | ioError
  | buildError (cause : String)
  deriving DecidableEq

inductive Response
  | ok
  | started (started : Bool)
  | stored (labels : Labels) (presets : List Preset)
  | error (status : ℕ) (detail : String)
  /-- The handler died of an exception, and the connection is closed. -/
  | dropped
  deriving DecidableEq

/-- The first 160 characters of the cause of a failed start. -/
def startFailed (cause : String) : String :=
  "start_failed: " ++ String.ofList (cause.toList.take 160)

/-! ## `persist_settings` -/

inductive PersistPc
  | prompt
  | triggers (prompt : PyStr)
  | labels (prompt : PyStr) (keywords : List PyStr)
  | presets (prompt : PyStr) (keywords : List PyStr) (labels : Labels)
  | active (prompt : PyStr) (keywords : List PyStr) (labels : Labels) (presets : List Preset)
  | write (saved : Saved)
  deriving DecidableEq

/-- Where a call of `persist_settings` stands after a step. -/
inductive PersistOutcome
  | running (pc : PersistPc)
  | returned
  | raised
  deriving DecidableEq

/-- Five getter reads, then `settings.save`. -/
def persistNext (s : Shared) (k : Choice) : PersistPc → Shared × PersistOutcome
  | .prompt => (s, .running (.triggers s.app.inferencePrompt))
  | .triggers p => (s, .running (.labels p s.app.triggerKeywords))
  | .labels p ks => (s, .running (.presets p ks s.app.labelGroups))
  | .presets p ks ls => (s, .running (.active p ks ls s.app.presets))
  | .active p ks ls ps => (s, .running (.write ⟨p, ks, ls, ps, s.app.analysisActive⟩))
  | .write saved =>
      -- an `OSError` is logged, and the file stays as it was
      if k = .ioError then (s, .returned)
      else if saved.encodable then ({ s with file := saved }, .returned)
      -- a `UnicodeEncodeError` is no `OSError`: it ends the request
      else (s, .raised)

/-! ## `start_pipeline` -/

inductive StartPc
  | lockStart
  | detach
  | teardown (old : ℕ)
  | check (restart : Bool)
  | clear (restart : Bool)
  | drain (restart : Bool)
  | build (restart : Bool)
  | play (restart : Bool) (p : ℕ)
  | stamp (restart : Bool)
  | mark (restart : Bool) (startedAt : ℚ)
  | unlock (failure : Option String)
  deriving DecidableEq

/-- Where a call of `start_pipeline` stands after a step. -/
inductive Outcome
  | running (pc : StartPc)
  | returned (failure : Option String)
  deriving DecidableEq

/-- `with _pipeline_lock:`, entered when the lock is free. -/
def Shared.lockPipeline (s : Shared) (i : ℕ) : Option Shared :=
  if s.pipelineLock = none then some { s with pipelineLock := some i } else none

def Shared.unlockPipeline (s : Shared) : Shared := { s with pipelineLock := none }

/-- `set_state(NULL)` returns once no callback of the pipeline is running. -/
def Shared.teardown (s : Shared) (p : ℕ) : Option Shared :=
  if s.inCallback p then none else some { s with live := Function.update s.live p false }

def startNext (i : ℕ) (s : Shared) (k : Choice) (reason : String) :
    StartPc → Option (Shared × Outcome)
  | .lockStart =>
      if s.startLock = none then some ({ s with startLock := some i }, .running .detach) else none
  -- the reference is taken away under the lock, the object torn down outside of it
  | .detach =>
      if s.pipelineLock = none then
        some ({ s with pipeline := none }, .running
          (match s.pipeline with
           | some old => .teardown old
           | none => .check false))
      else none
  | .teardown old => (s.teardown old).map fun s' => (s', .running (.check true))
  -- stop wins: without the flag nothing is built, and only a new start sets it
  | .check restart =>
      (s.lockPipeline i).map fun s' =>
        if s.app.analysisActive then (s', .running (.clear restart))
        else (s, .running (.unlock none))
  -- frames of an older pipeline must never feed a judgment
  | .clear restart => some ({ s with ring := [] }, .running (.drain restart))
  | .drain restart => some ({ s with inferQueue := false }, .running (.build restart))
  | .build restart =>
      match k with
      -- the exception leaves both `with` blocks
      | .buildError cause => some (s.unlockPipeline, .running (.unlock (some cause)))
      | _ => some ({ s with pipeline := some s.built, built := s.built + 1 },
          .running (.play restart s.built))
  | .play restart p =>
      some ({ s with live := Function.update s.live p true }, .running (.stamp restart))
  | .stamp restart =>
      some ({ s with pipelineStartedAt := s.now, lastFrameTime := s.now },
        .running (.mark restart s.now))
  | .mark restart startedAt =>
      some ({ s.unlockPipeline with
        app := s.app.markPipelineStarting reason restart startedAt }, .running (.unlock none))
  | .unlock failure => some ({ s with startLock := none }, .returned failure)

/-! ## The inference worker -/

/-- The samples of one inference. -/
structure Frames where
  frames : List ℕ
  lastFrameTime : ℚ
  sampledAt : ℕ
  deriving DecidableEq

/-- The settings one inference uses. -/
structure Snapshot where
  frames : Frames
  prompt : PyStr
  triggers : List PyStr
  labelGroups : Labels
  presetId : PyStr
  deriving DecidableEq

structure Inference where
  snapshot : Snapshot
  startedAt : ℚ
  deriving DecidableEq

/-- What the worker made of the answer of the VLM. -/
structure Judgment where
  inference : Inference
  raw : PyStr
  elapsedMs : ℤ
  matched : List PyStr
  matchedLabels : List PyStr
  eventTime : ℚ
  deriving DecidableEq

inductive WorkerPc
  | notStarted
  | get
  | checkActive
  | interval
  | sample
  | prompt (f : Frames)
  | triggers (f : Frames) (prompt : PyStr)
  | labels (f : Frames) (prompt : PyStr) (triggers : List PyStr)
  | presets (f : Frames) (prompt : PyStr) (triggers : List PyStr) (labels : Labels)
  | setPreset (snap : Snapshot)
  | begin (snap : Snapshot)
  | infer (inf : Inference)
  | check (inf : Inference) (raw : PyStr) (elapsedMs : ℤ)
  | judge (inf : Inference) (raw : PyStr) (elapsedMs : ℤ)
  | update (j : Judgment)
  | spawnEvent (j : Judgment)
  | spawnInference (j : Judgment)
  | exited
  deriving DecidableEq

/-- The last `n` samples. -/
def lastSamples (ring : List Sample) (n : ℕ) : List Sample := ring.drop (ring.length - n)

/-- `RingBuffer.latest_samples`; the slice `[-0:]` is the whole list. -/
def latestSamples (ring : List Sample) (n : ℕ) : List Sample :=
  if n = 0 then ring else lastSamples ring n

/-- `round`, halves to the even neighbour. -/
def roundHalfEven (x : ℚ) : ℤ :=
  if x - ⌊x⌋ < 1 / 2 then ⌊x⌋
  else if 1 / 2 < x - ⌊x⌋ then ⌊x⌋ + 1
  else if ⌊x⌋ % 2 = 0 then ⌊x⌋ else ⌊x⌋ + 1

/-- The settings of an inference once its preset is resolved. -/
def resolved (cfg : Config) (now : ℚ) (f : Frames) (prompt : PyStr) (triggers : List PyStr)
    (labels : Labels) (presets : List Preset) : Snapshot :=
  match resolvePreset presets (cfg.localMinutes now) with
  | some p => ⟨f, p.prompt.getD prompt, triggers, p.labels.getD labels, p.id⟩
  | none => ⟨f, prompt, triggers, labels, pyStr "default"⟩

def judgment (cfg : Config) (now : ℚ) (inf : Inference) (raw : PyStr) (elapsedMs : ℤ) :
    Judgment where
  inference := inf
  raw := raw
  elapsedMs := elapsedMs
  matched := inf.snapshot.triggers.filter fun kw => isSubstring kw (cfg.lower raw)
  matchedLabels := (inf.snapshot.labelGroups.filter fun group =>
    group.2.any fun syn => isSubstring syn (cfg.lower raw)).map Prod.fst
  eventTime := now

def Judgment.sampledAt (j : Judgment) : ℕ := j.inference.snapshot.frames.sampledAt

def Judgment.eventTriggered (j : Judgment) : Bool := !j.matched.isEmpty

def Judgment.eventNote (j : Judgment) : Notification :=
  .event j.matched j.raw j.eventTime j.inference.snapshot.frames.lastFrameTime
    j.inference.startedAt j.elapsedMs

def Judgment.inferenceNote (j : Judgment) (now : ℚ) (model : String) : Notification :=
  .inference now j.raw j.matchedLabels j.inference.snapshot.presetId model j.elapsedMs

/-- Records an effect of an inference. -/
def Shared.surface (s : Shared) (effect : Effect) (sampledAt : ℕ) : Shared :=
  { s with hist := { s.hist with
      surfaced := ⟨effect, sampledAt, s.hist.stops⟩ :: s.hist.surfaced } }

/-- `app_state.update_inference`. -/
def Shared.updateInference (s : Shared) (j : Judgment) : Shared :=
  let s' := s.surface .update j.sampledAt
  { s' with
    app := s.app.updateInference j.raw j.elapsedMs j.eventTriggered
    hist := { s'.hist with shown := j.sampledAt } }

/-- `threading.Thread(...).start()`. -/
def Shared.spawn (s : Shared) (note : Notification) (sampledAt : ℕ) : Shared :=
  { s with outbox := s.outbox ++ [⟨note, sampledAt⟩] }

/-- One step of the worker, with its locals `last_infer_at` and `failures`. -/
def workerNext (cfg : Config) (s : Shared) (k : Choice) (last : ℚ) (failures : ℕ) :
    WorkerPc → Option (Shared × ℚ × ℕ × WorkerPc)
  | .notStarted => if s.threadsStarted then some (s, last, failures, .get) else none
  -- a timeout of the queue only goes round the loop
  | .get =>
      if s.inferQueue then some ({ s with inferQueue := false }, last, failures, .checkActive)
      else some (s, last, failures, .get)
  -- a signal that survived a stop starts no inference
  | .checkActive => some (s, last, failures, if s.app.analysisActive then .interval else .get)
  | .interval =>
      some (s, last, failures,
        if 0 < cfg.minInferInterval ∧ s.now - last < cfg.minInferInterval then .get else .sample)
  | .sample =>
      let samples := latestSamples s.ring cfg.nFrames
      some (s, last, failures,
        match samples.getLast? with
        | none => .get
        | some newest =>
            .prompt ⟨samples.map Sample.frame, newest.capturedAt, s.hist.stops⟩)
  | .prompt f => some (s, last, failures, .triggers f s.app.inferencePrompt)
  | .triggers f p => some (s, last, failures, .labels f p s.app.triggerKeywords)
  | .labels f p ts => some (s, last, failures, .presets f p ts s.app.labelGroups)
  | .presets f p ts ls =>
      some (s, last, failures, .setPreset (resolved cfg s.now f p ts ls s.app.presets))
  | .setPreset snap =>
      some ({ s with app := s.app.setActivePreset snap.presetId }, last, failures, .begin snap)
  | .begin snap => some (s, s.now, failures, .infer ⟨snap, s.now⟩)
  | .infer inf =>
      match k with
      | .infer raw =>
          some (s, last, 0, .check inf raw (roundHalfEven ((s.now - inf.startedAt) * 1000)))
      -- after so many failures in a row the process gives itself up
      | .inferError _ =>
          some (s, last, failures + 1,
            if cfg.maxConsecutiveInferFailures ≤ failures + 1 then .exited else .get)
      | _ => none
  -- the only look at the flag between the answer of the VLM and its effects
  | .check inf raw ms =>
      some (s, last, failures, if s.app.analysisActive then .judge inf raw ms else .get)
  | .judge inf raw ms => some (s, last, failures, .update (judgment cfg s.now inf raw ms))
  | .update j =>
      some (s.updateInference j, last, failures,
        if j.eventTriggered then .spawnEvent j else .spawnInference j)
  | .spawnEvent j => some (s.spawn j.eventNote j.sampledAt, last, failures, .spawnInference j)
  | .spawnInference j =>
      some (s.spawn (j.inferenceNote s.now s.holderName) j.sampledAt, last, failures, .get)
  | .exited => none

/-! ## The request handlers -/

structure PromptIn where
  prompt : PyStr
  triggers : PyStr
  deriving DecidableEq

/-- A `/presets` body: for each key, absent, or what its validator makes of the value. -/
structure PresetsIn where
  labels : Option (Option Labels)
  presets : Option (Option (List Preset))
  deriving DecidableEq

inductive PromptPc
  | validate
  | setPrompt (prompt : PyStr) (keywords : List PyStr)
  | setTriggers (keywords : List PyStr)
  | persist (pc : PersistPc)
  | finished (r : Response)
  deriving DecidableEq

def keywordsOf (cfg : Config) (triggers : PyStr) : List PyStr :=
  (((strip triggers).splitOn (codePoint ',')).filter nonBlank).map fun k => cfg.lower (strip k)

def promptNext (cfg : Config) (s : Shared) (k : Choice) (b : PromptIn) :
    PromptPc → Option (Shared × PromptPc)
  | .validate =>
      some (s, if strip b.prompt = [] then .finished (.error 400 "prompt required")
        else .setPrompt (strip b.prompt) (keywordsOf cfg b.triggers))
  | .setPrompt p ks => some ({ s with app := s.app.setPrompt p }, .setTriggers ks)
  | .setTriggers ks => some ({ s with app := s.app.setTriggers ks }, .persist .prompt)
  | .persist pc =>
      let r := persistNext s k pc
      some (r.1, match r.2 with
        | .running pc' => .persist pc'
        | .returned => .finished .ok
        | .raised => .finished .dropped)
  | .finished _ => none

inductive PresetsPc
  | validate
  | setLabels (labels : Option Labels) (presets : Option (List Preset))
  | setPresets (presets : Option (List Preset))
  | persist (pc : PersistPc)
  | readLabels
  | readPresets (labels : Labels)
  | finished (r : Response)
  deriving DecidableEq

/-- Everything is validated before anything is applied. -/
def validatePresetsBody (b : PresetsIn) : PresetsPc :=
  match b.labels, b.presets with
  | none, none => .finished (.error 400 "labels or presets required")
  | some none, _ => .finished (.error 400 "malformed labels")
  | some (some ls), some (some ps) => .setLabels (some ls) (some ps)
  | some (some ls), none => .setLabels (some ls) none
  | none, some (some ps) => .setLabels none (some ps)
  | _, some none => .finished (.error 400 "malformed presets")

def presetsNext (s : Shared) (k : Choice) (b : PresetsIn) :
    PresetsPc → Option (Shared × PresetsPc)
  | .validate => some (s, validatePresetsBody b)
  | .setLabels labels presets =>
      some (match labels with
        | some ls => { s with app := s.app.setLabelGroups ls }
        | none => s, .setPresets presets)
  | .setPresets presets =>
      some (match presets with
        | some ps => { s with app := s.app.setPresets ps }
        | none => s, .persist .prompt)
  | .persist pc =>
      let r := persistNext s k pc
      some (r.1, match r.2 with
        | .running pc' => .persist pc'
        | .returned => .readLabels
        | .raised => .finished .dropped)
  | .readLabels => some (s, .readPresets s.app.labelGroups)
  | .readPresets ls => some (s, .finished (.stored ls s.app.presets))
  | .finished _ => none

/-- `set_analysis_active`; dropping the active flag counts as a stop. -/
def Shared.setActive (s : Shared) (active : Bool) : Shared :=
  { s with
    app := s.app.setAnalysisActive active
    hist :=
      if !active && s.app.analysisActive then { s.hist with stops := s.hist.stops + 1 }
      else s.hist }

inductive StartHandlerPc
  | setActive
  | persist (pc : PersistPc)
  | callback
  | pipeline (pc : StartPc)
  | failed (cause : String)
  | finished (r : Response)
  deriving DecidableEq

def startHandlerNext (i : ℕ) (s : Shared) (k : Choice) :
    StartHandlerPc → Option (Shared × StartHandlerPc)
  | .setActive => some (s.setActive true, .persist .prompt)
  | .persist pc =>
      let r := persistNext s k pc
      some (r.1, match r.2 with
        | .running pc' => .persist pc'
        | .returned => .callback
        | .raised => .finished .dropped)
  -- before `set_refs` the active flag is all that remains of the start
  | .callback => some (s, if s.refs then .pipeline .lockStart else .finished (.started false))
  | .pipeline pc =>
      (startNext i s k "analysis_start" pc).map fun r => (r.1, match r.2 with
        | .running pc' => .pipeline pc'
        | .returned none => .finished (.started true)
        | .returned (some cause) => .failed cause)
  | .failed cause =>
      some ({ s with app := s.app.markPipelineIdle (startFailed cause) },
        .finished (.error 500 ("pipeline start failed: " ++ cause)))
  | .finished _ => none

inductive StopHandlerPc
  | setActive
  | persist (pc : PersistPc)
  | check
  | detach
  | teardown (old : Option ℕ)
  | mark
  | finished
  deriving DecidableEq

def stopHandlerNext (i : ℕ) (s : Shared) (k : Choice) :
    StopHandlerPc → Option (Shared × StopHandlerPc)
  | .setActive => some (s.setActive false, .persist .prompt)
  | .persist pc =>
      let r := persistNext s k pc
      some (r.1, match r.2 with
        | .running pc' => .persist pc'
        | .returned => .check
        | .raised => .finished)
  | .check =>
      (s.lockPipeline i).map fun s' =>
        -- the flag of a newer start: the pipeline is no longer this stop's
        if s.app.analysisActive then (s, .finished) else (s', .detach)
  | .detach => some ({ s.unlockPipeline with pipeline := none }, .teardown s.pipeline)
  | .teardown old =>
      match old with
      | some p => (s.teardown p).map fun s' => (s', .mark)
      | none => some (s, .mark)
  | .mark => some ({ s with app := s.app.markPipelineIdle "waiting_for_start" }, .finished)
  | .finished => none

/-! ## Watchdog, boot and frame callbacks -/

inductive WatchdogPc
  | notStarted
  | sleep
  | stalled
  | request
  | pipeline (pc : StartPc)
  | failed (cause : String)
  deriving DecidableEq

/-- One look at the pipeline: the new retry interval, and whether to restart. -/
def watchdogLook (s : Shared) (timeout : ℚ) : ℚ × Bool :=
  if s.pipeline = none then (timeout, false)
  else
    -- frames have arrived: back to the base cadence
    let timeout' := if s.pipelineStartedAt < s.lastFrameTime then watchdogTimeout else timeout
    if s.now - s.pipelineStartedAt < watchdogGrace then (timeout', false)
    else if timeout' < s.now - s.lastFrameTime then
      (if s.lastFrameTime ≤ s.pipelineStartedAt then min (timeout' * 2) watchdogTimeoutMax
        else timeout', true)
    else (timeout', false)

def watchdogNext (i : ℕ) (s : Shared) (k : Choice) (timeout : ℚ) :
    WatchdogPc → Option (Shared × ℚ × WatchdogPc)
  | .notStarted => if s.threadsStarted then some (s, timeout, .sleep) else none
  | .sleep =>
      if s.pipelineLock = none then
        some (s, (watchdogLook s timeout).1,
          if (watchdogLook s timeout).2 then .stalled else .sleep)
      else none
  | .stalled =>
      some ({ s with app := s.app.markPipelineStalled "watchdog_timeout" }, timeout, .request)
  | .request => some (s, timeout, if s.refs then .pipeline .lockStart else .sleep)
  | .pipeline pc =>
      (startNext i s k "watchdog_timeout" pc).map fun r => (r.1, timeout, match r.2 with
        | .running pc' => .pipeline pc'
        | .returned none => .sleep
        | .returned (some cause) => .failed cause)
  | .failed cause =>
      some ({ s with app := s.app.markPipelineIdle (startFailed cause) }, timeout, .sleep)

inductive BootPc
  | setRefs
  | startThreads
  | checkActive
  | defer
  | pipeline (pc : StartPc)
  | failed (cause : String)
  | done
  deriving DecidableEq

/-- The end of `main`, once the VLM is loaded: `set_refs`, the threads, then
    `ensure_startup_started`. -/
def bootNext (i : ℕ) (s : Shared) (k : Choice) : BootPc → Option (Shared × BootPc)
  | .setRefs => some ({ s with refs := true }, .startThreads)
  | .startThreads => some ({ s with threadsStarted := true }, .checkActive)
  | .checkActive => some (s, if s.app.analysisActive then .pipeline .lockStart else .defer)
  | .defer => some ({ s with app := s.app.markPipelineIdle "waiting_for_start" }, .done)
  | .pipeline pc =>
      (startNext i s k "startup" pc).map fun r => (r.1, match r.2 with
        | .running pc' => .pipeline pc'
        | .returned none => .done
        | .returned (some cause) => .failed cause)
  | .failed cause =>
      some ({ s with app := s.app.markPipelineIdle (startFailed cause) }, .done)
  | .done => none

inductive FramePc
  | begin
  | push (capturedAt : ℚ)
  | update
  | signal
  | done
  deriving DecidableEq

/-- `on_new_sample` of pipeline `p` with the image `img`. -/
def frameNext (cfg : Config) (s : Shared) (p img : ℕ) : FramePc → Option (Shared × FramePc)
  | .begin =>
      if s.live p && !s.inCallback p then
        some ({ s with
          lastFrameTime := s.now
          inCallback := Function.update s.inCallback p true }, .push s.now)
      else none
  | .push t =>
      some ({ s with ring := lastSamples (s.ring ++ [⟨t, img, p⟩]) cfg.ringSize }, .update)
  | .update => some ({ s with app := s.app.updateFrame s.now }, .signal)
  | .signal =>
      some ({ s with
        inferQueue := true
        inCallback := Function.update s.inCallback p false }, .done)
  | .done => none

/-! ## The process -/

inductive Thread
  | boot (pc : BootPc)
  | worker (last : ℚ) (failures : ℕ) (pc : WorkerPc)
  | watchdog (timeout : ℚ) (pc : WatchdogPc)
  | prompt (b : PromptIn) (pc : PromptPc)
  | presets (b : PresetsIn) (pc : PresetsPc)
  | start (pc : StartHandlerPc)
  | stop (pc : StopHandlerPc)
  | frame (p img : ℕ) (pc : FramePc)
  deriving DecidableEq

inductive Request
  | prompt (b : PromptIn)
  | presets (b : PresetsIn)
  | start
  | stop
  | frame (p img : ℕ)
  deriving DecidableEq

def enter : Request → Thread
  | .prompt b => .prompt b .validate
  | .presets b => .presets b .validate
  | .start => .start .setActive
  | .stop => .stop .setActive
  | .frame p img => .frame p img .begin

def next (cfg : Config) (i : ℕ) (s : Shared) : Thread → Choice → Option (Shared × Thread)
  | .boot pc, k => (bootNext i s k pc).map fun r => (r.1, .boot r.2)
  | .worker last failures pc, k =>
      (workerNext cfg s k last failures pc).map fun r => (r.1, .worker r.2.1 r.2.2.1 r.2.2.2)
  | .watchdog timeout pc, k =>
      (watchdogNext i s k timeout pc).map fun r => (r.1, .watchdog r.2.1 r.2.2)
  | .prompt b pc, k => (promptNext cfg s k b pc).map fun r => (r.1, .prompt b r.2)
  | .presets b pc, k => (presetsNext s k b pc).map fun r => (r.1, .presets b r.2)
  | .start pc, k => (startHandlerNext i s k pc).map fun r => (r.1, .start r.2)
  | .stop pc, k => (stopHandlerNext i s k pc).map fun r => (r.1, .stop r.2)
  | .frame p img pc, _ => (frameNext cfg s p img pc).map fun r => (r.1, .frame p img r.2)

/-- What happens without a thread of the pool: time passes, and a notification thread
    reaches the recorder or fails to. -/
inductive Env
  | tick (d : ℚ)
  | deliver (n : ℕ)
  | lose (n : ℕ)
  deriving DecidableEq

def effectOf : Notification → Effect
  | .event .. => .event
  | .inference .. => .inference

def env (s : Shared) : Env → Option Shared
  | .tick d => if 0 ≤ d then some { s with now := s.now + d } else none
  | .deliver n =>
      match s.outbox[n]? with
      | none => none
      | some o =>
          some ({ s with outbox := s.outbox.eraseIdx n }.surface (effectOf o.note) o.sampledAt)
  | .lose n =>
      if n < s.outbox.length then some { s with outbox := s.outbox.eraseIdx n } else none

/-- The analyzer process. -/
def analyzer (cfg : Config) : Prog Shared Thread Request Choice Env where
  enter := enter
  next := next cfg
  env := env

/-- The state of `AppState` when the HTTP server starts, from the settings `load` returned. -/
def restored (saved : Saved) : AppState where
  inferRaw := []
  inferMs := 0
  eventTriggered := false
  inferencePrompt := saved.prompt
  triggerKeywords := saved.keywords
  labelGroups := saved.labels
  presets := saved.presets
  activePreset := []
  analysisActive := saved.analysisActive
  pipelineState := .idle
  pipelineStateDetail := "waiting_for_vlm"
  pipelineStartedAt := 0
  pipelineLastFrameAt := 0
  pipelineRestartCount := 0

/-- The process when its HTTP server starts: the settings are restored, the VLM is loading,
    and the worker and the watchdog wait for it. -/
def boot (saved : Saved) (model : String) (now : ℚ) : Conf Shared Thread where
  shared :=
    { app := restored saved
      file := saved
      now := now
      holderName := model
      threadsStarted := false
      refs := false
      pipeline := none
      pipelineLock := none
      startLock := none
      pipelineStartedAt := 0
      lastFrameTime := 0
      built := 0
      live := fun _ => false
      inCallback := fun _ => false
      ring := []
      inferQueue := false
      outbox := []
      hist := ⟨0, [], 0⟩ }
  pool := [.boot .setRefs, .worker 0 0 .notStarted, .watchdog watchdogTimeout .notStarted]

/-! ## A small deployment, for executions -/

def sampleConfig : Config where
  nFrames := 1
  ringSize := 4
  minInferInterval := 0
  maxConsecutiveInferFailures := 3
  lower := id
  localMinutes _ := 0

def sampleSaved : Saved := ⟨pyStr "Describe the scene.", [pyStr "fire"], [], [], true⟩

/-- Thread `i` takes `n` steps. -/
def goes (i n : ℕ) : List (Event Request Choice Env) := List.replicate n (.sched i .go)

end Babycat.Analyzer
