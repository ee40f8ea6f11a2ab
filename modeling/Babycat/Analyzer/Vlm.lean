/-
  Babycat.Analyzer.Vlm

  The VLM behind the inference worker: `ModelHolder`, `_perform_switch` and
  `inference_worker` (`main.py`), `holder.request_switch`, the parent side
  `VlmProcess` and the child side `_child_main` (`vlm_worker.py`).

  `Analyzer.Runtime` takes an inference as one step of the worker and the model
  as given; here that step is opened, and of the rest of the loop body only
  the ways out of it are left.  The worker is one thread, so its program
  counter is part of the state; every method of `VlmProcess` runs on it.  A
  child is known by the position of its `Popen` among all of them.  A request
  is one step: what it reads beside the holder does not change once
  `set_holder` has run.

  Timeouts, refused connections, a broken pipe and a `Popen` that raises may
  happen at every step that can raise, and a child may die between any two
  steps.  `_hard_stop` returns when the child is dead: a process that gets
  SIGKILL dies.

  The number of a job, the child a text came from and `accepted` are
  bookkeeping.
-/

import Babycat.Conc.Steps
import Mathlib.Data.Nat.Notation

namespace Babycat.Analyzer.Vlm

open Babycat.Conc

structure Config where
  /-- `MODEL_ID`, the model loaded at boot. -/
  modelId : String
  /-- `_available_models`. -/
  available : List String
  maxConsecutiveInferFailures : ℕ

/-! ## The child -/

/-- The payload of an `infer` message. -/
structure Job where
  frames : List ℕ
  prompt : String
  deriving DecidableEq

/-- A message of the child. -/
inductive Reply
  | ready
  | loadError (cause : String)
  | result (text : String)
  | inferError (cause : String)
  deriving DecidableEq

/-- The payload as an f-string shows it. -/
def Reply.payload : Reply → String
  | .ready => "None"
  | .loadError cause => cause
  | .result text => text
  | .inferError cause => cause

/-- A message with the number of the job it answers. -/
structure Message where
  reply : Reply
  job : Option ℕ
  deriving DecidableEq

inductive ChildPc
  | listening
  | loading
  | serving
  | running (n : ℕ) (job : Job)
  | exited
  deriving DecidableEq

/-- A child process; `inbox` and `outbox` are the two directions of its channel, and `produced`
    the texts its model has generated. -/
structure Child where
  model : String
  pc : ChildPc
  inbox : List (ℕ × Job)
  outbox : List Message
  produced : List String
  deriving DecidableEq

/-- `proc.poll() is None`. -/
def Child.alive (c : Child) : Bool := decide (c.pc ≠ .exited)

def Child.exit (c : Child) : Child := { c with pc := .exited }

inductive ChildChoice
  | loaded
  | loadError (cause : String)
  | recv
  | eof
  | generated (text : String)
  | raised (cause : String)
  | crash
  deriving DecidableEq

/-- `_child_main` after `accept`; `closed` says that the parent has closed the connection. -/
def childNext (c : Child) (closed : Bool) (k : ChildChoice) : Option Child :=
  match c.pc, k with
  | .exited, _ => none
  | _, .crash => some c.exit
  | .loading, .loaded =>
      some { c with pc := .serving, outbox := c.outbox ++ [⟨.ready, none⟩] }
  | .loading, .loadError cause =>
      some { c with pc := .exited, outbox := c.outbox ++ [⟨.loadError cause, none⟩] }
  | .serving, .recv =>
      match c.inbox with
      | (n, job) :: rest => some { c with pc := .running n job, inbox := rest }
      | [] => none
  | .serving, .eof => if closed ∧ c.inbox = [] then some c.exit else none
  | .running n _, .generated text =>
      some { c with
        pc := .serving
        outbox := c.outbox ++ [⟨.result text, some n⟩]
        produced := c.produced ++ [text] }
  | .running n _, .raised cause =>
      some { c with pc := .serving, outbox := c.outbox ++ [⟨.inferError cause, some n⟩] }
  | _, _ => none

/-! ## Program counters of the parent -/

inductive StopPc
  | close
  | kill
  deriving DecidableEq

inductive SpawnPc
  | popen
  | connect
  | load
  | abort (pc : StopPc) (cause : String)
  deriving DecidableEq

inductive SwitchPc
  | stop (pc : StopPc)
  | spawn (pc : SpawnPc)
  deriving DecidableEq

inductive InferPc
  | check
  | respawn (model : String) (pc : SpawnPc)
  | send
  | recv
  | abort (pc : StopPc) (cause : String)
  deriving DecidableEq

inductive WorkerPc
  | boot (pc : SpawnPc)
  | top
  | switching (target : String)
  | preApply (target prev : String)
  | switch (target prev : String) (pc : SwitchPc)
  | failed (target prev cause : String)
  | rollback (prev : String) (pc : SwitchPc)
  | restored (prev : String)
  | restoredReady
  | rename (target : String)
  | renamed
  | get
  | infer (job : Job) (pc : InferPc)
  | inferFailed (cause : String)
  | judged (text : String) (child : ℕ)
  | exited
  deriving DecidableEq

/-- Where a call of a `VlmProcess` method stands after a step. -/
inductive Outcome (α β : Type)
  | running (pc : α)
  | returned (v : β)
  | raised (cause : String)

/-! ## State -/

structure VlmProcess where
  proc : Option ℕ
  conn : Option ℕ
  current : Option String
  deriving DecidableEq

structure ModelHolder where
  name : String
  switchTo : Option String
  deriving DecidableEq

inductive VlmState
  | loading
  | ready
  | switching
  | error
  deriving DecidableEq

/-- A row of the inference history: the model it names, its text, and the child whose answer
    that was. -/
structure Row where
  model : String
  text : String
  child : ℕ
  deriving DecidableEq

structure State where
  holder : ModelHolder
  /-- `set_holder` has run. -/
  registered : Bool
  vlm : VlmProcess
  children : List Child
  worker : WorkerPc
  failures : ℕ
  vlmState : VlmState
  vlmError : String
  vlmCurrentModel : String
  rows : List Row
  /-- How many jobs have been sent. -/
  jobs : ℕ
  /-- The accepted switch requests, newest first. -/
  accepted : List String
  deriving DecidableEq

def truncated (n : ℕ) (text : String) : String := String.ofList (text.toList.take n)

namespace State

def setVlmState (s : State) (state : VlmState) (error : String) : State :=
  { s with vlmState := state, vlmError := error }

def goto (s : State) (pc : WorkerPc) : State := { s with worker := pc }

def updateChild (s : State) (pid : ℕ) (f : Child → Child) : State :=
  { s with children := s.children.modify pid f }

/-- The child `self._proc` is alive and `self._conn` is set. -/
def isReady (s : State) : Bool :=
  s.vlm.conn.isSome && (s.vlm.proc.bind fun pid => s.children[pid]?).any Child.alive

/-- `self._conn.close()`. -/
def close (s : State) : State := { s with vlm := { s.vlm with conn := none } }

/-- `_hard_stop(self._proc)`. -/
def hardStop (s : State) : State :=
  match s.vlm.proc with
  | some pid => { s.updateChild pid Child.exit with vlm := { s.vlm with proc := none } }
  | none => s

/-- `subprocess.Popen`. -/
def popen (s : State) (model : String) : State :=
  { s with
    children := s.children ++ [⟨model, .listening, [], [], []⟩]
    vlm := { s.vlm with proc := some s.children.length, conn := none } }

/-- The child accepts the connection. -/
def connect (s : State) : Option State :=
  match s.vlm.proc with
  | some pid =>
      match s.children[pid]? with
      | some c =>
          if c.pc = .listening then
            some { s.updateChild pid fun c => { c with pc := .loading } with
              vlm := { s.vlm with conn := some pid } }
          else none
      | none => none
  | none => none

/-- `self._conn.send(("infer", job))`. -/
def send (s : State) (job : Job) : Option State :=
  s.vlm.conn.map fun pid =>
    { s.updateChild pid fun c => { c with inbox := c.inbox ++ [(s.jobs, job)] } with
      jobs := s.jobs + 1 }

/-- `self._conn.recv()`: the message and the child it is from. -/
def recv (s : State) : Option (State × Message × ℕ) :=
  match s.vlm.conn with
  | some pid =>
      match (s.children[pid]?).map Child.outbox with
      | some (m :: rest) => some (s.updateChild pid fun c => { c with outbox := rest }, m, pid)
      | _ => none
  | none => none

end State

/-! ## `VlmProcess` -/

/-- What a step of the worker leaves open. -/
inductive Choice
  | go
  /-- The call raises. -/
  | raises (cause : String)
  /-- No signal, analysis not active, inside the inference interval, or no samples. -/
  | skip
  | job (job : Job)
  deriving DecidableEq

def stopNext (s : State) : StopPc → State × Option StopPc
  | .close => (s.close, some .kill)
  | .kill => (s.hardStop, none)

def loadFailed (model cause : String) : String :=
  "VLM child load failed (" ++ model ++ "): " ++ cause

/-- `_spawn`: a `Popen` that raises leaves the manager as it was, a later failure stops it. -/
def spawnNext (s : State) (model : String) (k : Choice) :
    SpawnPc → Option (State × Outcome SpawnPc Unit)
  | .popen =>
      match k with
      | .raises cause => some (s, .raised cause)
      | _ => some (s.popen model, .running .connect)
  | .connect =>
      match k with
      | .raises cause => some (s, .running (.abort .close (loadFailed model cause)))
      | _ => s.connect.map fun s' => (s', .running .load)
  | .load =>
      match k with
      | .raises cause => some (s, .running (.abort .close (loadFailed model cause)))
      | _ =>
          match s.recv with
          | some (s', ⟨.ready, _⟩, _) =>
              some ({ s' with vlm := { s'.vlm with current := some model } }, .returned ())
          | some (s', m, _) =>
              some (s', .running (.abort .close (loadFailed model m.reply.payload)))
          | none => none
  | .abort pc cause =>
      match stopNext s pc with
      | (s', some pc') => some (s', .running (.abort pc' cause))
      | (s', none) => some (s', .raised cause)

/-- `switch`: the old child is gone before the new one is spawned. -/
def switchNext (s : State) (model : String) (k : Choice) :
    SwitchPc → Option (State × Outcome SwitchPc Unit)
  | .stop pc =>
      match stopNext s pc with
      | (s', some pc') => some (s', .running (.stop pc'))
      | (s', none) => some (s', .running (.spawn .popen))
  | .spawn pc =>
      (spawnNext s model k pc).map fun r =>
        (r.1, match r.2 with
          | .running pc' => .running (.spawn pc')
          | .returned v => .returned v
          | .raised cause => .raised cause)

def transportError (cause : String) : String := "VLM inference transport error: " ++ cause

/-- `infer`: a dead child is spawned again, and a broken transport drops it. -/
def inferNext (s : State) (job : Job) (k : Choice) :
    InferPc → Option (State × Outcome InferPc (String × ℕ))
  | .check =>
      if s.isReady then some (s, .running .send)
      else
        match s.vlm.current with
        | none => some (s, .raised "VLM child never started")
        | some model => some (s, .running (.respawn model .popen))
  | .respawn model pc =>
      (spawnNext s model k pc).map fun r =>
        (r.1, match r.2 with
          | .running pc' => .running (.respawn model pc')
          | .returned _ => .running .send
          | .raised cause => .raised cause)
  | .send =>
      match k with
      | .raises cause => some (s, .running (.abort .close (transportError cause)))
      | _ => (s.send job).map fun s' => (s', .running .recv)
  | .recv =>
      match k with
      | .raises cause => some (s, .running (.abort .close (transportError cause)))
      | _ =>
          match s.recv with
          | some (s', ⟨.result text, _⟩, pid) => some (s', .returned (text, pid))
          | some (s', m, _) => some (s', .raised ("VLM inference error: " ++ m.reply.payload))
          | none => none
  | .abort pc cause =>
      match stopNext s pc with
      | (s', some pc') => some (s', .running (.abort pc' cause))
      | (s', none) => some (s', .raised cause)

/-! ## The holder and the worker -/

/-- `ModelHolder.request_switch`. -/
def ModelHolder.requestSwitch (h : ModelHolder) (name : String) : ModelHolder :=
  if name = h.name ∧ h.switchTo = none then h else { h with switchTo := some name }

/-- `_handle_vlm_switch` with `holder.request_switch`: `none` for the 200, else the detail of
    the 400. -/
def refusal (cfg : Config) (s : State) (name : String) : Option String :=
  if name = "" then some "model required"
  else if !s.registered then some "model not loaded yet"
  else if cfg.available = [] then some "models not ready yet"
  else if name ∉ cfg.available then some "model not available (not precompiled)"
  else none

def requestNext (cfg : Config) (s : State) (name : String) : State :=
  match refusal cfg s name with
  | some _ => s
  | none =>
      { s with
        holder := s.holder.requestSwitch name
        accepted := name :: s.accepted }

/-- One step of `main` up to the start of the worker, then of `inference_worker` with
    `_perform_switch`. -/
def workerNext (cfg : Config) (s : State) (k : Choice) : Option State :=
  match s.worker with
  | .boot pc =>
      (spawnNext s cfg.modelId k pc).map fun r =>
        match r.2 with
        | .running pc' => r.1.goto (.boot pc')
        | .returned _ => { r.1.setVlmState .ready "" with registered := true, worker := .top }
        | .raised cause => (r.1.setVlmState .error (truncated 240 cause)).goto .exited
  | .top =>
      let s' := { s with holder := { s.holder with switchTo := none } }
      match s.holder.switchTo with
      | some target =>
          if target ≠ "" ∧ target ≠ s.holder.name then some (s'.goto (.switching target))
          else some (s'.goto .get)
      | none => some (s'.goto .get)
  | .switching target =>
      some ((s.setVlmState .switching "").goto (.preApply target s.holder.name))
  | .preApply target prev =>
      some ({ s with vlmCurrentModel := target }.goto (.switch target prev (.stop .close)))
  | .switch target prev pc =>
      (switchNext s target k pc).map fun r =>
        match r.2 with
        | .running pc' => r.1.goto (.switch target prev pc')
        | .returned _ => r.1.goto (.rename target)
        | .raised cause => r.1.goto (.failed target prev cause)
  | .failed target prev cause =>
      some ((s.setVlmState .error (target ++ ": " ++ truncated 200 cause)).goto
        (.rollback prev (.stop .close)))
  | .rollback prev pc =>
      (switchNext s prev k pc).map fun r =>
        match r.2 with
        | .running pc' => r.1.goto (.rollback prev pc')
        | .returned _ => r.1.goto (.restored prev)
        -- the failed rollback is logged
        | .raised _ => r.1.goto .get
  | .restored prev => some ({ s with vlmCurrentModel := prev }.goto .restoredReady)
  | .restoredReady => some ((s.setVlmState .ready "").goto .get)
  | .rename target =>
      some ({ s with holder := { s.holder with name := target } }.goto .renamed)
  | .renamed => some ((s.setVlmState .ready "").goto .get)
  | .get =>
      match k with
      | .skip => some (s.goto .top)
      | .job job => some (s.goto (.infer job .check))
      | _ => none
  | .infer job pc =>
      (inferNext s job k pc).map fun r =>
        match r.2 with
        | .running pc' => r.1.goto (.infer job pc')
        | .returned (text, pid) => { r.1 with failures := 0, worker := .judged text pid }
        | .raised cause => { r.1 with failures := r.1.failures + 1, worker := .inferFailed cause }
  | .inferFailed cause =>
      if cfg.maxConsecutiveInferFailures ≤ s.failures then
        some ((s.setVlmState .error
          s!"inference failed {s.failures} times: {truncated 160 cause}").goto .exited)
      else some (s.goto .top)
  | .judged text pid =>
      match k with
      -- analysis was stopped: the result is discarded
      | .skip => some (s.goto .top)
      | .go => some ({ s with rows := ⟨s.holder.name, text, pid⟩ :: s.rows }.goto .top)
      | _ => none
  | .exited => none

inductive Event
  | request (name : String)
  | worker (k : Choice)
  | child (pid : ℕ) (k : ChildChoice)
  deriving DecidableEq

/-- One step of a handler, the worker or a child. -/
def step (cfg : Config) (s : State) : Event → Option State
  | .request name => some (requestNext cfg s name)
  | .worker k => workerNext cfg s k
  | .child pid k =>
      match s.children[pid]? with
      | some c =>
          (childNext c (decide (s.vlm.conn ≠ some pid)) k).map fun c' =>
            { s with children := s.children.set pid c' }
      | none => none

/-- Precompilation is over and the default model is about to be loaded. -/
def init (cfg : Config) : State where
  holder := ⟨cfg.modelId, none⟩
  registered := false
  vlm := ⟨none, none, none⟩
  children := []
  worker := .boot .popen
  failures := 0
  vlmState := .loading
  vlmError := ""
  vlmCurrentModel := cfg.modelId
  rows := []
  jobs := 0
  accepted := []

def Reachable (cfg : Config) (s : State) : Prop := Steps (step cfg) free (init cfg) s

end Babycat.Analyzer.Vlm
