/-
  Babycat.Router.Monitor

  The monitoring stream, from a change of the analyzer's state to the messages
  that a client of the router gets (`state.py` and `server.py` of the analyzer:
  `_sse_push`, `sse_subscribe`, `_serve_sse`; `monitor.py` of the router).

  A critical section is one step, but for the one in which `_sse_push` puts the
  signals: a subscriber takes its signal without the lock.  A connection keeps
  what its handler has written and how much of it the router has read, so a
  line is neither lost nor moved on the way; reading and writing may fail at
  any time.  A line is the dict that it encodes.

  `versions` keeps what the parts were after each bump, and a client what it has
  been sent; nothing in the code reads them.
-/

import Babycat.Analyzer.StateSnapshot
import Babycat.Conc.Wakeup
import Babycat.Conc.Phases

namespace Babycat.Monitor

open Babycat.Conc

-- ============================================================================
-- The parts of a merged snapshot
-- ============================================================================

/-- The fields of the analyzer's snapshot, the deployment values aside. -/
def analyzerKeys : List String :=
  ["frame_w", "frame_h", "infer_raw", "infer_ms", "pipeline_state", "pipeline_state_detail",
    "pipeline_source_protocol", "pipeline_source_transport", "pipeline_active_for_s",
    "pipeline_last_frame_age_s", "pipeline_restart_count", "inference_prompt",
    "trigger_keywords", "label_groups", "presets", "active_preset", "event_triggered",
    "analysis_active", "vlm_state", "vlm_error", "vlm_models", "vlm_current_model"]

/-- The fields of the recorder's `/status`. -/
def recorderKeys : List String :=
  ["cpu_percent", "ram_used_mb", "ram_total_mb", "gpu_load", "cpu_temp", "gpu_temp",
    "disk_used_mb", "disk_total_mb", "disk_free_mb", "disk_path", "buffer_active",
    "clip_storage_state", "clip_storage_reason", "clip_storage_free_mb",
    "segment_recorder_state", "segment_recorder_error", "segment_recorder_segment_count",
    "segment_recorder_last_segment_age_s", "uptime", "clip_count", "event_count"]

/-- The fields of the streamer's `/status`. -/
def streamerKeys : List String :=
  ["ptz_pan", "ptz_tilt", "ptz_presets", "streaming_active", "profile_pending"]

inductive Source
  | analyzer
  | recorder
  | streamer
  deriving DecidableEq

/-- The fields that a source has. -/
def Source.has (key : String) : Source → Bool
  | .analyzer => analyzerKeys.contains key || isConfigKey key
  | .recorder => recorderKeys.contains key
  | .streamer => streamerKeys.contains key

/-- What a source says of itself. -/
structure Part (source : Source) where
  dict : Dict
  fields : ∀ key ∈ dict, source.has key = true

/-- `_parts` -/
structure Parts where
  analyzer : Option (Part .analyzer)
  recorder : Option (Part .recorder)
  streamer : Option (Part .streamer)

namespace Parts

variable (p : Parts)

def empty : Parts := ⟨none, none, none⟩

def get : (source : Source) → Option (Part source)
  | .analyzer => p.analyzer
  | .recorder => p.recorder
  | .streamer => p.streamer

def set (source : Source) (part : Option (Part source)) : Parts :=
  match source with
  | .analyzer => { p with analyzer := part }
  | .recorder => { p with recorder := part }
  | .streamer => { p with streamer := part }

/-- `if part: merged.update(part)` -/
def update (merged : Dict) (part : Option Dict) : Dict :=
  match part with
  | none => merged
  | some d => if d.entries = [] then merged else d ∪ merged

def mergedParts : Dict :=
  update (update (update ∅ (p.analyzer.map Part.dict)) (p.recorder.map Part.dict))
    (p.streamer.map Part.dict)

/-- `monitor_sources` -/
def monitorSources : Value :=
  .sources [("analyzer", p.analyzer.isSome), ("recorder", p.recorder.isSome),
    ("streamer", p.streamer.isSome)]

/-- The snapshot that `_merged_snapshot` returns. -/
def merged : Dict := p.mergedParts.insert "monitor_sources" p.monitorSources

end Parts

theorem AppState.snapshot_fields (a : AppState) (now : ℚ) :
    ∀ key ∈ a.snapshot now, Source.analyzer.has key = true := by
  intro key hkey
  rw [Source.has, Bool.or_eq_true]
  cases hconfig : isConfigKey key with
  | true => exact .inr rfl
  | false =>
    left
    have hsome := AList.lookup_isSome.mpr hkey
    rw [AppState.snapshot, lookup_union, a.lookup_config hconfig, Option.none_or] at hsome
    simp only [lookup_union, AppState.runtimeSnapshot, AppState.streamSnapshot,
      AppState.inferenceSnapshot, AList.lookup_to_alist, dlookup_item, List.dlookup_nil] at hsome
    rw [analyzerKeys, List.contains_eq_mem, decide_eq_true_iff]
    by_contra hmem
    simp only [List.mem_cons, not_or, List.not_mem_nil] at hmem
    simp [hmem] at hsome

/-- The analyzer's message. -/
def AppState.part (a : AppState) (now : ℚ) : Part .analyzer :=
  ⟨a.snapshot now, a.snapshot_fields now⟩

-- ============================================================================
-- The shared state
-- ============================================================================

/-- A connection of the router to the analyzer's `/events`. -/
structure Conn where
  /-- The thread that serves it. -/
  handler : Option ℕ
  /-- What was written to it, oldest first. -/
  sent : List (Part .analyzer)
  /-- How much of that the router has read. -/
  read : ℕ
  /-- The handler has closed it. -/
  ended : Bool

def Conn.fresh : Conn := ⟨none, [], 0, false⟩

structure Shared where
  app : AppState
  /-- `_sse_lock` -/
  sseLock : Option ℕ
  /-- `_sse_queues`, each with whether it is full; the queue of a handler has its number. -/
  queues : List (ℕ × Bool)
  conns : List Conn
  parts : Parts
  seq : ℕ
  /-- What the recorder and the streamer answer when they are asked. -/
  recorderStatus : Part .recorder
  streamerStatus : Part .streamer
  /-- The parts after each bump, the last ones first. -/
  versions : List Parts

namespace Shared

variable (s : Shared)

/-- `put_nowait`; a queue that is full stays so. -/
def putNowait (q : ℕ) : Shared :=
  { s with queues := s.queues.map fun p => if p.1 = q then (p.1, true) else p }

/-- The item that `get` returns is gone. -/
def take (q : ℕ) : Shared :=
  { s with queues := s.queues.map fun p => if p.1 = q then (p.1, false) else p }

def sseSubscribe (q : ℕ) : Shared := { s with queues := s.queues ++ [(q, false)] }

def sseUnsubscribe (q : ℕ) : Shared :=
  { s with queues := s.queues.filter fun p => p.1 ≠ q }

def updateConn (n : ℕ) (f : Conn → Conn) : Shared := { s with conns := s.conns.modify n f }

/-- `_bump` -/
def bump (source : Source) (part : Option (Part source)) : Shared :=
  { s with
    parts := s.parts.set source part
    seq := s.seq + 1
    versions := s.parts.set source part :: s.versions }

end Shared

-- ============================================================================
-- The analyzer's threads
-- ============================================================================

/-- What a step leaves open: the clock, a timeout, a failure, the connection that comes in. -/
structure Choice where
  now : ℚ
  timeout : Bool
  fails : Bool
  conn : ℕ
  deriving DecidableEq

inductive MethodPc
  | call
  | acquire
  /-- Inside `_sse_lock`, with the queues that are left. -/
  | push (rest : List ℕ)
  | returned
  deriving DecidableEq

def methodNext (i : ℕ) (s : Shared) (m : Method) : MethodPc → Option (Shared × MethodPc)
  | .call => some ({ s with app := m.apply s.app }, if m.pushes s.app then .acquire else .returned)
  | .acquire =>
      if s.sseLock = none then
        some ({ s with sseLock := some i }, .push (s.queues.map Prod.fst))
      else none
  | .push (q :: rest) => some (s.putNowait q, .push rest)
  | .push [] => some ({ s with sseLock := none }, .returned)
  | .returned => none

/-- Where `_serve_sse` is, with the connection it serves. -/
inductive HandlerPc
  | accept
  | subscribe (n : ℕ)
  /-- `q.get(timeout=1)`, after the message `last` -/
  | get (n : ℕ) (last : Option (Part .analyzer))
  /-- `app_state.snapshot()` -/
  | snapshot (n : ℕ)
  | write (n : ℕ) (d : Part .analyzer)
  | unsubscribe (n : ℕ)
  | closed

def handlerNext (i : ℕ) (s : Shared) (k : Choice) : HandlerPc → Option (Shared × HandlerPc)
  | .accept =>
      match s.conns[k.conn]? with
      | none => none
      | some c =>
          if c.handler = none then
            some (s.updateConn k.conn fun c => { c with handler := some i }, .subscribe k.conn)
          else none
  | .subscribe n => if s.sseLock = none then some (s.sseSubscribe i, .get n none) else none
  | .get n _ =>
      if (i, true) ∈ s.queues then some (s.take i, .snapshot n)
      else if k.timeout then some (s, .snapshot n) else none
  | .snapshot n => some (s, .write n (s.app.part k.now))
  | .write n d =>
      if k.fails then some (s, .unsubscribe n)
      else some (s.updateConn n fun c => { c with sent := c.sent ++ [d] }, .get n (some d))
  | .unsubscribe n =>
      if s.sseLock = none then
        some ((s.sseUnsubscribe i).updateConn n fun c => { c with ended := true }, .closed)
      else none
  | .closed => none

-- ============================================================================
-- The router's threads
-- ============================================================================

/-- Where `_analyzer_sse_reader` is. -/
inductive ReaderPc
  | connect
  | readLine (n : ℕ)
  | bump (n : ℕ) (d : Part .analyzer)
  /-- After an exception. -/
  | drop
  | sleep

def readerNext (s : Shared) (k : Choice) : ReaderPc → Option (Shared × ReaderPc)
  | .connect =>
      if k.fails then some (s, .drop)
      else some ({ s with conns := s.conns ++ [Conn.fresh] }, .readLine s.conns.length)
  | .readLine n =>
      if k.fails then some (s, .drop)
      else
        match s.conns[n]? with
        | none => none
        | some c =>
            match c.sent[c.read]? with
            | some d => some (s.updateConn n fun c => { c with read := c.read + 1 }, .bump n d)
            -- the end of the response ends the loop over its lines, and nothing else
            | none => if c.ended then some (s, .connect) else none
  | .bump n d => some (s.bump .analyzer (some d), .readLine n)
  | .drop => some (s.bump .analyzer none, .sleep)
  | .sleep => some (s, .connect)

/-- Where `_status_poller` is. -/
inductive PollerPc
  | recorder
  | bumpRecorder (part : Option (Part .recorder))
  | streamer
  | bumpStreamer (part : Option (Part .streamer))
  | sleep

def pollerNext (s : Shared) (k : Choice) : PollerPc → Shared × PollerPc
  | .recorder => (s, .bumpRecorder (if k.fails then none else some s.recorderStatus))
  | .bumpRecorder part => (s.bump .recorder part, .streamer)
  | .streamer => (s, .bumpStreamer (if k.fails then none else some s.streamerStatus))
  | .bumpStreamer part => (s.bump .streamer part, .sleep)
  | .sleep => (s, .recorder)

/-- A client's `sse_generator`. -/
structure Client where
  /-- `last_seq`; none for -1 -/
  last : Option ℕ
  /-- What it has been sent, with its number, the last message first. -/
  sent : List (ℕ × Dict)

inductive ClientPc
  /-- `_merged_snapshot()` -/
  | look
  | emit (seq : ℕ) (merged : Dict)

def clientNext (s : Shared) (c : Client) : ClientPc → Client × ClientPc
  | .look => if c.last = some s.seq then (c, .look) else (c, .emit s.seq s.parts.merged)
  | .emit seq merged => (⟨some seq, (seq, merged) :: c.sent⟩, .look)

-- ============================================================================
-- The system
-- ============================================================================

inductive Thread
  | method (m : Method) (pc : MethodPc)
  | handler (pc : HandlerPc)
  | reader (pc : ReaderPc)
  | poller (pc : PollerPc)
  | client (c : Client) (pc : ClientPc)

/-- Who comes in: a thread that calls a method, a worker of the analyzer's server, a client. -/
inductive Request
  | method (m : Method)
  | handler
  | client

/-- The recorder or the streamer changes. -/
inductive Env
  | recorder (status : Part .recorder)
  | streamer (status : Part .streamer)

def monitor : Prog Shared Thread Request Choice Env where
  enter
    | .method m => .method m .call
    | .handler => .handler .accept
    | .client => .client ⟨none, []⟩ .look
  next i s t k :=
    match t with
    | .method m pc => (methodNext i s m pc).map fun r => (r.1, .method m r.2)
    | .handler pc => (handlerNext i s k pc).map fun r => (r.1, .handler r.2)
    | .reader pc => (readerNext s k pc).map fun r => (r.1, .reader r.2)
    | .poller pc => some ((pollerNext s k pc).1, .poller (pollerNext s k pc).2)
    | .client c pc => some (s, .client (clientNext s c pc).1 (clientNext s c pc).2)
  env s
    | .recorder status => some { s with recorderStatus := status }
    | .streamer status => some { s with streamerStatus := status }

abbrev Monitoring := Conf Shared Thread

/-- Both processes have started, and the collectors are about to begin. -/
def start (app : AppState) (recorder : Part .recorder) (streamer : Part .streamer) :
    Monitoring where
  shared := ⟨app, none, [], [], .empty, 0, recorder, streamer, [.empty]⟩
  pool := [.reader .connect, .poller .recorder]

end Babycat.Monitor
