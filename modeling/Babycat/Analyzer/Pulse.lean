/-
  Babycat.Analyzer.Pulse

  What the watchdog goes by, and what the threads do to it.

  Of the shared state `Pulse` keeps the pipeline, its two times, the clock and
  `_pipeline_lock`; of a thread `Beat` keeps the watchdog's timeout and what the
  thread still owes to the pipeline.  `BeatStep` is the transition system over
  them, and every step of the analyzer is a step of it (`paced_phases`).

  `Pace` is bookkeeping the code does not have: how many frame callbacks there
  have been and which restarts the watchdog decided on.
-/

import Babycat.Analyzer.Steps
import Babycat.Conc.Backoff
import Babycat.Conc.Phases

namespace Babycat.Analyzer

open Babycat.Conc

/-- The timeout doubles from the base cadence up to the ceiling. -/
def watchdogBackoff : Backoff where
  base := watchdogTimeout
  cap := watchdogTimeoutMax
  pos := by norm_num [watchdogTimeout]
  le := by norm_num [watchdogTimeout, watchdogTimeoutMax]

/-- A restart that the watchdog decided on; `delivered` when the pipeline it replaces has had
    a frame since it was started. -/
structure WatchdogRestart where
  time : ℚ
  frames : ℕ
  delivered : Bool
  deriving DecidableEq

structure Pace where
  frames : ℕ
  /-- The newest first. -/
  restarts : List WatchdogRestart

/-- What a step of a thread adds to the bookkeeping. -/
def recordPace (_ : ℕ) (s : Shared) (t : Thread) (h : Pace) : Pace :=
  match t with
  | .watchdog timeout .sleep =>
      if (watchdogLook s timeout).2 then
        { h with restarts :=
            ⟨s.now, h.frames, decide (s.pipelineStartedAt < s.lastFrameTime)⟩ :: h.restarts }
      else h
  | .frame _ _ .begin => { h with frames := h.frames + 1 }
  | _ => h

/-- The analyzer with the bookkeeping. -/
def paced (cfg : Config) : Prog (Shared × Pace) Thread Request Choice Env :=
  (analyzer cfg).observed recordPace

/-- The process when its HTTP server starts. -/
def bootPaced (saved : Saved) (model : String) (now : ℚ) : Conf (Shared × Pace) Thread :=
  ⟨((boot saved model now).shared, ⟨0, []⟩), (boot saved model now).pool⟩

structure Pulse where
  pipeline : Option ℕ
  startedAt : ℚ
  lastFrame : ℚ
  now : ℚ
  lock : Option ℕ
  refs : Bool
  threadsStarted : Bool
  pace : Pace

def pulse (x : Shared × Pace) : Pulse :=
  ⟨x.1.pipeline, x.1.pipelineStartedAt, x.1.lastFrameTime, x.1.now, x.1.pipelineLock, x.1.refs,
    x.1.threadsStarted, x.2⟩

inductive Stage
  | idle
  /-- Boot before `set_refs`. -/
  | booting
  /-- Boot before it starts the threads. -/
  | spawning
  /-- The watchdog before it was started. -/
  | asleep
  /-- Has decided on a restart and not yet taken the pipeline away. -/
  | restart
  /-- Has installed a pipeline and not yet set its two times. -/
  | stamp
  deriving DecidableEq

structure Beat where
  /-- The retry interval, of the watchdog. -/
  timeout : Option ℚ
  stage : Stage

/-- The stage of a call of `start_pipeline` whose caller is in `pending` until the old pipeline
    is taken away. -/
def StartPc.stage (pending : Stage) : StartPc → Stage
  | .lockStart | .detach => pending
  | .play _ _ | .stamp _ => .stamp
  | _ => .idle

def Outcome.stage (pending : Stage) : Outcome → Stage
  | .running pc => pc.stage pending
  | .returned _ => .idle

def Thread.beat : Thread → Beat
  | .boot .setRefs => ⟨none, .booting⟩
  | .boot .startThreads => ⟨none, .spawning⟩
  | .boot (.pipeline pc) | .start (.pipeline pc) => ⟨none, pc.stage .idle⟩
  | .watchdog d .notStarted => ⟨some d, .asleep⟩
  | .watchdog d .stalled | .watchdog d .request => ⟨some d, .restart⟩
  | .watchdog d (.pipeline pc) => ⟨some d, pc.stage .restart⟩
  | .watchdog d _ => ⟨some d, .idle⟩
  | _ => ⟨none, .idle⟩

/-- One step of a thread. -/
inductive BeatStep : Pulse → Beat → Pulse → Beat → Prop
  | quiet (v : Pulse) (b : Beat) (l : Option ℕ) : BeatStep v b { v with lock := l } b
  | setRefs (v : Pulse) : BeatStep v ⟨none, .booting⟩ { v with refs := true } ⟨none, .spawning⟩
  | spawn (v : Pulse) :
      BeatStep v ⟨none, .spawning⟩ { v with threadsStarted := true } ⟨none, .idle⟩
  | wake (v : Pulse) (d : ℚ) (h : v.threadsStarted = true) :
      BeatStep v ⟨some d, .asleep⟩ v ⟨some d, .idle⟩
  /-- The watchdog finds that frames have arrived. -/
  | relax (v : Pulse) (d : ℚ) (hlock : v.lock = none) (hp : v.pipeline ≠ none)
      (hframe : v.startedAt < v.lastFrame) :
      BeatStep v ⟨some d, .idle⟩ v ⟨some watchdogBackoff.base, .idle⟩
  /-- Frames have arrived, and then none for the base cadence. -/
  | stalled (v : Pulse) (d : ℚ) (hlock : v.lock = none) (hp : v.pipeline ≠ none)
      (hframe : v.startedAt < v.lastFrame)
      (hlate : watchdogBackoff.base < v.now - v.lastFrame) :
      BeatStep v ⟨some d, .idle⟩
        { v with pace := { v.pace with
            restarts := ⟨v.now, v.pace.frames, true⟩ :: v.pace.restarts } }
        ⟨some watchdogBackoff.base, .restart⟩
  /-- No frame has arrived for the current interval. -/
  | frameless (v : Pulse) (d : ℚ) (hlock : v.lock = none) (hp : v.pipeline ≠ none)
      (hnone : v.lastFrame ≤ v.startedAt) (hlate : d < v.now - v.lastFrame) :
      BeatStep v ⟨some d, .idle⟩
        { v with pace := { v.pace with
            restarts := ⟨v.now, v.pace.frames, false⟩ :: v.pace.restarts } }
        ⟨some (watchdogBackoff.grow d), .restart⟩
  /-- Without refs a restart is refused. -/
  | refused (v : Pulse) (d : ℚ) (h : v.refs = false) :
      BeatStep v ⟨some d, .restart⟩ v ⟨some d, .idle⟩
  | detach (v : Pulse) (b : Beat) (l : Option ℕ) (h : b.stage = .idle ∨ b.stage = .restart) :
      BeatStep v b { v with pipeline := none, lock := l } { b with stage := .idle }
  | install (v : Pulse) (d : Option ℚ) (n : ℕ) :
      BeatStep v ⟨d, .idle⟩ { v with pipeline := some n } ⟨d, .stamp⟩
  | stamp (v : Pulse) (d : Option ℚ) :
      BeatStep v ⟨d, .stamp⟩ { v with startedAt := v.now, lastFrame := v.now } ⟨d, .idle⟩
  | frame (v : Pulse) :
      BeatStep v ⟨none, .idle⟩
        { v with lastFrame := v.now, pace := { v.pace with frames := v.pace.frames + 1 } }
        ⟨none, .idle⟩

/-- Time passes. -/
def PulseTick (v v' : Pulse) : Prop := ∃ d : ℚ, 0 ≤ d ∧ v' = { v with now := v.now + d }

/-! ## The analyzer's steps are steps of the pulse -/

section Refines

variable {cfg : Config} {i : ℕ} {s s' : Shared} {k : Choice} {h : Pace}

/-- A step that leaves the pulse and the beat alone. -/
theorem BeatStep.of_eq {v v' : Pulse} {b b' : Beat} (hv : v' = v) (hb : b' = b) :
    BeatStep v b v' b' := by
  rw [hv, hb]
  exact .quiet v b v.lock

theorem teardown_pulse {p : ℕ} (hs : s.teardown p = some s') : pulse (s', h) = pulse (s, h) := by
  simp only [Shared.teardown] at hs
  split at hs
  · cases hs
  · cases hs
    rfl

theorem startNext_beat {d : Option ℚ} {pending : Stage} {reason : String} {pc : StartPc}
    {o : Outcome} (hpending : pending = .idle ∨ pending = .restart)
    (hs : startNext i s k reason pc = some (s', o)) :
    BeatStep (pulse (s, h)) ⟨d, pc.stage pending⟩ (pulse (s', h)) ⟨d, o.stage pending⟩ := by
  cases pc with
  | lockStart =>
      simp only [startNext] at hs
      split at hs
      · cases hs
        exact .of_eq rfl rfl
      · cases hs
  | detach =>
      simp only [startNext] at hs
      split at hs
      · cases hs
        have hdetach := BeatStep.detach (pulse (s, h)) ⟨d, pending⟩ s.pipelineLock hpending
        cases s.pipeline <;> exact hdetach
      · cases hs
  | teardown old =>
      obtain ⟨a, ha, heq⟩ := Option.map_eq_some_iff.mp hs
      cases heq
      exact .of_eq (teardown_pulse ha) rfl
  | check restart =>
      obtain ⟨a, ha, heq⟩ := Option.map_eq_some_iff.mp hs
      obtain ⟨-, rfl⟩ := lockPipeline_some ha
      split at heq
      · cases heq
        exact .quiet (pulse (s, h)) _ (some i)
      · cases heq
        exact .of_eq rfl rfl
  | build restart =>
      simp only [startNext] at hs
      split at hs
      · cases hs
        exact .quiet (pulse (s, h)) _ none
      · cases hs
        exact .install (pulse (s, h)) d s.built
  | clear restart | drain restart | play restart p =>
      cases hs
      exact .of_eq rfl rfl
  | stamp restart =>
      cases hs
      exact .stamp (pulse (s, h)) d
  | mark restart startedAt =>
      cases hs
      exact .quiet (pulse (s, h)) _ none
  | unlock failure =>
      cases hs
      exact .of_eq rfl rfl

theorem bootNext_beat {pc pc' : BootPc} (hs : bootNext i s k pc = some (s', pc')) :
    BeatStep (pulse (s, h)) (Thread.boot pc).beat (pulse (s', h)) (Thread.boot pc').beat := by
  cases pc with
  | setRefs =>
      cases hs
      exact .setRefs (pulse (s, h))
  | startThreads =>
      cases hs
      exact .spawn (pulse (s, h))
  | checkActive =>
      cases hs
      split <;> exact .of_eq rfl rfl
  | pipeline pc =>
      obtain ⟨⟨a, o⟩, ha, heq⟩ := Option.map_eq_some_iff.mp hs
      cases heq
      have hbeat := startNext_beat (h := h) (d := none) (.inl rfl) ha
      rcases o with pc' | ⟨_ | cause⟩ <;> exact hbeat
  | defer | failed cause =>
      cases hs
      exact .of_eq rfl rfl
  | done => cases hs

theorem persistNext_pulse (pc : PersistPc) : pulse ((persistNext s k pc).1, h) = pulse (s, h) := by
  obtain ⟨file, hfile⟩ := persistNext_file s k pc
  rw [hfile]
  rfl

theorem startHandlerNext_beat {pc pc' : StartHandlerPc}
    (hs : startHandlerNext i s k pc = some (s', pc')) :
    BeatStep (pulse (s, h)) (Thread.start pc).beat (pulse (s', h)) (Thread.start pc').beat := by
  cases pc with
  | setActive | failed cause =>
      cases hs
      exact .of_eq rfl rfl
  | persist pc =>
      cases hs
      refine .of_eq (persistNext_pulse pc) ?_
      split <;> rfl
  | callback =>
      cases hs
      split <;> exact .of_eq rfl rfl
  | pipeline pc =>
      obtain ⟨⟨a, o⟩, ha, heq⟩ := Option.map_eq_some_iff.mp hs
      cases heq
      have hbeat := startNext_beat (h := h) (d := none) (.inl rfl) ha
      rcases o with pc' | ⟨_ | cause⟩ <;> exact hbeat
  | finished r => cases hs

theorem stopHandlerNext_beat {pc pc' : StopHandlerPc}
    (hs : stopHandlerNext i s k pc = some (s', pc')) :
    BeatStep (pulse (s, h)) (Thread.stop pc).beat (pulse (s', h)) (Thread.stop pc').beat := by
  cases pc with
  | setActive | mark =>
      cases hs
      exact .of_eq rfl rfl
  | persist pc =>
      cases hs
      exact .of_eq (persistNext_pulse pc) rfl
  | check =>
      obtain ⟨a, ha, heq⟩ := Option.map_eq_some_iff.mp hs
      obtain ⟨-, rfl⟩ := lockPipeline_some ha
      split at heq
      · cases heq
        exact .of_eq rfl rfl
      · cases heq
        exact .quiet (pulse (s, h)) _ (some i)
  | detach =>
      cases hs
      exact .detach (pulse (s, h)) ⟨none, .idle⟩ none (.inl rfl)
  | teardown old =>
      cases old with
      | none =>
          cases hs
          exact .of_eq rfl rfl
      | some p =>
          obtain ⟨a, ha, heq⟩ := Option.map_eq_some_iff.mp hs
          cases heq
          exact .of_eq (teardown_pulse ha) rfl
  | finished => cases hs

theorem workerNext_pulse {last last' : ℚ} {failures failures' : ℕ} {pc pc' : WorkerPc}
    (hs : workerNext cfg s k last failures pc = some (s', last', failures', pc')) :
    pulse (s', h) = pulse (s, h) := by
  cases pc with
  | notStarted | get =>
      simp only [workerNext] at hs
      split at hs <;> first | (cases hs; rfl) | cases hs
  | infer inf =>
      simp only [workerNext] at hs
      split at hs <;> first | (cases hs; rfl) | cases hs
  | exited => cases hs
  | _ =>
      cases hs
      rfl

theorem promptNext_pulse {b : PromptIn} {pc pc' : PromptPc}
    (hs : promptNext cfg s k b pc = some (s', pc')) : pulse (s', h) = pulse (s, h) := by
  cases pc with
  | persist pc =>
      cases hs
      exact persistNext_pulse pc
  | validate | setPrompt | setTriggers =>
      cases hs
      rfl
  | finished r => cases hs

theorem presetsNext_pulse {b : PresetsIn} {pc pc' : PresetsPc}
    (hs : presetsNext s k b pc = some (s', pc')) : pulse (s', h) = pulse (s, h) := by
  cases pc with
  | persist pc =>
      cases hs
      exact persistNext_pulse pc
  | setLabels labels presets =>
      cases hs
      cases labels <;> rfl
  | setPresets presets =>
      cases hs
      cases presets <;> rfl
  | validate | readLabels | readPresets =>
      cases hs
      rfl
  | finished r => cases hs

/-- What the watchdog does at one look: nothing, back to the base cadence, or a restart. -/
theorem watchdogLook_beat {d : ℚ} (hlock : s.pipelineLock = none) :
    BeatStep (pulse (s, h)) ⟨some d, .idle⟩ (pulse (s, recordPace i s (.watchdog d .sleep) h))
      ⟨some (watchdogLook s d).1, if (watchdogLook s d).2 then .restart else .idle⟩ := by
  simp only [recordPace, watchdogLook]
  by_cases hp : s.pipeline = none
  · simp only [if_pos hp, Bool.false_eq_true, if_false]
    exact .of_eq rfl rfl
  simp only [if_neg hp]
  by_cases hframe : s.pipelineStartedAt < s.lastFrameTime
  · have hnot : ¬ s.lastFrameTime ≤ s.pipelineStartedAt := not_le.mpr hframe
    simp only [if_pos hframe, if_neg hnot]
    have hrelax : BeatStep (pulse (s, h)) ⟨some d, .idle⟩ (pulse (s, h))
        ⟨some watchdogTimeout, .idle⟩ := .relax _ d hlock hp hframe
    by_cases hgrace : s.now - s.pipelineStartedAt < watchdogGrace
    · simpa only [if_pos hgrace, Bool.false_eq_true, if_false] using hrelax
    by_cases hlate : watchdogTimeout < s.now - s.lastFrameTime
    · simp only [if_neg hgrace, if_pos hlate, if_true, hframe, decide_true]
      exact .stalled (pulse (s, h)) d hlock hp hframe hlate
    · simpa only [if_neg hgrace, if_neg hlate, Bool.false_eq_true, if_false] using hrelax
  · have hnone : s.lastFrameTime ≤ s.pipelineStartedAt := not_lt.mp hframe
    simp only [if_neg hframe, if_pos hnone]
    by_cases hgrace : s.now - s.pipelineStartedAt < watchdogGrace
    · simp only [if_pos hgrace, Bool.false_eq_true, if_false]
      exact .of_eq rfl rfl
    by_cases hlate : d < s.now - s.lastFrameTime
    · simp only [if_neg hgrace, if_pos hlate, if_true, hframe, decide_false]
      exact .frameless (pulse (s, h)) d hlock hp hnone hlate
    · simp only [if_neg hgrace, if_neg hlate, Bool.false_eq_true, if_false]
      exact .of_eq rfl rfl

theorem watchdogNext_beat {d d' : ℚ} {pc pc' : WatchdogPc}
    (hs : watchdogNext i s k d pc = some (s', d', pc')) :
    BeatStep (pulse (s, h)) (Thread.watchdog d pc).beat
      (pulse (s', recordPace i s (.watchdog d pc) h)) (Thread.watchdog d' pc').beat := by
  cases pc with
  | notStarted =>
      simp only [watchdogNext] at hs
      split at hs
      · rename_i hready
        cases hs
        exact .wake (pulse (s, h)) d hready
      · cases hs
  | sleep =>
      simp only [watchdogNext] at hs
      split at hs
      · rename_i hlock
        cases hs
        have hbeat := watchdogLook_beat (i := i) (h := h) (d := d) hlock
        cases hlook : (watchdogLook s d).2 with
        | true =>
            rw [hlook, if_pos rfl] at hbeat
            rw [if_pos rfl]
            exact hbeat
        | false =>
            rw [hlook, if_neg Bool.false_ne_true] at hbeat
            rw [if_neg Bool.false_ne_true]
            exact hbeat
      · cases hs
  | stalled =>
      cases hs
      exact .of_eq rfl rfl
  | request =>
      cases hs
      cases hrefs : s.refs with
      | true =>
          rw [if_pos rfl]
          exact .of_eq rfl rfl
      | false =>
          rw [if_neg Bool.false_ne_true]
          exact .refused (pulse (s, h)) d hrefs
  | pipeline pc =>
      obtain ⟨⟨a, o⟩, ha, heq⟩ := Option.map_eq_some_iff.mp hs
      cases heq
      have hbeat := startNext_beat (h := h) (d := some d) (.inr rfl) ha
      rcases o with pc' | ⟨_ | cause⟩ <;> exact hbeat
  | failed cause =>
      cases hs
      exact .of_eq rfl rfl

theorem frameNext_beat {p img : ℕ} {pc pc' : FramePc}
    (hs : frameNext cfg s p img pc = some (s', pc')) :
    BeatStep (pulse (s, h)) (Thread.frame p img pc).beat
      (pulse (s', recordPace i s (.frame p img pc) h)) (Thread.frame p img pc').beat := by
  cases pc with
  | begin =>
      simp only [frameNext] at hs
      split at hs
      · cases hs
        exact .frame (pulse (s, h))
      · cases hs
  | push t | update | signal =>
      cases hs
      exact .of_eq rfl rfl
  | done => cases hs

theorem next_beat {t t' : Thread} (hn : next cfg i s t k = some (s', t')) :
    BeatStep (pulse (s, h)) t.beat (pulse (s', recordPace i s t h)) t'.beat := by
  cases t with
  | boot pc =>
      obtain ⟨pc', hstep, rfl⟩ := next_boot hn
      exact bootNext_beat hstep
  | worker last failures pc =>
      obtain ⟨last', failures', pc', hstep, rfl⟩ := next_worker hn
      exact .of_eq (workerNext_pulse hstep) rfl
  | watchdog timeout pc =>
      obtain ⟨timeout', pc', hstep, rfl⟩ := next_watchdog hn
      exact watchdogNext_beat hstep
  | prompt b pc =>
      obtain ⟨pc', hstep, rfl⟩ := next_prompt hn
      exact .of_eq (promptNext_pulse hstep) rfl
  | presets b pc =>
      obtain ⟨pc', hstep, rfl⟩ := next_presets hn
      exact .of_eq (presetsNext_pulse hstep) rfl
  | start pc =>
      obtain ⟨pc', hstep, rfl⟩ := next_start hn
      exact startHandlerNext_beat hstep
  | stop pc =>
      obtain ⟨pc', hstep, rfl⟩ := next_stop hn
      exact stopHandlerNext_beat hstep
  | frame p img pc =>
      obtain ⟨pc', hstep, rfl⟩ := next_frame hn
      exact frameNext_beat hstep

theorem env_pulse {x : Env} (hx : env s x = some s') :
    PulseTick (pulse (s, h)) (pulse (s', h)) := by
  have hstill : pulse (s, h) = { pulse (s, h) with now := s.now + 0 } := by
    rw [add_zero]
    rfl
  cases x with
  | tick d =>
      simp only [env] at hx
      split at hx
      · rename_i hd
        cases hx
        exact ⟨d, hd, rfl⟩
      · cases hx
  | deliver n =>
      simp only [env] at hx
      split at hx
      · cases hx
      · cases hx
        exact ⟨0, le_refl 0, hstill⟩
  | lose n =>
      simp only [env] at hx
      split at hx
      · cases hx
        exact ⟨0, le_refl 0, hstill⟩
      · cases hx

end Refines

/-- Every step of the analyzer is a step of the pulse. -/
theorem paced_phases (cfg : Config) :
    Phases (paced cfg) pulse Thread.beat ⟨none, .idle⟩ (fun _ _ => BeatStep) PulseTick where
  enter r := by cases r <;> rfl
  next hn := by
    obtain ⟨r, hr, heq⟩ := Option.map_eq_some_iff.mp hn
    cases heq
    exact next_beat hr
  env hx := by
    obtain ⟨s', hs, heq⟩ := Option.map_eq_some_iff.mp hx
    cases heq
    exact env_pulse hs

end Babycat.Analyzer
