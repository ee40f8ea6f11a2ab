/-
  Babycat.Analyzer.PipelineState

  Whether the reported pipeline state is true (SDD §7.3).

  `start_pipeline` marks its pipeline under `_pipeline_lock`; the other marks are
  made outside of it and at any later time: a stop marks idle after a teardown
  that may take long, a failed start marks idle once it has given up, and the
  watchdog marks stalled before it restarts.  `MarkStep` adds the marks, the
  start lock and the live pipelines to the lifecycle.  In the runs in which no
  such mark contradicts what is installed while nothing is left that will put it
  right (`Truthful`), the state is idle exactly when no pipeline is installed,
  whenever no operation is in progress (`pipeline_state_truthful`).
-/

import Babycat.Analyzer.LatestFlag
import Babycat.Analyzer.RingFrames

namespace Babycat.Analyzer

open Babycat.Conc

/-- The lifecycle with the start lock, whether `idle` is reported, and the live pipelines. -/
structure Marks extends Life where
  starter : Option ℕ
  idle : Bool
  live : ℕ → Bool

def Shared.marks (s : Shared) : Marks :=
  { s.life with
    starter := s.startLock
    idle := decide (s.app.pipelineState = .idle)
    live := s.live }

/-- What a thread is still going to do to the pipeline and to its reported state. -/
inductive MarkPhase
  | quiet
  /-- Boot before `set_refs`. -/
  | booting
  /-- A `/start` that has set the flag and not yet looked at the refs. -/
  | starting
  /-- The refs are set; is going to call `start_pipeline`, or to look at the flag first. -/
  | requested
  /-- Holds the start lock and is about to detach the pipeline it replaces. -/
  | locked
  | tearing (old : ℕ)
  /-- Is about to look at the flag. -/
  | detached
  | building
  | installed (p : ℕ)
  /-- The pipeline plays; is about to mark it. -/
  | marking
  /-- Is about to leave `start_pipeline`. -/
  | leaving
  /-- Is about to leave `start_pipeline` with an exception, and then marks idle. -/
  | failed
  /-- Is about to mark idle. -/
  | idling
  | stopping
  | detaching
  /-- A stop that tears its pipeline down, and then marks idle. -/
  | stopTearing (old : ℕ)
  /-- A stop that found no pipeline, and then marks idle. -/
  | stopEmpty
  /-- The watchdog is about to mark the pipeline stalled. -/
  | stalling
  /-- Is the callback of pipeline `p`. -/
  | delivering (p : ℕ)
  /-- A `/start` that is about to write settings that cannot be encoded. -/
  | perishing
  /-- A `/stop` that is about to write settings that cannot be encoded. -/
  | abandoning
  deriving DecidableEq

namespace MarkPhase

/-- The phases under `_pipeline_lock`. -/
def inside : MarkPhase → Bool
  | building | installed _ | marking | detaching => true
  | _ => false

/-- The phases under `_start_lock`. -/
def holdsStart : MarkPhase → Bool
  | locked | tearing _ | detached | building | installed _ | marking | leaving | failed => true
  | _ => false

/-- The phases that only a process with refs reaches. -/
def ready : MarkPhase → Bool
  | requested | locked | tearing _ | detached | building | installed _ | marking | stalling => true
  | _ => false

/-- Is going to detach whatever pipeline is installed. -/
def detaches : MarkPhase → Bool
  | starting | requested | locked | stalling | perishing => true
  | _ => false

/-- Has installed a pipeline and is going to mark it. -/
def plays : MarkPhase → Bool
  | installed _ | marking => true
  | _ => false

/-- Is going to look at the flag, and installs a pipeline or fails if it is active. -/
def starts : MarkPhase → Bool
  | booting | starting | requested | locked | tearing _ | detached | building | perishing => true
  | _ => false

/-- Is going to mark idle. -/
def idles : MarkPhase → Bool
  | failed | idling | stopTearing _ | stopEmpty => true
  | _ => false

/-- Has dropped the flag and, unless it is raised again, is going to mark idle. -/
def stops : MarkPhase → Bool
  | stopping | detaching | abandoning => true
  | _ => false

/-- A handler in phase `q` is one in phase `p` whose save is going to raise. -/
inductive Doomed : MarkPhase → MarkPhase → Prop
  | start : Doomed starting perishing
  | stop : Doomed stopping abandoning

end MarkPhase

def StartPc.markPhase : StartPc → MarkPhase
  | .lockStart => .requested
  | .detach => .locked
  | .teardown old => .tearing old
  | .check _ => .detached
  | .clear _ | .drain _ | .build _ => .building
  | .play _ p => .installed p
  | .stamp _ | .mark _ _ => .marking
  | .unlock none => .leaving
  | .unlock (some _) => .failed

def Outcome.markPhase : Outcome → MarkPhase
  | .running pc => pc.markPhase
  | .returned none => .quiet
  | .returned (some _) => .idling

def Thread.markPhase : Thread → MarkPhase
  | .boot .setRefs => .booting
  | .boot .startThreads | .boot .checkActive => .requested
  | .boot .defer | .boot (.failed _) => .idling
  | .start (.persist (.write saved)) => if saved.encodable then .starting else .perishing
  | .stop (.persist (.write saved)) => if saved.encodable then .stopping else .abandoning
  | .start (.persist _) | .start .callback => .starting
  | .start (.failed _) => .idling
  | .watchdog _ .stalled => .stalling
  | .watchdog _ .request => .requested
  | .watchdog _ (.failed _) => .idling
  | .boot (.pipeline pc) | .watchdog _ (.pipeline pc) | .start (.pipeline pc) => pc.markPhase
  | .stop (.persist _) | .stop .check => .stopping
  | .stop .detach => .detaching
  | .stop (.teardown (some old)) => .stopTearing old
  | .stop (.teardown none) => .stopEmpty
  | .stop .mark => .idling
  | .frame p _ (.push _) | .frame p _ .update | .frame p _ .signal => .delivering p
  | _ => .quiet

/-- Whether the save of a start is going to raise shows before it is written. -/
theorem markPhase_start_write (saved : Saved) :
    (Thread.start (.persist (.write saved))).markPhase =
      if saved.encodable then .starting else .perishing := rfl

theorem markPhase_stop_write (saved : Saved) :
    (Thread.stop (.persist (.write saved))).markPhase =
      if saved.encodable then .stopping else .abandoning := rfl

/-- One step of thread `i`. -/
inductive MarkStep (i : ℕ) (k : Choice) : Marks → MarkPhase → Marks → MarkPhase → Prop
  | stay (m : Marks) (p : MarkPhase) : MarkStep i k m p m p
  | setRefs (m : Marks) : MarkStep i k m .booting { m with refs := true } .requested
  | raise (m : Marks) : MarkStep i k m .quiet { m with active := true } .starting
  /-- Without refs a start leaves the rest to boot. -/
  | unready (m : Marks) {p : MarkPhase} (hp : p = .starting ∨ p = .requested)
      (h : m.refs = false) : MarkStep i k m p m .quiet
  | request (m : Marks) (h : m.refs = true) : MarkStep i k m .starting m .requested
  /-- Boot finds the flag inactive. -/
  | defer (m : Marks) (h : m.active = false) : MarkStep i k m .requested m .idling
  /-- The watchdog finds a pipeline without frames. -/
  | look (m : Marks) (h : m.pipeline ≠ none) : MarkStep i k m .quiet m .stalling
  | stall (m : Marks) : MarkStep i k m .stalling { m with idle := false } .requested
  | lock (m : Marks) (h : m.starter = none) :
      MarkStep i k m .requested { m with starter := some i } .locked
  | replace (m : Marks) (old : ℕ) (h : m.lock = none) (hp : m.pipeline = some old) :
      MarkStep i k m .locked { m with pipeline := none } (.tearing old)
  | absent (m : Marks) (hp : m.pipeline = none) : MarkStep i k m .locked m .detached
  | torn (m : Marks) (old : ℕ) : MarkStep i k m (.tearing old)
      { m with live := Function.update m.live old false } .detached
  | pass (m : Marks) (h : m.lock = none) (ha : m.active = true) :
      MarkStep i k m .detached { m with lock := some i } .building
  | skip (m : Marks) (ha : m.active = false) : MarkStep i k m .detached m .leaving
  | install (m : Marks) (p : ℕ) :
      MarkStep i k m .building { m with pipeline := some p } (.installed p)
  | fail (m : Marks) : MarkStep i k m .building { m with lock := none } .failed
  | play (m : Marks) (p : ℕ) : MarkStep i k m (.installed p)
      { m with live := Function.update m.live p true } .marking
  | mark (m : Marks) : MarkStep i k m .marking { m with lock := none, idle := false } .leaving
  | leave (m : Marks) : MarkStep i k m .leaving { m with starter := none } .quiet
  | raiseError (m : Marks) : MarkStep i k m .failed { m with starter := none } .idling
  | markIdle (m : Marks) : MarkStep i k m .idling { m with idle := true } .quiet
  | drop (m : Marks) : MarkStep i k m .quiet { m with active := false } .stopping
  /-- A stop finds the flag of a newer start. -/
  | stale (m : Marks) (ha : m.active = true) : MarkStep i k m .stopping m .quiet
  | stop (m : Marks) (h : m.lock = none) (ha : m.active = false) :
      MarkStep i k m .stopping { m with lock := some i } .detaching
  | detach (m : Marks) (old : ℕ) (hp : m.pipeline = some old) :
      MarkStep i k m .detaching { m with pipeline := none, lock := none } (.stopTearing old)
  | detachNone (m : Marks) (hp : m.pipeline = none) :
      MarkStep i k m .detaching { m with lock := none } .stopEmpty
  | stopTorn (m : Marks) (old : ℕ) : MarkStep i k m (.stopTearing old)
      { m with live := Function.update m.live old false } .idling
  | stopDone (m : Marks) : MarkStep i k m .stopEmpty m .idling
  | begin (m : Marks) (p : ℕ) : MarkStep i k m .quiet m (.delivering p)
  | stream (m : Marks) (p : ℕ) (ha : m.active = true) :
      MarkStep i k m (.delivering p) { m with idle := false } (.delivering p)
  | finish (m : Marks) (p : ℕ) : MarkStep i k m (.delivering p) m .quiet
  /-- A handler has read settings that cannot be encoded. -/
  | doom (m : Marks) {p q : MarkPhase} (h : p.Doomed q) : MarkStep i k m p m q
  /-- An `OSError` comes before the encoder. -/
  | spare (m : Marks) {p q : MarkPhase} (h : p.Doomed q) (hk : k = .ioError) : MarkStep i k m q m p
  | perish (m : Marks) {p q : MarkPhase} (h : p.Doomed q) (hk : k ≠ .ioError) :
      MarkStep i k m q m .quiet

/-! ## The analyzer's steps are steps of this system -/

section Refines

variable {cfg : Config} {i : ℕ} {s s' : Shared} {k : Choice}

theorem MarkStep.of_eq {m m' : Marks} {p p' : MarkPhase} (hm : m' = m) (hp : p' = p) :
    MarkStep i k m p m' p' := by
  rw [hm, hp]
  exact .stay m p

theorem PipelineSame.marks (h : PipelineSame s s') : s'.marks = s.marks := by
  simp only [Shared.marks, h.life, h.startLock, h.state, h.live]

theorem teardown_marks {p : ℕ} (h : s.teardown p = some s') :
    s'.marks = { s.marks with live := Function.update s.live p false } := by
  simp only [Shared.teardown] at h
  split at h
  · cases h
  · cases h
    rfl

theorem startNext_marks {reason : String} {pc : StartPc} {o : Outcome}
    (h : startNext i s k reason pc = some (s', o)) :
    MarkStep i k s.marks pc.markPhase s'.marks o.markPhase := by
  cases pc with
  | lockStart =>
      simp only [startNext] at h
      split at h
      · rename_i hl
        cases h
        exact .lock s.marks hl
      · cases h
  | detach =>
      simp only [startNext] at h
      split at h
      · rename_i hl
        cases hp : s.pipeline with
        | none =>
            rw [hp] at h
            cases h
            have hsame : ({ s with pipeline := none } : Shared) = s := by rw [← hp]
            rw [hsame]
            exact .absent s.marks hp
        | some old =>
            rw [hp] at h
            cases h
            exact .replace s.marks old hl hp
      · cases h
  | teardown old =>
      obtain ⟨a, ha, heq⟩ := Option.map_eq_some_iff.mp h
      cases heq
      rw [teardown_marks ha]
      exact .torn s.marks old
  | check restart =>
      obtain ⟨a, ha, heq⟩ := Option.map_eq_some_iff.mp h
      obtain ⟨hl, rfl⟩ := lockPipeline_some ha
      cases hactive : s.app.analysisActive with
      | true =>
          rw [if_pos hactive] at heq
          cases heq
          exact .pass s.marks hl hactive
      | false =>
          rw [if_neg (by rw [hactive]; exact Bool.false_ne_true)] at heq
          cases heq
          exact .skip s.marks hactive
  | clear restart | drain restart =>
      cases h
      exact .stay s.marks .building
  | build restart =>
      simp only [startNext] at h
      split at h
      · cases h
        exact .fail s.marks
      · cases h
        exact .install s.marks s.built
  | play restart p =>
      cases h
      exact .play s.marks p
  | stamp restart =>
      cases h
      exact .stay s.marks .marking
  | mark restart now =>
      cases h
      cases restart <;> exact .mark s.marks
  | unlock failure =>
      cases h
      cases failure with
      | none => exact .leave s.marks
      | some cause => exact .raiseError s.marks

theorem bootNext_marks {pc pc' : BootPc} (h : bootNext i s k pc = some (s', pc')) :
    MarkStep i k s.marks (Thread.boot pc).markPhase s'.marks (Thread.boot pc').markPhase := by
  cases pc with
  | setRefs =>
      cases h
      exact .setRefs s.marks
  | startThreads =>
      cases h
      exact .stay s.marks .requested
  | checkActive =>
      cases h
      cases hactive : s.app.analysisActive with
      | true =>
          rw [if_pos rfl]
          exact .stay s.marks .requested
      | false =>
          rw [if_neg Bool.false_ne_true]
          exact .defer s.marks hactive
  | defer | failed cause =>
      cases h
      exact .markIdle s.marks
  | pipeline pc =>
      obtain ⟨⟨a, o⟩, ha, heq⟩ := Option.map_eq_some_iff.mp h
      cases heq
      have hmarks := startNext_marks ha
      rcases o with pc' | ⟨_ | cause⟩ <;> exact hmarks
  | done => cases h

theorem watchdogNext_marks {timeout timeout' : ℚ} {pc pc' : WatchdogPc}
    (h : watchdogNext i s k timeout pc = some (s', timeout', pc')) :
    MarkStep i k s.marks (Thread.watchdog timeout pc).markPhase s'.marks
      (Thread.watchdog timeout' pc').markPhase := by
  cases pc with
  | notStarted =>
      simp only [watchdogNext] at h
      split at h
      · cases h
        exact .stay _ .quiet
      · cases h
  | sleep =>
      simp only [watchdogNext] at h
      split at h
      · cases h
        split
        · rename_i hlook
          refine .look _ fun hnone => ?_
          -- without a pipeline it does not restart
          have hp : s.pipeline = none := hnone
          rw [watchdogLook, if_pos hp] at hlook
          cases hlook
        · exact .stay _ .quiet
      · cases h
  | stalled =>
      cases h
      exact .stall s.marks
  | request =>
      cases h
      cases hrefs : s.refs with
      | true =>
          rw [if_pos rfl]
          exact .stay _ .requested
      | false =>
          rw [if_neg Bool.false_ne_true]
          exact .unready _ (.inr rfl) hrefs
  | pipeline pc =>
      obtain ⟨⟨a, o⟩, ha, heq⟩ := Option.map_eq_some_iff.mp h
      cases heq
      have hmarks := startNext_marks ha
      rcases o with pc' | ⟨_ | cause⟩ <;> exact hmarks
  | failed cause =>
      cases h
      exact .markIdle s.marks

/-- The handler that runs `persist_settings` goes on, dies of it, or is about to. -/
theorem SavePhase.marks {m m' : Marks} {p q p' q' : MarkPhase} (h : SavePhase k p q .quiet p' q')
    (hpq : p.Doomed q) (hm : m' = m) : MarkStep i k m p' m' q' := by
  rw [hm]
  cases h with
  | stay => exact .stay m p
  | doom => exact .doom m hpq
  | spare hk => exact .spare m hpq hk
  | perish hk => exact .perish m hpq hk

theorem startHandlerNext_marks {pc pc' : StartHandlerPc}
    (h : startHandlerNext i s k pc = some (s', pc')) :
    MarkStep i k s.marks (Thread.start pc).markPhase s'.marks (Thread.start pc').markPhase := by
  cases pc with
  | setActive =>
      cases h
      exact .raise s.marks
  | persist pc =>
      cases h
      refine (persistNext_phase s Thread.markPhase (fun pc => .start (.persist pc)) (.start .callback)
        (.start (.finished .dropped)) pc (fun pc' hpc => ?_) (fun _ => rfl) rfl rfl ?_).marks .start
        (persistNext_pipeline pc).marks
      · cases pc' <;> first | rfl | exact absurd rfl (hpc _)
      · cases (persistNext s k pc).2 <;> rfl
  | callback =>
      cases h
      cases hrefs : s.refs with
      | true =>
          rw [if_pos rfl]
          exact .request _ hrefs
      | false =>
          rw [if_neg Bool.false_ne_true]
          exact .unready _ (.inl rfl) hrefs
  | pipeline pc =>
      obtain ⟨⟨a, o⟩, ha, heq⟩ := Option.map_eq_some_iff.mp h
      cases heq
      have hmarks := startNext_marks ha
      rcases o with pc' | ⟨_ | cause⟩ <;> exact hmarks
  | failed cause =>
      cases h
      exact .markIdle s.marks
  | finished r => cases h

theorem stopHandlerNext_marks {pc pc' : StopHandlerPc}
    (h : stopHandlerNext i s k pc = some (s', pc')) :
    MarkStep i k s.marks (Thread.stop pc).markPhase s'.marks (Thread.stop pc').markPhase := by
  cases pc with
  | setActive =>
      cases h
      exact .drop s.marks
  | persist pc =>
      cases h
      refine (persistNext_phase s Thread.markPhase (fun pc => .stop (.persist pc)) (.stop .check)
        (.stop .finished) pc (fun pc' hpc => ?_) (fun _ => rfl) rfl rfl ?_).marks .stop
        (persistNext_pipeline pc).marks
      · cases pc' <;> first | rfl | exact absurd rfl (hpc _)
      · cases (persistNext s k pc).2 <;> rfl
  | check =>
      obtain ⟨a, ha, heq⟩ := Option.map_eq_some_iff.mp h
      obtain ⟨hl, rfl⟩ := lockPipeline_some ha
      cases hactive : s.app.analysisActive with
      | true =>
          rw [if_pos hactive] at heq
          cases heq
          exact .stale s.marks hactive
      | false =>
          rw [if_neg (by rw [hactive]; exact Bool.false_ne_true)] at heq
          cases heq
          exact .stop s.marks hl hactive
  | detach =>
      cases h
      cases hp : s.pipeline with
      | none =>
          have hsame : ({ s.unlockPipeline with pipeline := none } : Shared) = s.unlockPipeline := by
            simp only [Shared.unlockPipeline, hp]
          rw [hsame]
          exact .detachNone s.marks hp
      | some old => exact .detach s.marks old hp
  | teardown old =>
      cases old with
      | none =>
          cases h
          exact .stopDone _
      | some p =>
          obtain ⟨a, ha, heq⟩ := Option.map_eq_some_iff.mp h
          cases heq
          rw [teardown_marks ha]
          exact .stopTorn s.marks p
  | mark =>
      cases h
      exact .markIdle s.marks
  | finished => cases h

theorem frameNext_marks {p img : ℕ} {pc pc' : FramePc}
    (h : frameNext cfg s p img pc = some (s', pc')) :
    MarkStep i k s.marks (Thread.frame p img pc).markPhase s'.marks
      (Thread.frame p img pc').markPhase := by
  cases pc with
  | begin =>
      simp only [frameNext] at h
      split at h
      · cases h
        exact .begin s.marks p
      · cases h
  | push t =>
      cases h
      exact .stay s.marks (.delivering p)
  | update =>
      cases h
      cases hactive : s.app.analysisActive with
      | true =>
          have hmarks : ({ s with app := s.app.updateFrame s.now } : Shared).marks =
              { s.marks with idle := false } := by
            simp [Shared.marks, Shared.life, AppState.updateFrame, hactive]
          rw [hmarks]
          exact .stream s.marks p hactive
      | false =>
          have hsame : s.app.updateFrame s.now = s.app := by
            rw [AppState.updateFrame, if_neg (by rw [hactive]; exact Bool.false_ne_true)]
          rw [hsame]
          exact .stay s.marks (.delivering p)
  | signal =>
      cases h
      exact .finish s.marks p
  | done => cases h

/-- Every step of the analyzer is a step of the lifecycle with its marks. -/
theorem next_marks {t t' : Thread} (hn : next cfg i s t k = some (s', t')) :
    MarkStep i k s.marks t.markPhase s'.marks t'.markPhase := by
  cases t with
  | boot pc =>
      obtain ⟨pc', hstep, rfl⟩ := next_boot hn
      exact bootNext_marks hstep
  | worker last failures pc =>
      obtain ⟨last', failures', pc', hstep, rfl⟩ := next_worker hn
      exact .of_eq (workerNext_pipeline hstep).marks rfl
  | watchdog timeout pc =>
      obtain ⟨timeout', pc', hstep, rfl⟩ := next_watchdog hn
      exact watchdogNext_marks hstep
  | prompt b pc =>
      obtain ⟨pc', hstep, rfl⟩ := next_prompt hn
      exact .of_eq (promptNext_pipeline hstep).marks rfl
  | presets b pc =>
      obtain ⟨pc', hstep, rfl⟩ := next_presets hn
      exact .of_eq (presetsNext_pipeline hstep).marks rfl
  | start pc =>
      obtain ⟨pc', hstep, rfl⟩ := next_start hn
      exact startHandlerNext_marks hstep
  | stop pc =>
      obtain ⟨pc', hstep, rfl⟩ := next_stop hn
      exact stopHandlerNext_marks hstep
  | frame p img pc =>
      obtain ⟨pc', hstep, rfl⟩ := next_frame hn
      exact frameNext_marks hstep

theorem marks_refines (cfg : Config) :
    Phases (analyzer cfg) Shared.marks Thread.markPhase .quiet MarkStep
      fun a b => b = a where
  enter r := by cases r <;> rfl
  next hn := next_marks hn
  env hx := (env_pipeline hx).marks

end Refines

/-! ## The start lock -/

section StartLock

variable {i : ℕ} {k : Choice} {m m' : Marks} {p p' : MarkPhase}

/-- A step from outside stays outside or takes the free start lock. -/
theorem MarkStep.outside (h : MarkStep i k m p m' p') (hout : p.holdsStart = false) :
    (m'.starter = m.starter ∧ p'.holdsStart = false) ∨
      (m.starter = none ∧ m'.starter = some i ∧ p'.holdsStart = true) := by
  cases h with
  | stay => exact .inl ⟨rfl, hout⟩
  | lock h => exact .inr ⟨h, rfl, rfl⟩
  | setRefs | raise | unready | request | defer | look | stall | markIdle | drop | stale | stop
  | detach | detachNone | stopTorn | stopDone | begin | stream | finish | perish =>
      exact .inl ⟨rfl, rfl⟩
  | doom h | spare h => cases h <;> exact .inl ⟨rfl, rfl⟩
  | replace | absent | torn | pass | skip | install | fail | play | mark | leave | raiseError =>
      cases hout

/-- A step from inside stays inside or releases the start lock. -/
theorem MarkStep.within (h : MarkStep i k m p m' p') (hin : p.holdsStart = true) :
    (m'.starter = m.starter ∧ p'.holdsStart = true) ∨
      (m'.starter = none ∧ p'.holdsStart = false) := by
  cases h with
  | stay => exact .inl ⟨rfl, hin⟩
  | replace | absent | torn | pass | skip | install | fail | play | mark =>
      exact .inl ⟨rfl, rfl⟩
  | leave | raiseError => exact .inr ⟨rfl, rfl⟩
  | unready hp => rcases hp with rfl | rfl <;> cases hin
  | doom h | spare h | perish h => cases h <;> cases hin
  | lock | setRefs | raise | request | defer | look | stall | markIdle | drop | stale | stop
  | detach | detachNone | stopTorn | stopDone | begin | stream | finish => cases hin

end StartLock

/-- `_start_lock` protects the phases of `start_pipeline`. -/
theorem start_mutex (cfg : Config) :
    Mutex (analyzer cfg) Shared.startLock fun t => t.markPhase.holdsStart where
  enter r := by cases r <;> rfl
  outside hn hout := (next_marks hn).outside hout
  within hn hin := (next_marks hn).within hin
  env hx := (env_pipeline hx).startLock

/-! ## Marks and what is installed -/

/-- What is reported is true, or a thread is in progress that will put it right. -/
structure MarkInv (m : Marks) (ps : List MarkPhase) : Prop where
  booting : m.refs = false → .booting ∈ ps
  ready : (∃ q ∈ ps, q.ready = true) ∨ m.pipeline ≠ none → m.refs = true
  /-- Nothing is installed between the detaching of a start and its own pipeline. -/
  empty : ∀ q ∈ ps, (∃ old, q = .tearing old) ∨ q = .detached ∨ q = .building →
    m.pipeline = none
  installed : ∀ p, .installed p ∈ ps → m.pipeline = some p
  marking : .marking ∈ ps → m.pipeline ≠ none
  live : ∀ p, m.live p = true →
    m.pipeline = some p ∨ .tearing p ∈ ps ∨ .stopTearing p ∈ ps
  /-- Idle is reported of a pipeline only while it is about to be marked, detached or stopped. -/
  present : m.pipeline ≠ none → m.idle = true →
    m.active = false ∨ (∃ q ∈ ps, q.plays = true) ∨ ∃ q ∈ ps, q.detaches = true
  /-- Something else than idle is reported of no pipeline only while idle is about to be marked,
      or a start or a stop has yet to see to it. -/
  absent : m.pipeline = none → m.idle = false →
    (∃ q ∈ ps, q.idles = true) ∨ (m.active = true ∧ ∃ q ∈ ps, q.starts = true) ∨
      (m.active = false ∧ ∃ q ∈ ps, q.stops = true)

/-- What is known of a step besides `MarkStep`. -/
structure MarkContext (i : ℕ) (k : Choice) (m : Marks) (p : MarkPhase) (ps : List MarkPhase) : Prop where
  get : ps[i]? = some p
  lock : ∀ (j : ℕ) q, ps[j]? = some q → q.inside = true → m.lock = some j
  starter : ∀ (j : ℕ) q, ps[j]? = some q → q.holdsStart = true → m.starter = some j
  /-- An inactive flag with a pipeline: the stop that dropped it has yet to look. -/
  stop : m.active = false → m.pipeline ≠ none → ∃ q ∈ ps, q.stops = true
  delivering : ∀ q, .delivering q ∈ ps → m.live q = true
  /-- An idle mark finds no pipeline, or one that is not left to itself. -/
  idling : p = .idling → m.pipeline = none ∨ m.active = false ∨
    (∃ q ∈ ps, q.plays = true) ∨ ∃ q ∈ ps, q.detaches = true
  /-- A stalled mark finds a pipeline, or what will mark idle after it. -/
  stalling : p = .stalling → m.pipeline ≠ none ∨ m.active = true ∨
    (∃ q ∈ ps, q.idles = true) ∨ ∃ q ∈ ps, q.stops = true
  /-- No save raises. -/
  saves : ∀ {q : MarkPhase}, q.Doomed p → k = .ioError

section Step

variable {i : ℕ} {k : Choice} {m m' : Marks} {p p' : MarkPhase} {ps : List MarkPhase}

/-- A phase with property `f` is still there unless it was the one that moved. -/
theorem MarkContext.keep (hc : MarkContext i k m p ps) {f : MarkPhase → Bool} (hp : f p = false)
    (h : ∃ q ∈ ps, f q = true) : ∃ q ∈ ps.set i p', f q = true :=
  exists_mem_set hc.get h (by rw [hp]; exact Bool.false_ne_true)

theorem MarkContext.keep_mem (hc : MarkContext i k m p ps) {q : MarkPhase} (hne : p ≠ q)
    (h : q ∈ ps) : q ∈ ps.set i p' := by
  obtain ⟨v, hv, rfl⟩ := exists_mem_set (Q := (· = q)) hc.get ⟨q, h, rfl⟩ hne
  exact hv

theorem MarkContext.self (hc : MarkContext i k m p ps) {f : MarkPhase → Bool} (hp : f p' = true) :
    ∃ q ∈ ps.set i p', f q = true :=
  ⟨p', mem_set_self hc.get, hp⟩

/-- A phase after the step is the one of the thread that moved or of another thread. -/
theorem MarkContext.moved (hc : MarkContext i k m p ps) {q : MarkPhase} (h : q ∈ ps.set i p') :
    q = p' ∨ ∃ j, j ≠ i ∧ ps[j]? = some q := by
  obtain ⟨j, hj⟩ := List.mem_iff_getElem?.mp h
  rcases getElem?_set_cases hc.get hj with ⟨-, rfl⟩ | ⟨hne, hj⟩
  · exact .inl rfl
  · exact .inr ⟨j, hne, hj⟩

/-- While a thread is under `_pipeline_lock`, no other one is. -/
theorem MarkContext.one_inside (hc : MarkContext i k m p ps) (hin : p.inside = true) {j : ℕ}
    {q : MarkPhase} (hne : j ≠ i) (hj : ps[j]? = some q) : q.inside = false := by
  cases hq : q.inside with
  | false => rfl
  | true =>
      have hlock := (hc.lock j q hj hq).symm.trans (hc.lock i p hc.get hin)
      exact absurd (Option.some.inj hlock) hne

theorem MarkContext.not_inside (hc : MarkContext i k m p ps) (hfree : m.lock = none)
    {q : MarkPhase} (hq : q ∈ ps) : q.inside = false := by
  obtain ⟨j, hj⟩ := List.mem_iff_getElem?.mp hq
  cases hin : q.inside with
  | false => rfl
  | true =>
      have hlock := hc.lock j q hj hin
      rw [hfree] at hlock
      cases hlock

/-- While a thread is under `_start_lock`, no other one is. -/
theorem MarkContext.one_starter (hc : MarkContext i k m p ps) (hin : p.holdsStart = true) {j : ℕ}
    {q : MarkPhase} (hne : j ≠ i) (hj : ps[j]? = some q) : q.holdsStart = false := by
  cases hq : q.holdsStart with
  | false => rfl
  | true =>
      have hlock := (hc.starter j q hj hq).symm.trans (hc.starter i p hc.get hin)
      exact absurd (Option.some.inj hlock) hne

theorem MarkContext.mem (hc : MarkContext i k m p ps) : p ∈ ps := List.mem_of_getElem? hc.get

theorem MarkContext.set_same (hc : MarkContext i k m p ps) : ps.set i p = ps := by
  obtain ⟨hi, rfl⟩ := List.getElem?_eq_some_iff.mp hc.get
  exact List.set_getElem_self hi

theorem MarkInv.step_booting (h : MarkInv m ps) (hs : MarkStep i k m p m' p')
    (hc : MarkContext i k m p ps) : m'.refs = false → .booting ∈ ps.set i p' := by
  intro hrefs
  cases hs with
  | stay =>
      rw [hc.set_same]
      exact h.booting hrefs
  | setRefs => cases hrefs
  | unready hp => exact hc.keep_mem (by rcases hp with rfl | rfl <;> decide) (h.booting hrefs)
  | doom hd | spare hd => exact hc.keep_mem (by cases hd <;> decide) (h.booting hrefs)
  | perish hd => exact hc.keep_mem (by cases hd <;> decide) (h.booting hrefs)
  | raise | request | defer | look | stall | lock | replace | absent | torn | pass | skip | install
  | fail | play | mark | leave | raiseError | markIdle | drop | stale | stop | detach | detachNone
  | stopTorn | stopDone | begin | stream | finish => exact hc.keep_mem (by simp) (h.booting hrefs)

/-- Refs are set once, and whoever needs them has seen them. -/
theorem MarkInv.step_ready (h : MarkInv m ps) (hs : MarkStep i k m p m' p')
    (hc : MarkContext i k m p ps) :
    (∃ q ∈ ps.set i p', q.ready = true) ∨ m'.pipeline ≠ none → m'.refs = true := by
  have hold : p'.ready = false ∨ p.ready = true → (∃ q ∈ ps.set i p', q.ready = true) →
      m.refs = true := by
    rintro hp ⟨q, hq, hready⟩
    rcases List.mem_or_eq_of_mem_set hq with hq | rfl
    · exact h.ready (.inl ⟨q, hq, hready⟩)
    · rcases hp with hp | hp
      · rw [hp] at hready
        cases hready
      · exact h.ready (.inl ⟨p, hc.mem, hp⟩)
  rintro (hex | hp)
  · cases hs with
    | setRefs => rfl
    | stay =>
        rw [hc.set_same] at hex
        exact h.ready (.inl hex)
    | request hrefs => exact hrefs
    | look hpipe => exact h.ready (.inr hpipe)
    | raise | unready | defer | drop | stale | stop | detach | detachNone | stopTorn | stopDone
    | begin | stream | finish | leave | raiseError | markIdle | perish => exact hold (.inl rfl) hex
    | doom hd | spare hd => exact hold (.inl (by cases hd <;> rfl)) hex
    | stall | lock | replace | absent | torn | pass | skip | install | fail | play | mark =>
        exact hold (.inr rfl) hex
  · cases hs with
    | setRefs => rfl
    | install => exact h.ready (.inl ⟨_, hc.mem, rfl⟩)
    | replace | detach => exact absurd rfl hp
    | stay | request | look | raise | unready | defer | drop | stale | stop | detachNone
    | stopTorn | stopDone | begin | stream | finish | leave | raiseError | markIdle | stall | lock
    | absent | torn | pass | skip | fail | play | mark | doom | spare | perish =>
        exact h.ready (.inr hp)

/-- From the detaching of a start to its installation nothing is installed. -/
theorem MarkInv.step_empty (h : MarkInv m ps) (hs : MarkStep i k m p m' p')
    (hc : MarkContext i k m p ps) :
    ∀ q ∈ ps.set i p', (∃ old, q = .tearing old) ∨ q = .detached ∨ q = .building →
      m'.pipeline = none := by
  intro q hq hphase
  have hold : ((∃ old, p' = .tearing old) ∨ p' = .detached ∨ p' = .building → m.pipeline = none) →
      m.pipeline = none := by
    intro hself
    rcases List.mem_or_eq_of_mem_set hq with hq | rfl
    · exact h.empty q hq hphase
    · exact hself hphase
  cases hs with
  | stay => exact hold (h.empty p hc.mem)
  | replace | detach => rfl
  | absent hnone => exact hnone
  | torn old => exact hold fun _ => h.empty _ hc.mem (.inl ⟨old, rfl⟩)
  | pass => exact hold fun _ => h.empty _ hc.mem (.inr (.inl rfl))
  | install n =>
      -- another start in progress would hold the start lock as well
      rcases hc.moved hq with rfl | ⟨j, hne, hj⟩
      · simp at hphase
      · have hstart := hc.one_starter rfl hne hj
        rcases hphase with ⟨old, rfl⟩ | rfl | rfl <;> cases hstart
  | setRefs | raise | unready | request | defer | look | stall | lock | skip | fail | play | mark
  | leave | raiseError | markIdle | drop | stale | stop | detachNone | stopTorn | stopDone | begin
  | stream | finish | perish => exact hold (by simp)
  | doom hd | spare hd => exact hold (by cases hd <;> simp)

theorem MarkInv.step_installed (h : MarkInv m ps) (hs : MarkStep i k m p m' p')
    (hc : MarkContext i k m p ps) (r : ℕ) (hr : .installed r ∈ ps.set i p') :
    m'.pipeline = some r := by
  have hold : p' ≠ .installed r → m.pipeline = some r := by
    intro hne
    exact h.installed r ((List.mem_or_eq_of_mem_set hr).resolve_right (Ne.symm hne))
  cases hs with
  | stay =>
      rw [hc.set_same] at hr
      exact h.installed r hr
  | install n =>
      rcases hc.moved hr with heq | ⟨j, hne, hj⟩
      · cases heq
        rfl
      · cases hc.one_starter rfl hne hj
  | replace old hfree =>
      have hmem := (List.mem_or_eq_of_mem_set hr).resolve_right (by simp)
      cases hc.not_inside hfree hmem
  | detach old =>
      rcases hc.moved hr with heq | ⟨j, hne, hj⟩
      · cases heq
      · cases hc.one_inside rfl hne hj
  | setRefs | raise | unready | request | defer | look | stall | lock | absent | torn | pass | skip
  | fail | play | mark | leave | raiseError | markIdle | drop | stale | stop | detachNone
  | stopTorn | stopDone | begin | stream | finish | perish => exact hold (by simp)
  | doom hd | spare hd => exact hold (by cases hd <;> simp)

theorem MarkInv.step_marking (h : MarkInv m ps) (hs : MarkStep i k m p m' p')
    (hc : MarkContext i k m p ps) (hr : .marking ∈ ps.set i p') : m'.pipeline ≠ none := by
  have hold : p' ≠ .marking → m.pipeline ≠ none := by
    intro hne
    exact h.marking ((List.mem_or_eq_of_mem_set hr).resolve_right (Ne.symm hne))
  cases hs with
  | stay =>
      rw [hc.set_same] at hr
      exact h.marking hr
  | install n => exact Option.some_ne_none n
  | play n =>
      rw [show m.pipeline = some n from h.installed n hc.mem]
      exact Option.some_ne_none n
  | replace old hfree =>
      have hmem := (List.mem_or_eq_of_mem_set hr).resolve_right (by simp)
      cases hc.not_inside hfree hmem
  | detach old =>
      rcases hc.moved hr with heq | ⟨j, hne, hj⟩
      · cases heq
      · cases hc.one_inside rfl hne hj
  | setRefs | raise | unready | request | defer | look | stall | lock | absent | torn | pass | skip
  | fail | mark | leave | raiseError | markIdle | drop | stale | stop | detachNone | stopTorn
  | stopDone | begin | stream | finish | perish => exact hold (by simp)
  | doom hd | spare hd => exact hold (by cases hd <;> simp)

/-- A live pipeline is the installed one or is being torn down. -/
theorem MarkInv.step_live (h : MarkInv m ps) (hs : MarkStep i k m p m' p')
    (hc : MarkContext i k m p ps) (r : ℕ) (hr : m'.live r = true) :
    m'.pipeline = some r ∨ .tearing r ∈ ps.set i p' ∨ .stopTearing r ∈ ps.set i p' := by
  -- who tears the pipeline down goes on doing so
  have hkeep : p ≠ .tearing r → p ≠ .stopTearing r → .tearing r ∈ ps ∨ .stopTearing r ∈ ps →
      .tearing r ∈ ps.set i p' ∨ .stopTearing r ∈ ps.set i p' :=
    fun hne hne' => Or.imp (hc.keep_mem hne) (hc.keep_mem hne')
  have hself : p' ∈ ps.set i p' := mem_set_self hc.get
  cases hs with
  | stay =>
      rw [hc.set_same]
      exact h.live r hr
  | replace old _ hp =>
      rcases h.live r hr with hpipe | htear
      · obtain rfl : old = r := Option.some.inj (hp.symm.trans hpipe)
        exact .inr (.inl hself)
      · exact .inr (hkeep (by simp) (by simp) htear)
  | detach old hp =>
      rcases h.live r hr with hpipe | htear
      · obtain rfl : old = r := Option.some.inj (hp.symm.trans hpipe)
        exact .inr (.inr hself)
      · exact .inr (hkeep (by simp) (by simp) htear)
  | install n =>
      rcases h.live r hr with hpipe | htear
      · rw [h.empty _ hc.mem (.inr (.inr rfl))] at hpipe
        cases hpipe
      · exact .inr (hkeep (by simp) (by simp) htear)
  | play n =>
      by_cases hrn : r = n
      · rw [hrn]
        exact .inl (h.installed n hc.mem)
      · have hold : m.live r = true := by simpa [Function.update_of_ne hrn] using hr
        exact (h.live r hold).imp_right (hkeep (by simp) (by simp))
  | torn old =>
      by_cases hro : r = old
      · simp [hro] at hr
      · have hold : m.live r = true := by simpa [Function.update_of_ne hro] using hr
        exact (h.live r hold).imp_right (hkeep (by simpa using Ne.symm hro) (by simp))
  | stopTorn old =>
      by_cases hro : r = old
      · simp [hro] at hr
      · have hold : m.live r = true := by simpa [Function.update_of_ne hro] using hr
        exact (h.live r hold).imp_right (hkeep (by simp) (by simpa using Ne.symm hro))
  | unready hp => exact (h.live r hr).imp_right (hkeep (by rcases hp with rfl | rfl <;> simp)
      (by rcases hp with rfl | rfl <;> simp))
  | doom hd | spare hd | perish hd =>
      exact (h.live r hr).imp_right (hkeep (by cases hd <;> simp) (by cases hd <;> simp))
  | setRefs | raise | request | defer | look | stall | lock | absent | pass | skip | fail | mark
  | leave | raiseError | markIdle | drop | stale | stop | detachNone | stopDone | begin | stream | finish =>
      exact (h.live r hr).imp_right (hkeep (by simp) (by simp))

/-- Idle is not left with an installed pipeline. -/
theorem MarkInv.step_present (h : MarkInv m ps) (hs : MarkStep i k m p m' p')
    (hc : MarkContext i k m p ps) (hp : m'.pipeline ≠ none) (hidle : m'.idle = true) :
    m'.active = false ∨ (∃ q ∈ ps.set i p', q.plays = true) ∨
      ∃ q ∈ ps.set i p', q.detaches = true := by
  have hplays : p.plays = false → (∃ q ∈ ps, q.plays = true) →
      ∃ q ∈ ps.set i p', q.plays = true := fun hno => hc.keep hno
  have hdetaches : p.detaches = false → (∃ q ∈ ps, q.detaches = true) →
      ∃ q ∈ ps.set i p', q.detaches = true := fun hno => hc.keep hno
  cases hs with
  | stay =>
      rw [hc.set_same]
      exact h.present hp hidle
  | raise | setRefs | request | lock => exact .inr (.inr (hc.self rfl))
  | unready _ hrefs =>
      -- whatever is installed was installed with refs
      have hset := h.ready (.inr hp)
      rw [hrefs] at hset
      cases hset
  | defer ha => exact .inl ha
  | drop => exact .inl rfl
  | look => exact .inr (.inr (hc.self rfl))
  | stall | mark | stream => cases hidle
  | replace | detach => exact absurd rfl hp
  | absent hnone => exact absurd hnone hp
  | torn old => exact absurd (h.empty _ hc.mem (.inl ⟨old, rfl⟩)) hp
  | pass | skip => exact absurd (h.empty _ hc.mem (.inr (.inl rfl))) hp
  | fail => exact absurd (h.empty _ hc.mem (.inr (.inr rfl))) hp
  | install | play => exact .inr (.inl (hc.self rfl))
  | markIdle =>
      rcases hc.idling rfl with hnone | ha | hex | hex
      · exact absurd hnone hp
      · exact .inl ha
      · exact .inr (.inl (hplays rfl hex))
      · exact .inr (.inr (hdetaches rfl hex))
  | perish hd hraise => exact absurd (hc.saves hd) hraise
  | doom hd | spare hd =>
      cases hd with
      | start => exact .inr (.inr (hc.self rfl))
      | stop => exact (h.present hp hidle).imp_right (Or.imp (hplays rfl) (hdetaches rfl))
  | leave | raiseError | stale | stop | detachNone | stopTorn | stopDone | begin | finish =>
      exact (h.present hp hidle).imp_right (Or.imp (hplays rfl) (hdetaches rfl))

/-- Nothing but idle is left without a pipeline. -/
theorem MarkInv.step_absent (h : MarkInv m ps) (hs : MarkStep i k m p m' p')
    (hc : MarkContext i k m p ps) (hp : m'.pipeline = none) (hidle : m'.idle = false) :
    (∃ q ∈ ps.set i p', q.idles = true) ∨
      (m'.active = true ∧ ∃ q ∈ ps.set i p', q.starts = true) ∨
      (m'.active = false ∧ ∃ q ∈ ps.set i p', q.stops = true) := by
  have hidles : p.idles = false → (∃ q ∈ ps, q.idles = true) →
      ∃ q ∈ ps.set i p', q.idles = true := fun hno => hc.keep hno
  have hstarts : p.starts = false → (∃ q ∈ ps, q.starts = true) →
      ∃ q ∈ ps.set i p', q.starts = true := fun hno => hc.keep hno
  have hstops : p.stops = false → (∃ q ∈ ps, q.stops = true) →
      ∃ q ∈ ps.set i p', q.stops = true := fun hno => hc.keep hno
  -- a thread that goes on as a start, with the flag as it was
  have hgoes : m.pipeline = none → m.idle = false → p.idles = false → p.stops = false →
      p'.starts = true → (∃ q ∈ ps.set i p', q.idles = true) ∨
        (m.active = true ∧ ∃ q ∈ ps.set i p', q.starts = true) ∨
        (m.active = false ∧ ∃ q ∈ ps.set i p', q.stops = true) := by
    intro hp hidle hi hst hself
    rcases h.absent hp hidle with hex | ⟨ha, -⟩ | ⟨ha, hex⟩
    · exact .inl (hidles hi hex)
    · exact .inr (.inl ⟨ha, hc.self hself⟩)
    · exact .inr (.inr ⟨ha, hstops hst hex⟩)
  cases hs with
  | stay =>
      rw [hc.set_same]
      exact h.absent hp hidle
  | setRefs => exact hgoes hp hidle rfl rfl rfl
  | request | lock | absent | torn | pass => exact hgoes hp hidle rfl rfl rfl
  | raise => exact .inr (.inl ⟨rfl, hc.self rfl⟩)
  | unready hpc hrefs =>
      have hboot : ∃ q ∈ ps.set i MarkPhase.quiet, q.starts = true :=
        ⟨.booting, hc.keep_mem (by rcases hpc with rfl | rfl <;> decide) (h.booting hrefs), rfl⟩
      rcases h.absent hp hidle with hex | ⟨ha, -⟩ | ⟨ha, hex⟩
      · exact .inl (hidles (by rcases hpc with rfl | rfl <;> rfl) hex)
      · exact .inr (.inl ⟨ha, hboot⟩)
      · exact .inr (.inr ⟨ha, hstops (by rcases hpc with rfl | rfl <;> rfl) hex⟩)
  | defer => exact .inl (hc.self rfl)
  | look hsome => exact absurd hp hsome
  | stall =>
      cases ha : m.active with
      | true => exact .inr (.inl ⟨rfl, hc.self rfl⟩)
      | false =>
          rcases hc.stalling rfl with hsome | hact | hex | hex
          · exact absurd hp hsome
          · rw [ha] at hact
            cases hact
          · exact .inl (hidles rfl hex)
          · exact .inr (.inr ⟨rfl, hstops rfl hex⟩)
  | replace old _ hsome =>
      cases ha : m.active with
      | true => exact .inr (.inl ⟨rfl, hc.self rfl⟩)
      | false =>
          -- the stop that dropped the flag has yet to look
          have hthere : m.pipeline ≠ none := by
            rw [hsome]
            exact Option.some_ne_none old
          exact .inr (.inr ⟨rfl, hstops rfl (hc.stop ha hthere)⟩)
  | skip ha =>
      rcases h.absent hp hidle with hex | ⟨hact, -⟩ | ⟨-, hex⟩
      · exact .inl (hidles rfl hex)
      · rw [ha] at hact
        cases hact
      · exact .inr (.inr ⟨ha, hstops rfl hex⟩)
  | install => cases hp
  | fail => exact .inl (hc.self rfl)
  | play n =>
      rw [show m.pipeline = some n from h.installed n hc.mem] at hp
      cases hp
  | mark => exact absurd hp (h.marking hc.mem)
  | raiseError => exact .inl (hc.self rfl)
  | markIdle => cases hidle
  | drop => exact .inr (.inr ⟨rfl, hc.self rfl⟩)
  | stale ha =>
      rcases h.absent hp hidle with hex | ⟨-, hex⟩ | ⟨hact, -⟩
      · exact .inl (hidles rfl hex)
      · exact .inr (.inl ⟨ha, hstarts rfl hex⟩)
      · rw [ha] at hact
        cases hact
  | stop _ ha => exact .inr (.inr ⟨ha, hc.self rfl⟩)
  | detach | detachNone | stopTorn | stopDone => exact .inl (hc.self rfl)
  | stream n ha =>
      -- the frame of a pipeline that is being torn down
      rcases h.live n (hc.delivering n hc.mem) with hsome | htear | htear
      · rw [show m.pipeline = none from hp] at hsome
        cases hsome
      · exact .inr (.inl ⟨ha, hstarts rfl ⟨_, htear, rfl⟩⟩)
      · exact .inl (hidles rfl ⟨_, htear, rfl⟩)
  | perish hd hraise => exact absurd (hc.saves hd) hraise
  | doom hd | spare hd =>
      cases hd with
      | start => exact hgoes hp hidle rfl rfl rfl
      | stop =>
          rcases h.absent hp hidle with hex | ⟨ha, hex⟩ | ⟨ha, -⟩
          · exact .inl (hidles rfl hex)
          · exact .inr (.inl ⟨ha, hstarts rfl hex⟩)
          · exact .inr (.inr ⟨ha, hc.self rfl⟩)
  | leave | begin | finish =>
      exact (h.absent hp hidle).imp (hidles rfl)
        (Or.imp (And.imp_right (hstarts rfl)) (And.imp_right (hstops rfl)))

/-- Every step keeps the invariant. -/
theorem MarkInv.step (h : MarkInv m ps) (hs : MarkStep i k m p m' p') (hc : MarkContext i k m p ps) :
    MarkInv m' (ps.set i p') where
  booting := h.step_booting hs hc
  ready := h.step_ready hs hc
  empty := h.step_empty hs hc
  installed := h.step_installed hs hc
  marking := h.step_marking hs hc
  live := h.step_live hs hc
  present := h.step_present hs hc
  absent := h.step_absent hs hc

theorem MarkInv.enter (h : MarkInv m ps) : MarkInv m (ps ++ [.quiet]) := by
  have hex : ∀ f : MarkPhase → Bool, f .quiet = false → (∃ q ∈ ps ++ [.quiet], f q = true) →
      ∃ q ∈ ps, f q = true := by
    rintro f hf ⟨q, hq, hfq⟩
    rcases List.mem_append.mp hq with hq | hq
    · exact ⟨q, hq, hfq⟩
    · rw [List.mem_singleton.mp hq, hf] at hfq
      cases hfq
  have hmore : ∀ f : MarkPhase → Bool, (∃ q ∈ ps, f q = true) →
      ∃ q ∈ ps ++ [.quiet], f q = true :=
    fun f ⟨q, hq, hfq⟩ => ⟨q, List.mem_append_left _ hq, hfq⟩
  have hmem : ∀ {q : MarkPhase}, q ≠ .quiet → q ∈ ps ++ [.quiet] → q ∈ ps := by
    intro q hne hq
    exact (List.mem_append.mp hq).resolve_right fun hq => hne (List.mem_singleton.mp hq)
  refine ⟨fun hrefs => List.mem_append_left _ (h.booting hrefs),
    fun hr => h.ready (hr.imp_left (hex _ rfl)), fun q hq hphase => ?_,
    fun r hr => h.installed r (hmem (by simp) hr), fun hr => h.marking (hmem (by simp) hr),
    fun r hr => (h.live r hr).imp_right (Or.imp (List.mem_append_left _) (List.mem_append_left _)),
    fun hp hi => (h.present hp hi).imp_right (Or.imp (hmore _) (hmore _)),
    fun hp hi => (h.absent hp hi).imp (hmore _)
      (Or.imp (And.imp_right (hmore _)) (And.imp_right (hmore _)))⟩
  exact h.empty q (hmem (by rintro rfl; simp at hphase) hq) hphase

/-- With nothing in progress, idle is reported exactly when no pipeline is installed. -/
theorem MarkInv.settled (h : MarkInv m ps)
    (hstop : m.active = false → m.pipeline ≠ none → ∃ q ∈ ps, q.stops = true)
    (hquiet : ∀ q ∈ ps, q = .quiet ∨ ∃ r, q = .delivering r) :
    m.pipeline = none ↔ m.idle = true := by
  have hnone : ∀ f : MarkPhase → Bool, f .quiet = false → (∀ r, f (.delivering r) = false) →
      ¬ ∃ q ∈ ps, f q = true := by
    rintro f hf hfd ⟨q, hq, hfq⟩
    rcases hquiet q hq with rfl | ⟨r, rfl⟩
    · rw [hf] at hfq
      cases hfq
    · rw [hfd] at hfq
      cases hfq
  constructor
  · intro hp
    by_contra hidle
    rcases h.absent hp (Bool.not_eq_true _ ▸ hidle) with hex | ⟨-, hex⟩ | ⟨-, hex⟩
    · exact hnone _ rfl (fun _ => rfl) hex
    · exact hnone _ rfl (fun _ => rfl) hex
    · exact hnone _ rfl (fun _ => rfl) hex
  · intro hidle
    by_contra hp
    rcases h.present hp hidle with ha | hex | hex
    · exact hnone _ rfl (fun _ => rfl) (hstop ha hp)
    · exact hnone _ rfl (fun _ => rfl) hex
    · exact hnone _ rfl (fun _ => rfl) hex

end Step

/-! ## Whole runs -/

/-- An idle mark finds no pipeline installed, the flag inactive, or a start in progress that is
    going to mark its pipeline or to detach the one there is.  A stalled mark finds a pipeline
    installed, the flag active, or a thread that is going to mark idle.  No save of a start or a
    stop raises. -/
def truthful (c : Conf Shared Thread) : Event Request Choice Env → Bool
  | .sched i _ =>
      match c.pool[i]? with
      | some t =>
          if t.markPhase = .idling then
            decide (c.shared.pipeline = none) || !c.shared.app.analysisActive ||
              c.pool.any fun u => u.markPhase.plays || u.markPhase.detaches
          else if t.markPhase = .stalling then
            decide (c.shared.pipeline ≠ none) || c.shared.app.analysisActive ||
              c.pool.any fun u => u.markPhase.idles || u.markPhase.stops
          else true
      | none => true
  | _ => true

def Truthful (c : Conf Shared Thread) (e : Event Request Choice Env) : Prop :=
  truthful c e = true ∧ SavesReturn c e

instance (c : Conf Shared Thread) (e : Event Request Choice Env) : Decidable (Truthful c e) :=
  inferInstanceAs (Decidable (_ ∧ _))

section Runs

variable {cfg : Config} {saved : Saved} {model : String} {now : ℚ}
variable {G : Conf Shared Thread → Event Request Choice Env → Prop} {c : Conf Shared Thread}

theorem inside_markPhase (t : Thread) : t.markPhase.inside = t.phase.inside := by
  have hpc : ∀ pc : StartPc, pc.markPhase.inside = pc.phase.inside := by
    intro pc
    cases pc with
    | unlock failure => cases failure <;> rfl
    | _ => rfl
  cases t with
  | boot pc => cases pc <;> first | rfl | exact hpc _
  | watchdog timeout pc => cases pc <;> first | rfl | exact hpc _
  | start pc =>
      cases pc with
      | persist pc =>
          cases pc with
          | write saved =>
              rw [markPhase_start_write, phase_start_write]
              cases saved.encodable <;> rfl
          | _ => rfl
      | pipeline pc => exact hpc pc
      | _ => rfl
  | stop pc =>
      cases pc with
      | persist pc =>
          cases pc with
          | write saved =>
              rw [markPhase_stop_write, phase_stop_write]
              cases saved.encodable <;> rfl
          | _ => rfl
      | teardown old => cases old <;> rfl
      | _ => rfl
  | frame p img pc => cases pc <;> rfl
  | worker | prompt | presets => rfl

theorem stops_markPhase {t : Thread} (h : t.phase.stops = true) : t.markPhase.stops = true := by
  have hpc : ∀ pc : StartPc, pc.phase.stops = false := by
    intro pc
    cases pc <;> rfl
  cases t with
  | boot pc =>
      cases pc with
      | pipeline pc => exact absurd ((hpc pc).symm.trans h) Bool.false_ne_true
      | _ => cases h
  | watchdog timeout pc =>
      cases pc with
      | pipeline pc => exact absurd ((hpc pc).symm.trans h) Bool.false_ne_true
      | _ => cases h
  | start pc =>
      cases pc with
      | pipeline pc => exact absurd ((hpc pc).symm.trans h) Bool.false_ne_true
      | persist pc =>
          cases pc with
          | write saved =>
              rw [phase_start_write] at h
              split at h <;> cases h
          | _ => cases h
      | _ => cases h
  | stop pc =>
      cases pc with
      | persist pc =>
          cases pc with
          | write saved =>
              rw [markPhase_stop_write]
              cases saved.encodable <;> rfl
          | _ => rfl
      | check | detach => rfl
      | _ => cases h
  | worker | prompt | presets | frame => cases h

/-- A handler whose save is going to raise is one in both systems. -/
theorem doomed_phase {t : Thread} {q : MarkPhase} (h : q.Doomed t.markPhase) :
    ∃ p, Doomed p t.phase := by
  have hpc : ∀ pc : StartPc, ¬q.Doomed pc.markPhase := by
    intro pc hd
    cases pc with
    | unlock failure => cases failure <;> cases hd
    | _ => cases hd
  cases t with
  | boot pc | watchdog timeout pc =>
      cases pc with
      | pipeline pc => exact absurd h (hpc pc)
      | _ => cases h
  | start pc =>
      cases pc with
      | pipeline pc => exact absurd h (hpc pc)
      | persist pc =>
          cases pc with
          | write saved =>
              rw [markPhase_start_write] at h
              split at h
              · cases h
              · rename_i he
                exact ⟨.starting, by rw [phase_start_write, if_neg he]; exact .start⟩
          | _ => cases h
      | _ => cases h
  | stop pc =>
      cases pc with
      | persist pc =>
          cases pc with
          | write saved =>
              rw [markPhase_stop_write] at h
              split at h
              · cases h
              · rename_i he
                exact ⟨.stopping, by rw [phase_stop_write, if_neg he]; exact .stop⟩
          | _ => cases h
      | teardown old => cases old <;> cases h
      | _ => cases h
  | frame p img pc => cases pc <;> cases h
  | _ => cases h

theorem feedPhase_of_delivering {t : Thread} {p : ℕ} (h : t.markPhase = .delivering p) :
    t.feedPhase = .delivering p := by
  have hpc : ∀ pc : StartPc, pc.markPhase ≠ .delivering p := by
    intro pc
    cases pc with
    | unlock failure => cases failure <;> simp [StartPc.markPhase]
    | _ => simp [StartPc.markPhase]
  cases t with
  | boot pc => cases pc <;> first | cases h | exact absurd h (hpc _)
  | watchdog timeout pc => cases pc <;> first | cases h | exact absurd h (hpc _)
  | start pc =>
      cases pc with
      | pipeline pc => exact absurd h (hpc pc)
      | persist pc =>
          cases pc with
          | write saved =>
              rw [markPhase_start_write] at h
              split at h <;> cases h
          | _ => cases h
      | _ => cases h
  | stop pc =>
      cases pc with
      | persist pc =>
          cases pc with
          | write saved =>
              rw [markPhase_stop_write] at h
              split at h <;> cases h
          | _ => cases h
      | teardown old => cases old <;> cases h
      | _ => cases h
  | frame q img pc =>
      cases pc with
      | push | update | signal =>
          cases h
          rfl
      | begin | done => cases h
  | worker | prompt | presets => cases h

/-- While the flag is inactive and a pipeline is installed, a stop is in progress. -/
theorem stop_marks (hG : ∀ a e, G a e → SavesReturn a e)
    (h : Steps (analyzer cfg).step G (boot saved model now) c)
    (ha : c.shared.marks.active = false) (hp : c.shared.marks.pipeline ≠ none) :
    ∃ q ∈ c.pool.map Thread.markPhase, q.stops = true := by
  obtain ⟨q, hq, hst⟩ := stop_pending hG h ha hp
  obtain ⟨t, ht, rfl⟩ := List.mem_map.mp hq
  exact ⟨t.markPhase, List.mem_map_of_mem ht, stops_markPhase hst⟩

/-- What is known of a step of a run. -/
theorem markContext {i : ℕ} {k : Choice} {t : Thread}
    (h : Steps (analyzer cfg).step Truthful (boot saved model now) c) (ht : c.pool[i]? = some t)
    (hG : Truthful c (.sched i k)) :
    MarkContext i k c.shared.marks t.markPhase (c.pool.map Thread.markPhase) where
  get := map_phase_get ht
  lock j q hq hin := by
    rw [List.getElem?_map] at hq
    obtain ⟨v, hv, rfl⟩ := Option.map_eq_some_iff.mp hq
    rw [inside_markPhase] at hin
    exact (((pipeline_mutex cfg).held.steps h (held_boot saved model now)).2 j v hv hin).1
  starter j q hq hin := by
    rw [List.getElem?_map] at hq
    obtain ⟨v, hv, rfl⟩ := Option.map_eq_some_iff.mp hq
    refine (((start_mutex cfg).held.steps h ⟨trivial, fun i t hi hin => ?_⟩).2 j v hv hin).1
    rcases boot_thread hi with rfl | rfl | rfl <;> cases hin
  stop := stop_marks (fun _ _ => And.right) h
  delivering p hp := by
    obtain ⟨v, hv, hvp⟩ := List.mem_map.mp hp
    have hmem : .delivering p ∈ c.pool.map Thread.feedPhase :=
      List.mem_map.mpr ⟨v, hv, feedPhase_of_delivering hvp⟩
    exact ((callbackInv_run h).live_of_delivering hmem).2
  saves hd := hG.2.ioError ht (doomed_phase hd).choose_spec
  idling hp := by
    replace hG := hG.1
    simp only [truthful, ht, if_pos hp, Bool.or_eq_true, decide_eq_true_eq,
      Bool.not_eq_true', List.any_eq_true] at hG
    rcases hG with (hnone | ha) | ⟨u, hu, hplay | hdetach⟩
    · exact .inl hnone
    · exact .inr (.inl ha)
    · exact .inr (.inr (.inl ⟨_, List.mem_map_of_mem hu, hplay⟩))
    · exact .inr (.inr (.inr ⟨_, List.mem_map_of_mem hu, hdetach⟩))
  stalling hp := by
    have hne : t.markPhase ≠ .idling := by
      rw [hp]
      decide
    replace hG := hG.1
    simp only [truthful, ht, if_neg hne, if_pos hp, Bool.or_eq_true, decide_eq_true_eq,
      List.any_eq_true] at hG
    rcases hG with (hsome | ha) | ⟨u, hu, hidle | hstop⟩
    · exact .inl hsome
    · exact .inr (.inl ha)
    · exact .inr (.inr (.inl ⟨_, List.mem_map_of_mem hu, hidle⟩))
    · exact .inr (.inr (.inr ⟨_, List.mem_map_of_mem hu, hstop⟩))

theorem markInv_boot (saved : Saved) (model : String) (now : ℚ) :
    MarkInv (boot saved model now).shared.marks
      ((boot saved model now).pool.map Thread.markPhase) where
  booting _ := List.mem_cons_self
  ready h := by
    rcases h with ⟨q, hq, hready⟩ | h
    · simp [boot, Thread.markPhase] at hq
      rcases hq with rfl | rfl <;> cases hready
    · exact absurd rfl h
  empty q hq h := rfl
  installed p h := by simp [boot, Thread.markPhase] at h
  marking h := by simp [boot, Thread.markPhase] at h
  live p h := by cases h
  present h := absurd rfl h
  absent _ h := by cases h

theorem markPhase_of_settled {t : Thread} (h : t.settled = true) :
    t.markPhase = .quiet ∨ ∃ p, t.markPhase = .delivering p := by
  cases t with
  | boot pc | watchdog timeout pc | stop pc | start pc =>
      cases pc <;> first | exact .inl rfl | cases h
  | frame p img pc =>
      cases pc <;> first | exact .inl rfl | exact .inr ⟨p, rfl⟩
  | worker | prompt | presets => exact .inl rfl

end Runs

/-- In a run in which no mark contradicts what is installed with nothing left to put it right,
    the reported state is idle if and only if no pipeline is installed, whenever no start, stop
    or watchdog restart is in progress and boot has completed. -/
theorem pipeline_state_truthful (cfg : Config) (saved : Saved) (model : String) (now : ℚ)
    (c : Conf Shared Thread)
    (h : Steps (analyzer cfg).step Truthful (boot saved model now) c)
    (hsettled : ∀ t ∈ c.pool, t.settled = true) :
    c.shared.pipeline = none ↔ c.shared.app.pipelineState = .idle := by
  have hinv : MarkInv c.shared.marks (c.pool.map Thread.markPhase) := by
    refine h.invariant_run (K := fun c => MarkInv c.shared.marks (c.pool.map Thread.markPhase))
      (fun a e b ha hk hG hs => ?_) (markInv_boot saved model now)
    refine (marks_refines cfg).step_still hk hk.enter (fun i k t m' p' he ht hm => ?_) hs
    subst he
    exact hk.step hm (markContext ha ht hG)
  have hiff := hinv.settled (stop_marks (fun _ _ => And.right) h) fun q hq => by
    obtain ⟨t, ht, rfl⟩ := List.mem_map.mp hq
    exact markPhase_of_settled (hsettled t ht)
  rw [show c.shared.app.pipelineState = .idle ↔ c.shared.marks.idle = true by
    simp [Shared.marks]]
  exact hiff

set_option maxRecDepth 4000 in
/-- A stop overlaps a watchdog restart; nothing is installed in the end, and idle is reported. -/
theorem pipeline_state_truthful_stopped :
    ∃ c, Steps (analyzer sampleConfig).step Truthful (boot loadingSaved "vlm" 100) c ∧
      c.shared.pipeline = none ∧ c.shared.app.pipelineState = .idle := by
  let c := exec (guardedStep (analyzer sampleConfig).step Truthful)
    (boot loadingSaved "vlm" 100) stopDuringRestart
  have hrun : Steps (analyzer sampleConfig).step Truthful (boot loadingSaved "vlm" 100) c :=
    Steps.execGuarded (by with_unfolding_all decide)
  have hsettled : ∀ t ∈ c.pool, t.settled = true := by with_unfolding_all decide
  have hp : c.shared.pipeline = none := by with_unfolding_all decide
  exact ⟨c, hrun, hp,
    (pipeline_state_truthful sampleConfig loadingSaved "vlm" 100 c hrun hsettled).mp hp⟩

/-- A stop has torn its pipeline down and marks idle only after a newer start has finished. -/
def sampleLateIdle : List (Event Request Choice Env) :=
  goes 0 13 ++ .enter .stop :: goes 3 10 ++ .enter .start :: goes 4 18 ++ goes 3 1

/-- The watchdog finds a pipeline without frames, and marks it stalled only after a stop has
    finished. -/
def sampleLateStalled : List (Event Request Choice Env) :=
  goes 0 13 ++ .env (.tick 20) :: goes 2 2 ++ .enter .stop :: goes 3 11 ++ goes 2 6

set_option maxRecDepth 4000 in
/-- A late mark overwrites the mark of a newer operation. -/
theorem pipeline_state_overwritten :
    (∃ c, Steps (analyzer sampleConfig).step free (boot sampleSaved "vlm" 100) c ∧
      (∀ t ∈ c.pool, t.settled = true) ∧
      c.shared.pipeline = some 1 ∧ c.shared.app.pipelineState = .idle) ∧
    (∃ c, Steps (analyzer sampleConfig).step free (boot sampleSaved "vlm" 100) c ∧
      (∀ t ∈ c.pool, t.settled = true) ∧
      c.shared.pipeline = none ∧ c.shared.app.pipelineState = .stalled) :=
  ⟨⟨exec (analyzer sampleConfig).step (boot sampleSaved "vlm" 100) sampleLateIdle,
      Steps.exec (by decide), by decide, by decide, by decide⟩,
    ⟨exec (analyzer sampleConfig).step (boot sampleSaved "vlm" 100) sampleLateStalled,
      Steps.exec (by with_unfolding_all decide), by with_unfolding_all decide,
      by with_unfolding_all decide, by with_unfolding_all decide⟩⟩

end Babycat.Analyzer
