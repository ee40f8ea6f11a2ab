/-
  Babycat.Analyzer.Lifecycle

  The abstract life of the pipeline.

  Of the shared state `Life` keeps the active flag, the installed pipeline, the
  holder of `_pipeline_lock` and whether the refs are set; of a thread `Phase`
  keeps what it is still going to do to the pipeline.  `LifeStep` is the
  transition system over them, and every step of the analyzer is a step of it
  (`next_life`).  Mutual exclusion under `_pipeline_lock` follows.
-/

import Babycat.Analyzer.Steps
import Babycat.Conc.Mutex
import Babycat.Conc.Phases

namespace Babycat.Analyzer

open Babycat.Conc

structure Life where
  active : Bool
  pipeline : Option ℕ
  lock : Option ℕ
  refs : Bool

def Shared.life (s : Shared) : Life :=
  ⟨s.app.analysisActive, s.pipeline, s.pipelineLock, s.refs⟩

/-- What a thread is still going to do to the pipeline. -/
inductive Phase
  | idle
  /-- Boot before `set_refs`. -/
  | booting
  /-- Has yet to look at the flag, and starts the pipeline if it is active. -/
  | starting
  /-- Saw the flag active under the lock and is about to install the pipeline. -/
  | building
  /-- Has installed the pipeline and still holds the lock. -/
  | playing
  /-- Has yet to look at the flag, and removes the pipeline unless it is active. -/
  | stopping
  /-- Saw the flag inactive under the lock and is about to remove the pipeline. -/
  | detaching
  /-- A `/start` that is about to write settings that cannot be encoded. -/
  | perishing
  /-- A `/stop` that is about to write settings that cannot be encoded. -/
  | abandoning
  deriving DecidableEq

/-- A handler in phase `q` is one in phase `p` whose save is going to raise. -/
inductive Doomed : Phase → Phase → Prop
  | start : Doomed .starting .perishing
  | stop : Doomed .stopping .abandoning

/-- The phases under `_pipeline_lock`. -/
def Phase.inside : Phase → Bool
  | .building | .playing | .detaching => true
  | _ => false

def StartPc.phase : StartPc → Phase
  | .lockStart | .detach | .teardown _ | .check _ => .starting
  | .clear _ | .drain _ | .build _ => .building
  | .play _ _ | .stamp _ | .mark _ _ => .playing
  | .unlock _ => .idle

def Outcome.phase : Outcome → Phase
  | .running pc => pc.phase
  | .returned _ => .idle

def Thread.phase : Thread → Phase
  | .boot .setRefs => .booting
  | .boot .startThreads | .boot .checkActive => .starting
  | .start (.persist (.write saved)) => if saved.encodable then .starting else .perishing
  | .stop (.persist (.write saved)) => if saved.encodable then .stopping else .abandoning
  | .start (.persist _) | .start .callback => .starting
  | .boot (.pipeline pc) | .watchdog _ (.pipeline pc) | .start (.pipeline pc) => pc.phase
  | .stop (.persist _) | .stop .check => .stopping
  | .stop .detach => .detaching
  | _ => .idle

theorem phase_start_write (saved : Saved) :
    (Thread.start (.persist (.write saved))).phase =
      if saved.encodable then .starting else .perishing := rfl

theorem phase_stop_write (saved : Saved) :
    (Thread.stop (.persist (.write saved))).phase =
      if saved.encodable then .stopping else .abandoning := rfl

/-- The settings that a `/start` or a `/stop` is about to write. -/
def Thread.saving : Thread → Option Saved
  | .start (.persist (.write saved)) | .stop (.persist (.write saved)) => some saved
  | _ => none

/-- Only a save of settings that cannot be encoded is doomed. -/
theorem saving_of_doomed {t : Thread} {q : Phase} (h : Doomed q t.phase) :
    ∃ saved, t.saving = some saved ∧ saved.encodable = false := by
  have hpc : ∀ pc : StartPc, ¬Doomed q pc.phase := by
    intro pc hd
    cases pc <;> cases hd
  have hsave : ∀ {saved : Saved} {p d : Phase}, (∀ q, ¬Doomed q p) →
      Doomed q (if saved.encodable then p else d) → saved.encodable = false := by
    intro saved p d hp hd
    cases he : saved.encodable with
    | false => rfl
    | true =>
        rw [he] at hd
        exact absurd hd (hp q)
  cases t with
  | boot pc | watchdog _ pc =>
      cases pc with
      | pipeline pc => exact absurd h (hpc pc)
      | _ => cases h
  | start pc =>
      cases pc with
      | pipeline pc => exact absurd h (hpc pc)
      | persist pc =>
          cases pc with
          | write saved => exact ⟨saved, rfl, hsave (fun _ hd => by cases hd) h⟩
          | _ => cases h
      | _ => cases h
  | stop pc =>
      cases pc with
      | persist pc =>
          cases pc with
          | write saved => exact ⟨saved, rfl, hsave (fun _ hd => by cases hd) h⟩
          | _ => cases h
      | _ => cases h
  | _ => cases h

/-- One step of the abstract lifecycle, by thread `i`. -/
inductive LifeStep (i : ℕ) (k : Choice) : Life → Phase → Life → Phase → Prop
  | quiet (l : Life) (p : Phase) : LifeStep i k l p l p
  /-- `/start` sets the flag. -/
  | raise (l : Life) : LifeStep i k l .idle { l with active := true } .starting
  /-- The watchdog requests a restart. -/
  | wake (l : Life) : LifeStep i k l .idle l .starting
  /-- `/stop` drops the flag. -/
  | drop (l : Life) : LifeStep i k l .idle { l with active := false } .stopping
  | setRefs (l : Life) : LifeStep i k l .booting { l with refs := true } .starting
  /-- `/start` while the VLM is loading leaves the rest to boot. -/
  | unready (l : Life) (h : l.refs = false) : LifeStep i k l .starting l .idle
  /-- A start detaches the pipeline that it replaces. -/
  | replace (l : Life) (h : l.lock = none) :
      LifeStep i k l .starting { l with pipeline := none } .starting
  | pass (l : Life) (h : l.lock = none) (ha : l.active = true) :
      LifeStep i k l .starting { l with lock := some i } .building
  | skip (l : Life) (ha : l.active = false) : LifeStep i k l .starting l .idle
  | install (l : Life) (n : ℕ) : LifeStep i k l .building { l with pipeline := some n } .playing
  | fail (l : Life) {cause : String} (h : k = .buildError cause) :
      LifeStep i k l .building { l with lock := none } .idle
  | unlock (l : Life) : LifeStep i k l .playing { l with lock := none } .idle
  /-- A stop finds the flag of a newer start. -/
  | stale (l : Life) (ha : l.active = true) : LifeStep i k l .stopping l .idle
  | stop (l : Life) (h : l.lock = none) (ha : l.active = false) :
      LifeStep i k l .stopping { l with lock := some i } .detaching
  | detach (l : Life) :
      LifeStep i k l .detaching { l with pipeline := none, lock := none } .idle
  /-- A handler has read settings that cannot be encoded. -/
  | doom (l : Life) {p q : Phase} (h : Doomed p q) : LifeStep i k l p l q
  /-- An `OSError` comes before the encoder. -/
  | spare (l : Life) {p q : Phase} (h : Doomed p q) (hk : k = .ioError) : LifeStep i k l q l p
  | perish (l : Life) {p q : Phase} (h : Doomed p q) (hk : k ≠ .ioError) :
      LifeStep i k l q l .idle

/-! ## The analyzer's steps are steps of the lifecycle -/

section Refines

variable {cfg : Config} {i : ℕ} {s s' : Shared} {k : Choice}

theorem teardown_life {p : ℕ} (h : s.teardown p = some s') : s'.life = s.life := by
  simp only [Shared.teardown] at h
  split at h
  · cases h
  · cases h; rfl

theorem PipelineSame.life (h : PipelineSame s s') : s'.life = s.life := by
  simp only [Shared.life, h.active, h.pipeline, h.pipelineLock, h.refs]

/-- A step that leaves the lifecycle state and the phase alone. -/
theorem LifeStep.of_eq {l l' : Life} {p p' : Phase} (hl : l' = l) (hp : p' = p) :
    LifeStep i k l p l' p' := by
  rw [hl, hp]
  exact .quiet l p

theorem startNext_life {reason : String} {pc : StartPc} {o : Outcome}
    (h : startNext i s k reason pc = some (s', o)) :
    LifeStep i k s.life pc.phase s'.life o.phase := by
  cases pc with
  | lockStart =>
      simp only [startNext] at h
      split at h
      · cases h; exact .quiet s.life .starting
      · cases h
  | detach =>
      simp only [startNext] at h
      split at h
      · rename_i hl
        cases h
        simp only [Outcome.phase]
        split <;> exact .replace s.life hl
      · cases h
  | teardown old =>
      obtain ⟨a, ha, heq⟩ := Option.map_eq_some_iff.mp h
      cases heq
      exact .of_eq (teardown_life ha) rfl
  | check restart =>
      obtain ⟨a, ha, heq⟩ := Option.map_eq_some_iff.mp h
      obtain ⟨hl, rfl⟩ := lockPipeline_some ha
      cases hactive : s.app.analysisActive with
      | true =>
          rw [if_pos hactive] at heq
          cases heq
          exact .pass s.life hl hactive
      | false =>
          rw [if_neg (by rw [hactive]; exact Bool.false_ne_true)] at heq
          cases heq
          exact .skip _ hactive
  | build restart =>
      simp only [startNext] at h
      split at h
      · cases h; exact .fail s.life rfl
      · cases h; exact .install s.life s.built
  | clear restart | drain restart => cases h; exact .quiet s.life .building
  | play restart p | stamp restart => cases h; exact .quiet s.life .playing
  | mark restart now => cases h; exact .unlock s.life
  | unlock failure => cases h; exact .quiet s.life .idle

theorem bootNext_life {pc pc' : BootPc} (h : bootNext i s k pc = some (s', pc')) :
    LifeStep i k s.life (Thread.boot pc).phase s'.life (Thread.boot pc').phase := by
  cases pc with
  | setRefs => cases h; exact .setRefs s.life
  | startThreads => cases h; exact .quiet s.life .starting
  | checkActive =>
      cases h
      cases hactive : s.app.analysisActive with
      | true => rw [if_pos rfl]; exact .quiet s.life .starting
      | false => rw [if_neg Bool.false_ne_true]; exact .skip s.life hactive
  | pipeline pc =>
      obtain ⟨⟨a, o⟩, ha, heq⟩ := Option.map_eq_some_iff.mp h
      cases heq
      have hlife := startNext_life ha
      rcases o with pc' | ⟨_ | cause⟩ <;> exact hlife
  | defer | failed cause => cases h; exact .quiet s.life .idle
  | done => cases h

theorem watchdogNext_life {timeout timeout' : ℚ} {pc pc' : WatchdogPc}
    (h : watchdogNext i s k timeout pc = some (s', timeout', pc')) :
    LifeStep i k s.life (Thread.watchdog timeout pc).phase s'.life
      (Thread.watchdog timeout' pc').phase := by
  cases pc with
  | notStarted =>
      simp only [watchdogNext] at h
      split at h
      · cases h; exact .quiet _ .idle
      · cases h
  | sleep =>
      simp only [watchdogNext] at h
      split at h
      · cases h
        refine .of_eq rfl ?_
        split <;> rfl
      · cases h
  | stalled => cases h; exact .quiet s.life .idle
  | request =>
      cases h
      cases hrefs : s.refs with
      | true => rw [if_pos rfl]; exact .wake s.life
      | false => rw [if_neg Bool.false_ne_true]; exact .quiet s.life .idle
  | pipeline pc =>
      obtain ⟨⟨a, o⟩, ha, heq⟩ := Option.map_eq_some_iff.mp h
      cases heq
      have hlife := startNext_life ha
      rcases o with pc' | ⟨_ | cause⟩ <;> exact hlife
  | failed cause => cases h; exact .quiet s.life .idle

/-- The handler that runs `persist_settings` goes on, dies of it, or is about to. -/
theorem SavePhase.life {l l' : Life} {p q p' q' : Phase} (h : SavePhase k p q .idle p' q')
    (hpq : Doomed p q) (hl : l' = l) : LifeStep i k l p' l' q' := by
  rw [hl]
  cases h with
  | stay => exact .quiet l p
  | doom => exact .doom l hpq
  | spare hk => exact .spare l hpq hk
  | perish hk => exact .perish l hpq hk

theorem startHandlerNext_life {pc pc' : StartHandlerPc}
    (h : startHandlerNext i s k pc = some (s', pc')) :
    LifeStep i k s.life (Thread.start pc).phase s'.life (Thread.start pc').phase := by
  cases pc with
  | setActive => cases h; exact .raise s.life
  | persist pc =>
      cases h
      refine (persistNext_phase s Thread.phase (fun pc => .start (.persist pc)) (.start .callback)
        (.start (.finished .dropped)) pc (fun pc' hpc => ?_) (fun _ => rfl) rfl rfl ?_).life .start
        (persistNext_pipeline pc).life
      · cases pc' <;> first | rfl | exact absurd rfl (hpc _)
      · cases (persistNext s k pc).2 <;> rfl
  | callback =>
      cases h
      cases hrefs : s.refs with
      | true => rw [if_pos rfl]; exact .quiet s.life .starting
      | false => rw [if_neg Bool.false_ne_true]; exact .unready s.life hrefs
  | pipeline pc =>
      obtain ⟨⟨a, o⟩, ha, heq⟩ := Option.map_eq_some_iff.mp h
      cases heq
      have hlife := startNext_life ha
      rcases o with pc' | ⟨_ | cause⟩ <;> exact hlife
  | failed cause => cases h; exact .quiet s.life .idle
  | finished r => cases h

theorem stopHandlerNext_life {pc pc' : StopHandlerPc}
    (h : stopHandlerNext i s k pc = some (s', pc')) :
    LifeStep i k s.life (Thread.stop pc).phase s'.life (Thread.stop pc').phase := by
  cases pc with
  | setActive => cases h; exact .drop s.life
  | persist pc =>
      cases h
      refine (persistNext_phase s Thread.phase (fun pc => .stop (.persist pc)) (.stop .check)
        (.stop .finished) pc (fun pc' hpc => ?_) (fun _ => rfl) rfl rfl ?_).life .stop
        (persistNext_pipeline pc).life
      · cases pc' <;> first | rfl | exact absurd rfl (hpc _)
      · cases (persistNext s k pc).2 <;> rfl
  | check =>
      obtain ⟨a, ha, heq⟩ := Option.map_eq_some_iff.mp h
      obtain ⟨hl, rfl⟩ := lockPipeline_some ha
      cases hactive : s.app.analysisActive with
      | true =>
          rw [if_pos hactive] at heq
          cases heq
          exact .stale _ hactive
      | false =>
          rw [if_neg (by rw [hactive]; exact Bool.false_ne_true)] at heq
          cases heq
          exact .stop s.life hl hactive
  | detach => cases h; exact .detach s.life
  | teardown old =>
      cases old with
      | none => cases h; exact .quiet _ .idle
      | some p =>
          obtain ⟨a, ha, heq⟩ := Option.map_eq_some_iff.mp h
          cases heq
          exact .of_eq (teardown_life ha) rfl
  | mark => cases h; exact .quiet s.life .idle
  | finished => cases h

/-- Every step of the analyzer is a step of the lifecycle. -/
theorem next_life {t t' : Thread} (hn : next cfg i s t k = some (s', t')) :
    LifeStep i k s.life t.phase s'.life t'.phase := by
  cases t with
  | boot pc =>
      obtain ⟨pc', hstep, rfl⟩ := next_boot hn
      exact bootNext_life hstep
  | worker last failures pc =>
      obtain ⟨last', failures', pc', hstep, rfl⟩ := next_worker hn
      exact .of_eq (workerNext_pipeline hstep).life rfl
  | watchdog timeout pc =>
      obtain ⟨timeout', pc', hstep, rfl⟩ := next_watchdog hn
      exact watchdogNext_life hstep
  | prompt b pc =>
      obtain ⟨pc', hstep, rfl⟩ := next_prompt hn
      exact .of_eq (promptNext_pipeline hstep).life rfl
  | presets b pc =>
      obtain ⟨pc', hstep, rfl⟩ := next_presets hn
      exact .of_eq (presetsNext_pipeline hstep).life rfl
  | start pc =>
      obtain ⟨pc', hstep, rfl⟩ := next_start hn
      exact startHandlerNext_life hstep
  | stop pc =>
      obtain ⟨pc', hstep, rfl⟩ := next_stop hn
      exact stopHandlerNext_life hstep
  | frame p img pc =>
      obtain ⟨pc', hstep, rfl⟩ := next_frame hn
      refine .of_eq ?_ rfl
      cases pc with
      | begin =>
          simp only [frameNext] at hstep
          split at hstep <;> (cases hstep; try rfl)
      | update =>
          cases hstep
          simp only [Shared.life, AppState.updateFrame_analysisActive]
      | push t | signal => cases hstep; rfl
      | done => cases hstep

theorem env_life {x : Env} (hx : env s x = some s') : s'.life = s.life := (env_pipeline hx).life

end Refines

/-- The analyzer's threads take the steps of the lifecycle. -/
theorem life_refines (cfg : Config) :
    Phases (analyzer cfg) Shared.life Thread.phase .idle LifeStep fun a b => b = a where
  enter r := by cases r <;> rfl
  next hn := next_life hn
  env hx := env_life hx

/-! ## Mutual exclusion -/

section Mutual

variable {i : ℕ} {k : Choice} {l l' : Life} {p p' : Phase}

/-- A step from outside stays outside or takes the free lock. -/
theorem LifeStep.outside (h : LifeStep i k l p l' p') (hout : p.inside = false) :
    (l'.lock = l.lock ∧ p'.inside = false) ∨
      (l.lock = none ∧ l'.lock = some i ∧ p'.inside = true) := by
  cases h with
  | quiet => exact .inl ⟨rfl, hout⟩
  | pass h | stop h => exact .inr ⟨h, rfl, rfl⟩
  | raise | wake | drop | setRefs | unready | replace | skip | stale | perish =>
      exact .inl ⟨rfl, rfl⟩
  | doom h | spare h => cases h <;> exact .inl ⟨rfl, rfl⟩
  | install | fail | unlock | detach => cases hout

/-- A step from inside stays inside or releases the lock. -/
theorem LifeStep.within (h : LifeStep i k l p l' p') (hin : p.inside = true) :
    (l'.lock = l.lock ∧ p'.inside = true) ∨ (l'.lock = none ∧ p'.inside = false) := by
  cases h with
  | quiet => exact .inl ⟨rfl, hin⟩
  | install => exact .inl ⟨rfl, rfl⟩
  | fail | unlock | detach => exact .inr ⟨rfl, rfl⟩
  | raise | wake | drop | setRefs | unready | replace | pass | skip | stale | stop => cases hin
  | doom h | spare h | perish h => cases h <;> cases hin

end Mutual

/-- `_pipeline_lock` protects the phases that are inside. -/
theorem pipeline_mutex (cfg : Config) :
    Mutex (analyzer cfg) Shared.pipelineLock fun t => t.phase.inside where
  enter r := by cases r <;> rfl
  outside hn hout := (next_life hn).outside hout
  within hn hin := (next_life hn).within hin
  env hx := congrArg Life.lock (env_life hx)

/-- No thread of the process is inside when its HTTP server starts. -/
theorem held_boot (saved : Saved) (model : String) (now : ℚ) :
    Annotated (fun _ => True)
      (Mutex.Holds Shared.pipelineLock (fun t => t.phase.inside) fun _ _ _ => True)
      (boot saved model now) := by
  refine ⟨trivial, fun i t hi hin => ?_⟩
  rcases boot_thread hi with rfl | rfl | rfl <;> cases hin

end Babycat.Analyzer
