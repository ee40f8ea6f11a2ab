/-
  Babycat.Analyzer.Steps

  What the steps of the analyzer's threads leave alone.

  `JudgmentSame` is the part of the state that an inference surfaces in,
  `SettingsSame` the part that is persisted, `PipelineSame` the part the
  lifecycle of the pipeline works on.  The lifecycle code touches neither of the
  first two, a settings handler only the second, the worker only the first.
-/

import Babycat.Analyzer.Runtime

namespace Babycat.Analyzer

open Babycat.Conc

/-- The judgment on display, the notifications and the bookkeeping are unchanged. -/
structure JudgmentSame (s s' : Shared) : Prop where
  hist : s'.hist = s.hist
  outbox : s'.outbox = s.outbox
  inferRaw : s'.app.inferRaw = s.app.inferRaw
  eventTriggered : s'.app.eventTriggered = s.app.eventTriggered

/-- The persisted values, in memory and in the file, are unchanged. -/
structure SettingsSame (s s' : Shared) : Prop where
  memory : s'.app.settings = s.app.settings
  file : s'.file = s.file

/-- The pipeline, its locks, its frames and what is reported of it are unchanged. -/
structure PipelineSame (s s' : Shared) : Prop where
  active : s'.app.analysisActive = s.app.analysisActive
  state : s'.app.pipelineState = s.app.pipelineState
  refs : s'.refs = s.refs
  pipeline : s'.pipeline = s.pipeline
  pipelineLock : s'.pipelineLock = s.pipelineLock
  startLock : s'.startLock = s.startLock
  built : s'.built = s.built
  live : s'.live = s.live
  inCallback : s'.inCallback = s.inCallback
  ring : s'.ring = s.ring

theorem JudgmentSame.refl (s : Shared) : JudgmentSame s s := ⟨rfl, rfl, rfl, rfl⟩

theorem SettingsSame.refl (s : Shared) : SettingsSame s s := ⟨rfl, rfl⟩

theorem PipelineSame.refl (s : Shared) : PipelineSame s s :=
  ⟨rfl, rfl, rfl, rfl, rfl, rfl, rfl, rfl, rfl, rfl⟩

/-! ## A step of a thread is a step of its code -/

section Next

variable {cfg : Config} {i : ℕ} {s s' : Shared} {k : Choice} {t' : Thread}

theorem next_boot {pc : BootPc} (hn : next cfg i s (.boot pc) k = some (s', t')) :
    ∃ pc', bootNext i s k pc = some (s', pc') ∧ t' = .boot pc' := by
  obtain ⟨⟨a, pc'⟩, ha, heq⟩ := Option.map_eq_some_iff.mp hn
  cases heq
  exact ⟨pc', ha, rfl⟩

theorem next_worker {last : ℚ} {failures : ℕ} {pc : WorkerPc}
    (hn : next cfg i s (.worker last failures pc) k = some (s', t')) :
    ∃ last' failures' pc', workerNext cfg s k last failures pc = some (s', last', failures', pc') ∧
      t' = .worker last' failures' pc' := by
  obtain ⟨⟨a, last', failures', pc'⟩, ha, heq⟩ := Option.map_eq_some_iff.mp hn
  cases heq
  exact ⟨last', failures', pc', ha, rfl⟩

theorem next_watchdog {timeout : ℚ} {pc : WatchdogPc}
    (hn : next cfg i s (.watchdog timeout pc) k = some (s', t')) :
    ∃ timeout' pc', watchdogNext i s k timeout pc = some (s', timeout', pc') ∧
      t' = .watchdog timeout' pc' := by
  obtain ⟨⟨a, timeout', pc'⟩, ha, heq⟩ := Option.map_eq_some_iff.mp hn
  cases heq
  exact ⟨timeout', pc', ha, rfl⟩

theorem next_prompt {b : PromptIn} {pc : PromptPc}
    (hn : next cfg i s (.prompt b pc) k = some (s', t')) :
    ∃ pc', promptNext cfg s k b pc = some (s', pc') ∧ t' = .prompt b pc' := by
  obtain ⟨⟨a, pc'⟩, ha, heq⟩ := Option.map_eq_some_iff.mp hn
  cases heq
  exact ⟨pc', ha, rfl⟩

theorem next_presets {b : PresetsIn} {pc : PresetsPc}
    (hn : next cfg i s (.presets b pc) k = some (s', t')) :
    ∃ pc', presetsNext s k b pc = some (s', pc') ∧ t' = .presets b pc' := by
  obtain ⟨⟨a, pc'⟩, ha, heq⟩ := Option.map_eq_some_iff.mp hn
  cases heq
  exact ⟨pc', ha, rfl⟩

theorem next_start {pc : StartHandlerPc} (hn : next cfg i s (.start pc) k = some (s', t')) :
    ∃ pc', startHandlerNext i s k pc = some (s', pc') ∧ t' = .start pc' := by
  obtain ⟨⟨a, pc'⟩, ha, heq⟩ := Option.map_eq_some_iff.mp hn
  cases heq
  exact ⟨pc', ha, rfl⟩

theorem next_stop {pc : StopHandlerPc} (hn : next cfg i s (.stop pc) k = some (s', t')) :
    ∃ pc', stopHandlerNext i s k pc = some (s', pc') ∧ t' = .stop pc' := by
  obtain ⟨⟨a, pc'⟩, ha, heq⟩ := Option.map_eq_some_iff.mp hn
  cases heq
  exact ⟨pc', ha, rfl⟩

theorem next_frame {p img : ℕ} {pc : FramePc}
    (hn : next cfg i s (.frame p img pc) k = some (s', t')) :
    ∃ pc', frameNext cfg s p img pc = some (s', pc') ∧ t' = .frame p img pc' := by
  obtain ⟨⟨a, pc'⟩, ha, heq⟩ := Option.map_eq_some_iff.mp hn
  cases heq
  exact ⟨pc', ha, rfl⟩

/-- The environment moves the clock, the notifications under way and the bookkeeping only. -/
theorem env_frame {x : Env} (hx : env s x = some s') :
    ∃ now outbox hist, s' = { s with now := now, outbox := outbox, hist := hist } := by
  cases x with
  | tick d | lose n =>
      simp only [env] at hx
      split at hx
      · cases hx; exact ⟨_, _, _, rfl⟩
      · cases hx
  | deliver n =>
      simp only [env] at hx
      split at hx
      · cases hx
      · cases hx; exact ⟨_, _, _, rfl⟩

/-- The threads of the process when its HTTP server starts. -/
theorem boot_thread {saved : Saved} {model : String} {now : ℚ} {t : Thread}
    (h : (boot saved model now).pool[i]? = some t) :
    t = .boot .setRefs ∨ t = .worker 0 0 .notStarted ∨
      t = .watchdog watchdogTimeout .notStarted := by
  have hmem := List.mem_of_getElem? h
  simpa [boot] using hmem

end Next

/-! ## `start_pipeline` and teardown -/

section Lifecycle

variable {cfg : Config} {i : ℕ} {s s' : Shared} {k : Choice}

theorem teardown_same {p : ℕ} (h : s.teardown p = some s') :
    JudgmentSame s s' ∧ SettingsSame s s' := by
  simp only [Shared.teardown] at h
  split at h
  · cases h
  · cases h; exact ⟨⟨rfl, rfl, rfl, rfl⟩, rfl, rfl⟩

theorem lockPipeline_some (h : s.lockPipeline i = some s') :
    s.pipelineLock = none ∧ s' = { s with pipelineLock := some i } := by
  simp only [Shared.lockPipeline] at h
  split at h
  · rename_i hl; exact ⟨hl, (Option.some.inj h).symm⟩
  · cases h

/-- `start_pipeline` touches neither a judgment nor the settings. -/
theorem startNext_same {reason : String} {pc : StartPc} {o : Outcome}
    (h : startNext i s k reason pc = some (s', o)) : JudgmentSame s s' ∧ SettingsSame s s' := by
  cases pc with
  | lockStart | detach =>
      simp only [startNext] at h
      split at h
      · cases h; exact ⟨⟨rfl, rfl, rfl, rfl⟩, rfl, rfl⟩
      · cases h
  | teardown old =>
      obtain ⟨a, ha, heq⟩ := Option.map_eq_some_iff.mp h
      cases heq
      exact teardown_same ha
  | check restart =>
      obtain ⟨a, ha, heq⟩ := Option.map_eq_some_iff.mp h
      obtain ⟨-, rfl⟩ := lockPipeline_some ha
      split at heq <;> (cases heq; exact ⟨⟨rfl, rfl, rfl, rfl⟩, rfl, rfl⟩)
  | build restart =>
      simp only [startNext] at h
      split at h <;> (cases h; exact ⟨⟨rfl, rfl, rfl, rfl⟩, rfl, rfl⟩)
  | clear restart | drain restart | play restart p | stamp restart | mark restart now
  | unlock failure => cases h; exact ⟨⟨rfl, rfl, rfl, rfl⟩, rfl, rfl⟩

theorem bootNext_same {pc pc' : BootPc} (h : bootNext i s k pc = some (s', pc')) :
    JudgmentSame s s' ∧ SettingsSame s s' := by
  cases pc with
  | pipeline pc =>
      obtain ⟨⟨a, o⟩, ha, heq⟩ := Option.map_eq_some_iff.mp h
      cases heq
      exact startNext_same ha
  | setRefs | startThreads | checkActive | defer | failed cause =>
      cases h; exact ⟨⟨rfl, rfl, rfl, rfl⟩, rfl, rfl⟩
  | done => cases h

theorem watchdogNext_same {timeout timeout' : ℚ} {pc pc' : WatchdogPc}
    (h : watchdogNext i s k timeout pc = some (s', timeout', pc')) :
    JudgmentSame s s' ∧ SettingsSame s s' := by
  cases pc with
  | notStarted | sleep =>
      simp only [watchdogNext] at h
      split at h
      · cases h; exact ⟨⟨rfl, rfl, rfl, rfl⟩, rfl, rfl⟩
      · cases h
  | pipeline pc =>
      obtain ⟨⟨a, o⟩, ha, heq⟩ := Option.map_eq_some_iff.mp h
      cases heq
      exact startNext_same ha
  | stalled | request | failed cause => cases h; exact ⟨⟨rfl, rfl, rfl, rfl⟩, rfl, rfl⟩

theorem frameNext_same {p img : ℕ} {pc pc' : FramePc}
    (h : frameNext cfg s p img pc = some (s', pc')) : JudgmentSame s s' ∧ SettingsSame s s' := by
  cases pc with
  | begin =>
      simp only [frameNext] at h
      split at h
      · cases h; exact ⟨⟨rfl, rfl, rfl, rfl⟩, rfl, rfl⟩
      · cases h
  | push t => cases h; exact ⟨⟨rfl, rfl, rfl, rfl⟩, rfl, rfl⟩
  | update =>
      cases h
      exact ⟨⟨rfl, rfl, (s.app.updateFrame_judgment s.now).1, (s.app.updateFrame_judgment s.now).2⟩,
        ⟨s.app.updateFrame_settings s.now, rfl⟩⟩
  | signal => cases h; exact ⟨⟨rfl, rfl, rfl, rfl⟩, rfl, rfl⟩
  | done => cases h

/-- `persist_settings` touches nothing but the file. -/
theorem persistNext_file (s : Shared) (k : Choice) (pc : PersistPc) :
    ∃ file, (persistNext s k pc).1 = { s with file := file } := by
  cases pc with
  | write saved =>
      simp only [persistNext]
      split
      · exact ⟨s.file, rfl⟩
      · split
        · exact ⟨saved, rfl⟩
        · exact ⟨s.file, rfl⟩
  | _ => exact ⟨s.file, rfl⟩

/-- The reads and the write of `persist_settings` surface nothing. -/
theorem persistNext_judgment (pc : PersistPc) : JudgmentSame s (persistNext s k pc).1 := by
  obtain ⟨file, hfile⟩ := persistNext_file s k pc
  rw [hfile]
  exact ⟨rfl, rfl, rfl, rfl⟩

/-- How the phase of a handler moves during `persist_settings`: it is `p`, and `q` once it has read
    settings that cannot be encoded; when the save raises, the handler is `gone`. -/
inductive SavePhase (k : Choice) {β : Type} (p q gone : β) : β → β → Prop
  | stay : SavePhase k p q gone p p
  | doom : SavePhase k p q gone p q
  | spare (hk : k = .ioError) : SavePhase k p q gone q p
  | perish (hk : k ≠ .ioError) : SavePhase k p q gone q gone

/-- `persist_settings`, in whatever handler `wrap` it runs, for any phases `φ` of the threads. -/
theorem persistNext_phase (s : Shared) {β : Type} (φ : Thread → β) {p q gone : β}
    (wrap : PersistPc → Thread) (after dead : Thread) {t' : Thread} (pc : PersistPc)
    (hread : ∀ pc', (∀ saved, pc' ≠ .write saved) → φ (wrap pc') = p)
    (hwrite : ∀ saved, φ (wrap (.write saved)) = if saved.encodable then p else q)
    (hafter : φ after = p) (hdead : φ dead = gone)
    (ht' : t' = match (persistNext s k pc).2 with
      | .running pc' => wrap pc'
      | .returned => after
      | .raised => dead) :
    SavePhase k p q gone (φ (wrap pc)) (φ t') := by
  subst ht'
  cases pc with
  | write saved =>
      rw [hwrite, persistNext]
      by_cases hk : k = .ioError
      · simp only [if_pos hk, hafter]
        cases saved.encodable with
        | true => exact .stay
        | false => exact .spare hk
      · cases he : saved.encodable with
        | true =>
            simp only [if_neg hk, if_true, hafter]
            exact .stay
        | false =>
            simp only [if_neg hk, Bool.false_eq_true, if_false, hdead]
            exact .perish hk
  | active prompt ks ls ps =>
      rw [hread _ fun _ => PersistPc.noConfusion]
      show SavePhase k p q gone p (φ (wrap (.write _)))
      rw [hwrite]
      split
      · exact .stay
      · exact .doom
  | prompt | triggers | labels | presets =>
      rw [hread _ fun _ => PersistPc.noConfusion]
      show SavePhase k p q gone p (φ (wrap _))
      rw [hread _ fun _ => PersistPc.noConfusion]
      exact .stay

theorem promptNext_judgment {b : PromptIn} {pc pc' : PromptPc}
    (h : promptNext cfg s k b pc = some (s', pc')) : JudgmentSame s s' := by
  cases pc with
  | persist pc => cases h; exact persistNext_judgment pc
  | validate | setPrompt | setTriggers => cases h; exact ⟨rfl, rfl, rfl, rfl⟩
  | finished r => cases h

theorem presetsNext_judgment {b : PresetsIn} {pc pc' : PresetsPc}
    (h : presetsNext s k b pc = some (s', pc')) : JudgmentSame s s' := by
  cases pc with
  | persist pc => cases h; exact persistNext_judgment pc
  | setLabels labels presets =>
      cases h
      cases labels <;> exact ⟨rfl, rfl, rfl, rfl⟩
  | setPresets presets =>
      cases h
      cases presets <;> exact ⟨rfl, rfl, rfl, rfl⟩
  | validate | readLabels | readPresets => cases h; exact JudgmentSame.refl _
  | finished r => cases h

theorem startHandlerNext_judgment {pc pc' : StartHandlerPc}
    (h : startHandlerNext i s k pc = some (s', pc')) : JudgmentSame s s' := by
  cases pc with
  | setActive => cases h; exact ⟨rfl, rfl, rfl, rfl⟩
  | persist pc => cases h; exact persistNext_judgment pc
  | pipeline pc =>
      obtain ⟨⟨a, o⟩, ha, heq⟩ := Option.map_eq_some_iff.mp h
      cases heq
      exact (startNext_same ha).1
  | callback | failed cause => cases h; exact ⟨rfl, rfl, rfl, rfl⟩
  | finished r => cases h

/-- After it has dropped the flag, a stop surfaces and clears nothing more. -/
theorem stopHandlerNext_judgment {pc pc' : StopHandlerPc}
    (h : stopHandlerNext i s k pc = some (s', pc')) :
    JudgmentSame s s' ∨ (pc = .setActive ∧ s' = s.setActive false) := by
  cases pc with
  | setActive => cases h; exact .inr ⟨rfl, rfl⟩
  | persist pc => cases h; exact .inl (persistNext_judgment pc)
  | check =>
      obtain ⟨a, ha, heq⟩ := Option.map_eq_some_iff.mp h
      obtain ⟨-, rfl⟩ := lockPipeline_some ha
      left
      split at heq <;> (cases heq; exact ⟨rfl, rfl, rfl, rfl⟩)
  | teardown old =>
      cases old with
      | none => cases h; exact .inl (JudgmentSame.refl _)
      | some p =>
          obtain ⟨a, ha, heq⟩ := Option.map_eq_some_iff.mp h
          cases heq
          exact .inl (teardown_same ha).1
  | detach | mark => cases h; exact .inl ⟨rfl, rfl, rfl, rfl⟩
  | finished => cases h

end Lifecycle

/-! ## The worker and the settings handlers leave the pipeline alone -/

section Pipeline

variable {cfg : Config} {i : ℕ} {s s' : Shared} {k : Choice}

theorem env_pipeline {x : Env} (hx : env s x = some s') : PipelineSame s s' := by
  obtain ⟨now, outbox, hist, rfl⟩ := env_frame hx
  exact ⟨rfl, rfl, rfl, rfl, rfl, rfl, rfl, rfl, rfl, rfl⟩

theorem persistNext_pipeline (pc : PersistPc) : PipelineSame s (persistNext s k pc).1 := by
  obtain ⟨file, hfile⟩ := persistNext_file s k pc
  rw [hfile]
  exact ⟨rfl, rfl, rfl, rfl, rfl, rfl, rfl, rfl, rfl, rfl⟩

theorem workerNext_pipeline {last last' : ℚ} {failures failures' : ℕ} {pc pc' : WorkerPc}
    (h : workerNext cfg s k last failures pc = some (s', last', failures', pc')) :
    PipelineSame s s' := by
  cases pc with
  | notStarted | get | infer =>
      simp only [workerNext] at h
      split at h
      all_goals
        cases h
        try exact ⟨rfl, rfl, rfl, rfl, rfl, rfl, rfl, rfl, rfl, rfl⟩
  | exited => cases h
  | _ =>
      cases h
      exact ⟨rfl, rfl, rfl, rfl, rfl, rfl, rfl, rfl, rfl, rfl⟩

theorem promptNext_pipeline {b : PromptIn} {pc pc' : PromptPc}
    (h : promptNext cfg s k b pc = some (s', pc')) : PipelineSame s s' := by
  cases pc with
  | persist pc =>
      cases h
      exact persistNext_pipeline pc
  | validate | setPrompt | setTriggers =>
      cases h
      exact ⟨rfl, rfl, rfl, rfl, rfl, rfl, rfl, rfl, rfl, rfl⟩
  | finished r => cases h

theorem presetsNext_pipeline {b : PresetsIn} {pc pc' : PresetsPc}
    (h : presetsNext s k b pc = some (s', pc')) : PipelineSame s s' := by
  cases pc with
  | persist pc =>
      cases h
      exact persistNext_pipeline pc
  | setLabels labels presets =>
      cases h
      cases labels <;> exact ⟨rfl, rfl, rfl, rfl, rfl, rfl, rfl, rfl, rfl, rfl⟩
  | setPresets presets =>
      cases h
      cases presets <;> exact ⟨rfl, rfl, rfl, rfl, rfl, rfl, rfl, rfl, rfl, rfl⟩
  | validate | readLabels | readPresets =>
      cases h
      exact PipelineSame.refl _
  | finished r => cases h

end Pipeline

end Babycat.Analyzer
