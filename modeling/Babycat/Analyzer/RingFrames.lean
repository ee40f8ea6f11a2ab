/-
  Babycat.Analyzer.RingFrames

  "Inference sees only the frames of the current pipeline" (SDD §7.2).

  `Feed` is the part of the state that frames pass through, and `FeedStep` what
  the threads do to it.  `start_pipeline` clears the ring before it installs its
  pipeline, but a `/stop` takes the pipeline away under `_pipeline_lock` and
  tears it down after it has released the lock: a start that follows clears the
  ring while callbacks of the old pipeline may still push into it.  In the runs
  in which no pipeline delivers when the ring is cleared (`ClearsAlone`), every
  frame in the ring is of the pipeline installed last (`ring_current`).
-/

import Babycat.Analyzer.Lifecycle

namespace Babycat.Analyzer

open Babycat.Conc

structure Feed where
  ring : List Sample
  built : ℕ
  pipeline : Option ℕ
  live : ℕ → Bool
  inCallback : ℕ → Bool

def Shared.feed (s : Shared) : Feed := ⟨s.ring, s.built, s.pipeline, s.live, s.inCallback⟩

/-- What a thread is doing to the feed. -/
inductive FeedPhase
  | quiet
  /-- Is about to clear the ring for the pipeline it is going to build. -/
  | clearing
  /-- Has cleared the ring and is about to build the pipeline. -/
  | cleared
  /-- Has installed pipeline `p` and is about to set it playing. -/
  | installed (p : ℕ)
  /-- Is the callback of pipeline `p`. -/
  | delivering (p : ℕ)
  deriving DecidableEq

def StartPc.feedPhase : StartPc → FeedPhase
  | .clear _ => .clearing
  | .drain _ | .build _ => .cleared
  | .play _ p => .installed p
  | _ => .quiet

def Outcome.feedPhase : Outcome → FeedPhase
  | .running pc => pc.feedPhase
  | .returned _ => .quiet

def Thread.feedPhase : Thread → FeedPhase
  | .boot (.pipeline pc) | .watchdog _ (.pipeline pc) | .start (.pipeline pc) => pc.feedPhase
  | .frame p _ (.push _) | .frame p _ .update | .frame p _ .signal => .delivering p
  | _ => .quiet

/-- The phases in which `start_pipeline` holds `_pipeline_lock` and has not set its pipeline
    playing. -/
def FeedPhase.installs : FeedPhase → Bool
  | .clearing | .cleared | .installed _ => true
  | _ => false

/-- One step of a thread on the feed. -/
inductive FeedStep : Feed → FeedPhase → Feed → FeedPhase → Prop
  | stay (f : Feed) (p : FeedPhase) : FeedStep f p f p
  | detach (f : Feed) : FeedStep f .quiet { f with pipeline := none } .quiet
  /-- `set_state(NULL)` returns. -/
  | teardown (f : Feed) (p : ℕ) (h : f.inCallback p = false) :
      FeedStep f .quiet { f with live := Function.update f.live p false } .quiet
  | pass (f : Feed) : FeedStep f .quiet f .clearing
  | clear (f : Feed) : FeedStep f .clearing { f with ring := [] } .cleared
  | fail (f : Feed) : FeedStep f .cleared f .quiet
  | build (f : Feed) : FeedStep f .cleared
      { f with pipeline := some f.built, built := f.built + 1 } (.installed f.built)
  | play (f : Feed) (p : ℕ) : FeedStep f (.installed p)
      { f with live := Function.update f.live p true } .quiet
  | begin (f : Feed) (p : ℕ) (hlive : f.live p = true) (hidle : f.inCallback p = false) :
      FeedStep f .quiet { f with inCallback := Function.update f.inCallback p true }
        (.delivering p)
  | push (f : Feed) (x : Sample) (n : ℕ) : FeedStep f (.delivering x.source)
      { f with ring := lastSamples (f.ring ++ [x]) n } (.delivering x.source)
  | finish (f : Feed) (p : ℕ) : FeedStep f (.delivering p)
      { f with inCallback := Function.update f.inCallback p false } .quiet

/-! ## The analyzer's steps are steps of the feed -/

section Refines

variable {cfg : Config} {i : ℕ} {s s' : Shared} {k : Choice}

/-- A step that leaves the feed and the phase alone. -/
theorem FeedStep.of_eq {f f' : Feed} {p p' : FeedPhase} (hf : f' = f) (hp : p' = p) :
    FeedStep f p f' p' := by
  rw [hf, hp]
  exact .stay f p

theorem teardown_feed {p : ℕ} (h : s.teardown p = some s') :
    FeedStep s.feed .quiet s'.feed .quiet := by
  simp only [Shared.teardown] at h
  split at h
  · cases h
  · rename_i hcb
    cases h
    exact .teardown s.feed p (by rw [← Bool.not_eq_true]; exact hcb)

theorem startNext_feed {reason : String} {pc : StartPc} {o : Outcome}
    (h : startNext i s k reason pc = some (s', o)) :
    FeedStep s.feed pc.feedPhase s'.feed o.feedPhase := by
  cases pc with
  | lockStart =>
      simp only [startNext] at h
      split at h
      · cases h
        exact .stay s.feed .quiet
      · cases h
  | detach =>
      simp only [startNext] at h
      split at h
      · cases h
        simp only [Outcome.feedPhase]
        split <;> exact .detach s.feed
      · cases h
  | teardown old =>
      obtain ⟨a, ha, heq⟩ := Option.map_eq_some_iff.mp h
      cases heq
      exact teardown_feed ha
  | check restart =>
      obtain ⟨a, ha, heq⟩ := Option.map_eq_some_iff.mp h
      obtain ⟨-, rfl⟩ := lockPipeline_some ha
      split at heq
      · cases heq
        exact .pass s.feed
      · cases heq
        exact .stay _ .quiet
  | clear restart =>
      cases h
      exact .clear s.feed
  | drain restart =>
      cases h
      exact .stay s.feed .cleared
  | build restart =>
      simp only [startNext] at h
      split at h
      · cases h
        exact .fail s.feed
      · cases h
        exact .build s.feed
  | play restart p =>
      cases h
      exact .play s.feed p
  | stamp restart | mark restart now | unlock failure =>
      cases h
      exact .stay s.feed .quiet

theorem PipelineSame.feed (h : PipelineSame s s') : s'.feed = s.feed := by
  simp only [Shared.feed, h.ring, h.built, h.pipeline, h.live, h.inCallback]

theorem bootNext_feed {pc pc' : BootPc} (h : bootNext i s k pc = some (s', pc')) :
    FeedStep s.feed (Thread.boot pc).feedPhase s'.feed (Thread.boot pc').feedPhase := by
  cases pc with
  | pipeline pc =>
      obtain ⟨⟨a, o⟩, ha, heq⟩ := Option.map_eq_some_iff.mp h
      cases heq
      have hfeed := startNext_feed ha
      rcases o with pc' | ⟨_ | cause⟩ <;> exact hfeed
  | checkActive =>
      cases h
      refine .of_eq rfl ?_
      split <;> rfl
  | setRefs | startThreads | defer | failed cause =>
      cases h
      exact .stay s.feed .quiet
  | done => cases h

theorem watchdogNext_feed {timeout timeout' : ℚ} {pc pc' : WatchdogPc}
    (h : watchdogNext i s k timeout pc = some (s', timeout', pc')) :
    FeedStep s.feed (Thread.watchdog timeout pc).feedPhase s'.feed
      (Thread.watchdog timeout' pc').feedPhase := by
  cases pc with
  | pipeline pc =>
      obtain ⟨⟨a, o⟩, ha, heq⟩ := Option.map_eq_some_iff.mp h
      cases heq
      have hfeed := startNext_feed ha
      rcases o with pc' | ⟨_ | cause⟩ <;> exact hfeed
  | notStarted | sleep =>
      simp only [watchdogNext] at h
      split at h
      · cases h
        refine .of_eq rfl ?_
        try split
        all_goals rfl
      · cases h
  | request =>
      cases h
      refine .of_eq rfl ?_
      split <;> rfl
  | stalled | failed cause =>
      cases h
      exact .stay s.feed .quiet

theorem startHandlerNext_feed {pc pc' : StartHandlerPc}
    (h : startHandlerNext i s k pc = some (s', pc')) :
    FeedStep s.feed (Thread.start pc).feedPhase s'.feed (Thread.start pc').feedPhase := by
  cases pc with
  | setActive | failed cause =>
      cases h
      exact .stay s.feed .quiet
  | persist pc =>
      cases h
      refine .of_eq (persistNext_pipeline pc).feed ?_
      split <;> rfl
  | callback =>
      cases h
      refine .of_eq rfl ?_
      split <;> rfl
  | pipeline pc =>
      obtain ⟨⟨a, o⟩, ha, heq⟩ := Option.map_eq_some_iff.mp h
      cases heq
      have hfeed := startNext_feed ha
      rcases o with pc' | ⟨_ | cause⟩ <;> exact hfeed
  | finished r => cases h

theorem stopHandlerNext_feed {pc pc' : StopHandlerPc}
    (h : stopHandlerNext i s k pc = some (s', pc')) :
    FeedStep s.feed .quiet s'.feed .quiet := by
  cases pc with
  | setActive | mark =>
      cases h
      exact .stay s.feed .quiet
  | persist pc =>
      cases h
      exact .of_eq (persistNext_pipeline pc).feed rfl
  | check =>
      obtain ⟨a, ha, heq⟩ := Option.map_eq_some_iff.mp h
      obtain ⟨-, rfl⟩ := lockPipeline_some ha
      split at heq
      · cases heq
        exact .stay _ .quiet
      · cases heq
        exact .stay s.feed .quiet
  | detach =>
      cases h
      exact .detach s.feed
  | teardown old =>
      cases old with
      | none =>
          cases h
          exact .stay _ .quiet
      | some p =>
          obtain ⟨a, ha, heq⟩ := Option.map_eq_some_iff.mp h
          cases heq
          exact teardown_feed ha
  | finished => cases h

theorem frameNext_feed {p img : ℕ} {pc pc' : FramePc}
    (h : frameNext cfg s p img pc = some (s', pc')) :
    FeedStep s.feed (Thread.frame p img pc).feedPhase s'.feed
      (Thread.frame p img pc').feedPhase := by
  cases pc with
  | begin =>
      simp only [frameNext] at h
      split at h
      · rename_i hready
        cases h
        rw [Bool.and_eq_true, Bool.not_eq_true'] at hready
        exact .begin s.feed p hready.1 hready.2
      · cases h
  | push t =>
      cases h
      exact .push s.feed ⟨t, img, p⟩ cfg.ringSize
  | update =>
      cases h
      exact .stay s.feed (.delivering p)
  | signal =>
      cases h
      exact .finish s.feed p
  | done => cases h

/-- Every step of the analyzer is a step of the feed. -/
theorem next_feed {t t' : Thread} (hn : next cfg i s t k = some (s', t')) :
    FeedStep s.feed t.feedPhase s'.feed t'.feedPhase := by
  cases t with
  | boot pc =>
      obtain ⟨pc', hstep, rfl⟩ := next_boot hn
      exact bootNext_feed hstep
  | worker last failures pc =>
      obtain ⟨last', failures', pc', hstep, rfl⟩ := next_worker hn
      exact .of_eq (workerNext_pipeline hstep).feed rfl
  | watchdog timeout pc =>
      obtain ⟨timeout', pc', hstep, rfl⟩ := next_watchdog hn
      exact watchdogNext_feed hstep
  | prompt b pc =>
      obtain ⟨pc', hstep, rfl⟩ := next_prompt hn
      exact .of_eq (promptNext_pipeline hstep).feed rfl
  | presets b pc =>
      obtain ⟨pc', hstep, rfl⟩ := next_presets hn
      exact .of_eq (presetsNext_pipeline hstep).feed rfl
  | start pc =>
      obtain ⟨pc', hstep, rfl⟩ := next_start hn
      exact startHandlerNext_feed hstep
  | stop pc =>
      obtain ⟨pc', hstep, rfl⟩ := next_stop hn
      exact stopHandlerNext_feed hstep
  | frame p img pc =>
      obtain ⟨pc', hstep, rfl⟩ := next_frame hn
      exact frameNext_feed hstep

/-- The phases that install a pipeline are under `_pipeline_lock`. -/
theorem inside_of_installs {t : Thread} (h : t.feedPhase.installs = true) :
    t.phase.inside = true := by
  have hpc : ∀ pc : StartPc, pc.feedPhase.installs = true → pc.phase.inside = true := by
    intro pc hpc
    cases pc <;> first | rfl | cases hpc
  cases t with
  | boot pc => cases pc <;> first | exact hpc _ h | cases h
  | watchdog timeout pc => cases pc <;> first | exact hpc _ h | cases h
  | start pc => cases pc <;> first | exact hpc _ h | cases h
  | frame p img pc => cases pc <;> cases h
  | worker | prompt | presets | stop => cases h

end Refines

/-! ## What the feed holds -/

/-- A pipeline runs its callback only while it delivers, and one callback at a time. -/
structure CallbackInv (f : Feed) (ps : List FeedPhase) : Prop where
  callback : ∀ p, f.inCallback p = true → f.live p = true
  delivering : ∀ p, ps.countP (fun q => decide (q = .delivering p)) = (f.inCallback p).toNat

/-- Only the pipeline installed last delivers, and the ring holds frames of it alone. -/
structure FeedInv (f : Feed) (ps : List FeedPhase) : Prop extends CallbackInv f ps where
  ring : ∀ x ∈ f.ring, x.source + 1 = f.built
  live : ∀ p, f.live p = true → p + 1 = f.built
  current : ∀ p, f.pipeline = some p → p + 1 = f.built
  cleared : .cleared ∈ ps → f.ring = [] ∧ ∀ p, f.live p = false
  installed : ∀ p, .installed p ∈ ps → p + 1 = f.built

section Step

variable {i : ℕ} {f f' : Feed} {p p' : FeedPhase} {ps : List FeedPhase}

theorem mem_lastSamples {l : List Sample} {x : Sample} {n : ℕ} (h : x ∈ lastSamples l n) :
    x ∈ l := List.mem_of_mem_drop h

/-- The callback of a pipeline runs only while the pipeline delivers. -/
theorem CallbackInv.live_of_delivering (h : CallbackInv f ps) {q : ℕ} (hq : .delivering q ∈ ps) :
    f.inCallback q = true ∧ f.live q = true := by
  have hpos : 0 < ps.countP fun x => decide (x = .delivering q) :=
    List.countP_pos_iff.mpr ⟨_, hq, decide_eq_true rfl⟩
  have hcb : f.inCallback q = true := by
    cases hcb : f.inCallback q with
    | true => rfl
    | false =>
        rw [h.delivering, hcb] at hpos
        exact absurd hpos (lt_irrefl 0)
  exact ⟨hcb, h.callback q hcb⟩

theorem CallbackInv.step_callback (h : CallbackInv f ps) (hs : FeedStep f p f' p') (q : ℕ)
    (hq : f'.inCallback q = true) : f'.live q = true := by
  cases hs with
  | stay | detach | pass | clear | fail | build | push => exact h.callback q hq
  | teardown r hidle =>
      have hne : q ≠ r := by
        rintro rfl
        rw [hidle] at hq
        cases hq
      simpa [Function.update_of_ne hne] using h.callback q hq
  | play r =>
      by_cases hqr : q = r
      · simp [hqr]
      · simpa [Function.update_of_ne hqr] using h.callback q hq
  | begin r hlive =>
      by_cases hqr : q = r
      · rw [hqr]
        exact hlive
      · exact h.callback q (by simpa [Function.update_of_ne hqr] using hq)
  | finish r =>
      by_cases hqr : q = r
      · simp [hqr] at hq
      · exact h.callback q (by simpa [Function.update_of_ne hqr] using hq)

/-- A callback is counted from its beginning to its end. -/
theorem CallbackInv.step_delivering (h : CallbackInv f ps) (hs : FeedStep f p f' p')
    (hp : ps[i]? = some p) (q : ℕ) :
    (ps.set i p').countP (fun x => decide (x = .delivering q)) = (f'.inCallback q).toNat := by
  have hcount := countP_set_of_get p' (fun x => decide (x = .delivering q)) hp
  rw [h.delivering q] at hcount
  cases hs with
  | stay => exact Nat.add_right_cancel hcount
  | detach | teardown | pass | clear | fail | build | play | push =>
      exact Nat.add_right_cancel hcount
  | begin r hlive hidle =>
      by_cases hqr : q = r
      · subst hqr
        simpa [hidle] using hcount
      · simpa [Ne.symm hqr, Function.update_of_ne hqr] using hcount
  | finish r =>
      by_cases hqr : q = r
      · subst hqr
        have hcb := (h.live_of_delivering (List.mem_of_getElem? hp)).1
        simpa [hcb] using hcount
      · simpa [Ne.symm hqr, Function.update_of_ne hqr] using hcount

theorem CallbackInv.step (h : CallbackInv f ps) (hs : FeedStep f p f' p') (hp : ps[i]? = some p) :
    CallbackInv f' (ps.set i p') :=
  ⟨h.step_callback hs, h.step_delivering hs hp⟩

/-- A new request is not in the feed yet. -/
theorem CallbackInv.enter (h : CallbackInv f ps) : CallbackInv f (ps ++ [.quiet]) :=
  ⟨h.callback, fun q => by simpa using h.delivering q⟩

variable (hex : ∀ (j : ℕ) q, ps[j]? = some q → q.installs = true → p.installs = true → j = i)

include hex in
/-- While a thread installs a pipeline, no other one does. -/
theorem installs_unique (hp : ps[i]? = some p) (hin : p.installs = true) {q : FeedPhase}
    (hq : q ∈ ps) (hqin : q.installs = true) : q = p := by
  obtain ⟨j, hj⟩ := List.mem_iff_getElem?.mp hq
  rw [hex j q hj hqin hin, hp] at hj
  exact (Option.some.inj hj).symm

/-- The frames in the ring are of the pipeline built last. -/
theorem FeedInv.step_ring (h : FeedInv f ps) (hs : FeedStep f p f' p') (hp : ps[i]? = some p) :
    ∀ x ∈ f'.ring, x.source + 1 = f'.built := by
  cases hs with
  | stay | detach | teardown | pass | fail | play | begin | finish => exact h.ring
  | clear =>
      intro x hx
      cases hx
  | build =>
      -- the ring is empty since it was cleared
      intro x hx
      rw [show f.ring = [] from (h.cleared (List.mem_of_getElem? hp)).1] at hx
      cases hx
  | push y n =>
      intro x hx
      rcases List.mem_append.mp (mem_lastSamples hx) with hx | hx
      · exact h.ring x hx
      · rw [List.mem_singleton.mp hx]
        exact h.live _ (h.live_of_delivering (List.mem_of_getElem? hp)).2

theorem FeedInv.step_live (h : FeedInv f ps) (hs : FeedStep f p f' p') (hp : ps[i]? = some p)
    (q : ℕ) (hq : f'.live q = true) : q + 1 = f'.built := by
  cases hs with
  | stay | detach | pass | clear | fail | push | begin | finish => exact h.live q hq
  | teardown r =>
      by_cases hqr : q = r
      · simp [hqr] at hq
      · exact h.live q (by simpa [Function.update_of_ne hqr] using hq)
  | build =>
      have hnone := (h.cleared (List.mem_of_getElem? hp)).2 q
      rw [show f.live q = true from hq] at hnone
      cases hnone
  | play r =>
      by_cases hqr : q = r
      · rw [hqr]
        exact h.installed r (List.mem_of_getElem? hp)
      · exact h.live q (by simpa [Function.update_of_ne hqr] using hq)

theorem FeedInv.step_current (h : FeedInv f ps) (hs : FeedStep f p f' p') (q : ℕ)
    (hq : f'.pipeline = some q) : q + 1 = f'.built := by
  cases hs with
  | stay | teardown | pass | clear | fail | play | begin | push | finish => exact h.current q hq
  | detach => cases hq
  | build =>
      obtain rfl : f.built = q := Option.some.inj hq
      rfl

include hex in
/-- Between the clearing of the ring and the new pipeline nothing delivers. -/
theorem FeedInv.step_cleared (h : FeedInv f ps) (hs : FeedStep f p f' p') (hp : ps[i]? = some p)
    (halone : p = .clearing → p' = .cleared → ∀ q, f.live q = false) :
    .cleared ∈ ps.set i p' → f'.ring = [] ∧ ∀ q, f'.live q = false := by
  intro hmem
  have hold : p' ≠ .cleared → .cleared ∈ ps :=
    fun hne => (List.mem_or_eq_of_mem_set hmem).resolve_right (Ne.symm hne)
  cases hs with
  | stay =>
      by_cases hc : p = .cleared
      · exact h.cleared (hc ▸ List.mem_of_getElem? hp)
      · exact h.cleared (hold hc)
  | detach | pass | begin | finish => exact h.cleared (hold (by simp))
  | teardown r =>
      obtain ⟨hring, hlive⟩ := h.cleared (hold (by simp))
      refine ⟨hring, fun q => ?_⟩
      by_cases hqr : q = r
      · simp [hqr]
      · simpa [Function.update_of_ne hqr] using hlive q
  | clear => exact ⟨rfl, halone rfl rfl⟩
  | fail => exact h.cleared (List.mem_of_getElem? hp)
  | build => exact h.cleared (List.mem_of_getElem? hp)
  | play r => cases installs_unique hex hp rfl (hold (by simp)) rfl
  | push x n =>
      have hlive := (h.live_of_delivering (List.mem_of_getElem? hp)).2
      rw [(h.cleared (hold (by simp))).2] at hlive
      cases hlive

include hex in
theorem FeedInv.step_installed (h : FeedInv f ps) (hs : FeedStep f p f' p')
    (hp : ps[i]? = some p) (q : ℕ) : .installed q ∈ ps.set i p' → q + 1 = f'.built := by
  intro hmem
  have hold : p' ≠ .installed q → .installed q ∈ ps :=
    fun hne => (List.mem_or_eq_of_mem_set hmem).resolve_right (Ne.symm hne)
  cases hs with
  | stay =>
      by_cases hc : p = .installed q
      · exact h.installed q (hc ▸ List.mem_of_getElem? hp)
      · exact h.installed q (hold hc)
  | detach | teardown | pass | clear | fail | play | begin | push | finish =>
      exact h.installed q (hold (by simp))
  | build =>
      by_cases hq : q = f.built
      · rw [hq]
      · have hne : FeedPhase.installed f.built ≠ .installed q := by
          simpa using Ne.symm hq
        cases installs_unique hex hp rfl (hold hne) rfl

include hex in
/-- Every step keeps the invariant, if nothing delivers when the ring is cleared. -/
theorem FeedInv.step (h : FeedInv f ps) (hs : FeedStep f p f' p') (hp : ps[i]? = some p)
    (halone : p = .clearing → p' = .cleared → ∀ q, f.live q = false) :
    FeedInv f' (ps.set i p') where
  toCallbackInv := h.toCallbackInv.step hs hp
  ring := h.step_ring hs hp
  live := h.step_live hs hp
  current := h.step_current hs
  cleared := h.step_cleared hex hs hp halone
  installed := h.step_installed hex hs hp

theorem FeedInv.enter (h : FeedInv f ps) : FeedInv f (ps ++ [.quiet]) where
  toCallbackInv := h.toCallbackInv.enter
  ring := h.ring
  live := h.live
  current := h.current
  cleared hm := h.cleared (by simpa using hm)
  installed q hm := h.installed q (by simpa using hm)

end Step

/-! ## Whole runs -/

/-- The phases of the threads of a pool. -/
def feedPhases (pool : List Thread) : List FeedPhase := pool.map Thread.feedPhase

/-- The analyzer's threads take the steps of the feed. -/
theorem feed_refines (cfg : Config) :
    Phases (analyzer cfg) Shared.feed Thread.feedPhase .quiet (fun _ _ => FeedStep)
      fun a b => b = a where
  enter r := by cases r <;> rfl
  next hn := next_feed hn
  env hx := (env_pipeline hx).feed

theorem callbackInv_boot (saved : Saved) (model : String) (now : ℚ) :
    CallbackInv (boot saved model now).shared.feed (feedPhases (boot saved model now).pool) where
  callback p hp := by cases hp
  delivering p := by simp [feedPhases, boot, Thread.feedPhase, Shared.feed]

/-- A pipeline that delivers a frame is live. -/
theorem callbackInv_run {cfg : Config} {saved : Saved} {model : String} {now : ℚ}
    {G : Conf Shared Thread → Event Request Choice Env → Prop} {c : Conf Shared Thread}
    (h : Steps (analyzer cfg).step G (boot saved model now) c) :
    CallbackInv c.shared.feed (feedPhases c.pool) :=
  h.invariant (K := fun c => CallbackInv c.shared.feed (feedPhases c.pool))
    (fun _ _ _ hinv _ hs => (feed_refines cfg).step_still hinv hinv.enter
      (fun _ _ _ _ _ _ ht hf => hinv.step hf (map_phase_get ht)) hs)
    (callbackInv_boot saved model now)

/-- When `start_pipeline` clears the ring, `set_state(NULL)` has returned of every pipeline. -/
def clearsAlone (c : Conf Shared Thread) : Event Request Choice Env → Bool
  | .sched i _ =>
      match c.pool[i]? with
      | some t =>
          if t.feedPhase = .clearing then
            (List.range c.shared.built).all fun p => !c.shared.live p
          else true
      | none => true
  | _ => true

def ClearsAlone (c : Conf Shared Thread) (e : Event Request Choice Env) : Prop :=
  clearsAlone c e = true

instance (c : Conf Shared Thread) (e : Event Request Choice Env) : Decidable (ClearsAlone c e) :=
  inferInstanceAs (Decidable (_ = true))

theorem feedInv_boot (saved : Saved) (model : String) (now : ℚ) :
    FeedInv (boot saved model now).shared.feed (feedPhases (boot saved model now).pool) where
  toCallbackInv := callbackInv_boot saved model now
  ring x hx := by cases hx
  live p hp := by cases hp
  current p hp := by cases hp
  cleared h := by simp [feedPhases, boot, Thread.feedPhase] at h
  installed p h := by simp [feedPhases, boot, Thread.feedPhase] at h

/-- Nothing delivers when the ring is cleared. -/
theorem ClearsAlone.alone {c : Conf Shared Thread} {i : ℕ} {k : Choice} {t : Thread}
    (hG : ClearsAlone c (.sched i k)) (ht : c.pool[i]? = some t)
    (h : FeedInv c.shared.feed (feedPhases c.pool)) (hclear : t.feedPhase = .clearing) (q : ℕ) :
    c.shared.live q = false := by
  simp only [ClearsAlone, clearsAlone, ht, if_pos hclear, List.all_eq_true, List.mem_range,
    Bool.not_eq_true'] at hG
  cases hq : c.shared.live q with
  | false => rfl
  | true =>
      have hlast : q + 1 = c.shared.built := h.live q hq
      rw [hG q (by omega)] at hq
      cases hq

theorem feedInv_step (cfg : Config) (c : Conf Shared Thread) (e : Event Request Choice Env)
    (c' : Conf Shared Thread)
    (hheld : Annotated (fun _ => True)
      (Mutex.Holds Shared.pipelineLock (fun t => t.phase.inside) fun _ _ _ => True) c)
    (h : FeedInv c.shared.feed (feedPhases c.pool)) (hG : ClearsAlone c e)
    (hs : (analyzer cfg).step c e = some c') : FeedInv c'.shared.feed (feedPhases c'.pool) := by
  refine (feed_refines cfg).step_still h h.enter (fun i k t f' p' he ht hf => ?_) hs
  subst he
  have hex : ∀ (j : ℕ) q, (feedPhases c.pool)[j]? = some q → q.installs = true →
      t.feedPhase.installs = true → j = i := by
    intro j q hq hin htin
    rw [feedPhases, List.getElem?_map] at hq
    obtain ⟨v, hv, rfl⟩ := Option.map_eq_some_iff.mp hq
    -- both hold the lock
    have hj := (hheld.2 j v hv (inside_of_installs hin)).1
    have hi := (hheld.2 i t ht (inside_of_installs htin)).1
    exact Option.some.inj (hj.symm.trans hi)
  exact h.step hex hf (map_phase_get ht) fun hclear _ => hG.alone ht h hclear

/-- In a run in which no pipeline delivers when the ring is cleared, the ring holds only frames
    of the pipeline installed last. -/
theorem ring_current (cfg : Config) (saved : Saved) (model : String) (now : ℚ)
    (c : Conf Shared Thread)
    (h : Steps (analyzer cfg).step ClearsAlone (boot saved model now) c) :
    ∀ x ∈ c.shared.ring, x.source + 1 = c.shared.built ∧
      ∀ p, c.shared.pipeline = some p → x.source = p := by
  have hinv := h.invariant_under (K := fun c => FeedInv c.shared.feed (feedPhases c.pool))
    (pipeline_mutex cfg).held.step (feedInv_step cfg) (held_boot saved model now)
    (feedInv_boot saved model now)
  intro x hx
  have hsource : x.source + 1 = c.shared.built := hinv.ring x hx
  refine ⟨hsource, fun p hp => ?_⟩
  have hcurrent : p + 1 = c.shared.built := hinv.current p hp
  omega

/-- Boot with a frame of the first pipeline, then a `/stop` up to its `n`th step. -/
def sampleStopped (n : ℕ) : List (Event Request Choice Env) :=
  goes 0 13 ++ .enter (.frame 0 7) :: goes 3 4 ++ .enter .stop :: goes 4 n

/-- A `/start` after it, and a frame of the pipeline `p`. -/
def sampleRestarted (p : ℕ) : List (Event Request Choice Env) :=
  .enter .start :: goes 5 17 ++ .enter (.frame p 8) :: goes 6 4

set_option maxRecDepth 4000 in
theorem ring_current_restarted :
    ∃ c, Steps (analyzer sampleConfig).step ClearsAlone (boot sampleSaved "vlm" 100) c ∧
      c.shared.pipeline = some 1 ∧ (∃ x, x ∈ c.shared.ring) ∧
      ∀ x ∈ c.shared.ring, x.source = 1 := by
  let c := exec (guardedStep (analyzer sampleConfig).step ClearsAlone)
    (boot sampleSaved "vlm" 100) (sampleStopped 11 ++ sampleRestarted 1)
  have hrun : Steps (analyzer sampleConfig).step ClearsAlone (boot sampleSaved "vlm" 100) c :=
    Steps.execGuarded (by decide)
  have hp : c.shared.pipeline = some 1 := by decide
  exact ⟨c, hrun, hp, ⟨⟨100, 8, 1⟩, by decide⟩,
    fun x hx => (ring_current sampleConfig sampleSaved "vlm" 100 c hrun x hx).2 1 hp⟩

set_option maxRecDepth 4000 in
/-- The stop has detached the first pipeline and not torn it down when the start clears the
    ring: the worker samples a frame of it. -/
theorem ring_overtaken :
    ∃ c last failures, Steps (analyzer sampleConfig).step free (boot sampleSaved "vlm" 100) c ∧
      c.pool[1]? = some (.worker last failures .sample) ∧ c.shared.pipeline = some 1 ∧
      c.shared.ring = [⟨100, 8, 0⟩] :=
  ⟨exec (analyzer sampleConfig).step (boot sampleSaved "vlm" 100)
      (sampleStopped 9 ++ sampleRestarted 0 ++ goes 1 4), 0, 0,
    Steps.exec (by decide), by decide, by decide, by decide⟩

end Babycat.Analyzer
