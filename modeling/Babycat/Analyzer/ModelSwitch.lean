/-
  Babycat.Analyzer.ModelSwitch

  The last accepted model switch wins.

  `ModelHolder.request_switch` drops a request for the model that `name` holds
  when nothing is queued.  `name` is the model in use only between switches:
  while the worker performs a switch it has popped, `name` is still the
  previous model, and a request to go back to it is answered 200 and lost.
  `inOrder` excludes that request; the model wanted last is then always the
  queued one, else the one being loaded, else the one in use (`Wanted`).
-/

import Babycat.Analyzer.ModelBookkeeping

namespace Babycat.Analyzer.Vlm

open Babycat.Conc

/-- The target of the switch the worker has popped and not completed. -/
def WorkerPc.performing : WorkerPc → Option String
  | .switching target | .preApply target _ | .switch target _ _ | .rename target => some target
  | _ => none

/-- The worker is in its loop. -/
def WorkerPc.inLoop : WorkerPc → Bool
  | .boot _ | .exited => false
  | _ => true

/-- The switch has failed. -/
def WorkerPc.isFailed : WorkerPc → Bool
  | .failed _ _ _ => true
  | _ => false

/-- No switch fails, and no request for the holder's model arrives while the worker performs a
    switch and nothing is queued. -/
def inOrder (cfg : Config) (s : State) (e : Event) : Bool :=
  (match step cfg s e with
    | some s' => !s'.worker.isFailed
    | none => true) &&
  match e with
  | .request name =>
      decide (s.worker.performing = none ∨ name ≠ s.holder.name ∨ s.holder.switchTo ≠ none)
  | _ => true

def InOrder (cfg : Config) (s : State) (e : Event) : Prop := inOrder cfg s e = true

instance (cfg : Config) (s : State) (e : Event) : Decidable (InOrder cfg s e) :=
  inferInstanceAs (Decidable (_ = true))

/-- The model named by the last accepted request, the default one before the first. -/
def State.wanted (cfg : Config) (s : State) : String := s.accepted.headD cfg.modelId

/-- The wanted model is the queued one, else the one being loaded, else the one in use. -/
structure Wanted (cfg : Config) (s : State) : Prop where
  queued : ∀ name, s.holder.switchTo = some name → name = s.wanted cfg ∧ name ≠ ""
  loading : s.holder.switchTo = none → ∀ target, s.worker.performing = some target →
    target = s.wanted cfg
  used : s.holder.switchTo = none → s.worker.performing = none →
    s.holder.name = s.wanted cfg

section Switch

variable {cfg : Config} {s s' : State} {k : Choice}

theorem Wanted.of_queued {name : String} (hq : s.holder.switchTo = some name)
    (hwanted : name = s.wanted cfg) (hne : name ≠ "") : Wanted cfg s := by
  constructor
  · intro n hn
    rw [hq] at hn
    cases hn
    exact ⟨hwanted, hne⟩
  · intro hnone
    rw [hq] at hnone
    cases hnone
  · intro hnone
    rw [hq] at hnone
    cases hnone

theorem Wanted.of_loading {target : String} (hq : s.holder.switchTo = none)
    (hp : s.worker.performing = some target) (hwanted : target = s.wanted cfg) :
    Wanted cfg s := by
  constructor
  · intro n hn
    rw [hq] at hn
    cases hn
  · intro _ t ht
    rw [hp] at ht
    cases ht
    exact hwanted
  · intro _ hidle
    rw [hp] at hidle
    cases hidle

theorem Wanted.of_used (hq : s.holder.switchTo = none) (hp : s.worker.performing = none)
    (hwanted : s.holder.name = s.wanted cfg) : Wanted cfg s := by
  constructor
  · intro n hn
    rw [hq] at hn
    cases hn
  · intro _ t ht
    rw [hp] at ht
    cases ht
  · intro _ _
    exact hwanted

/-- A step that leaves holder, requests and target. -/
theorem Wanted.same (h : Wanted cfg s) (hholder : s'.holder = s.holder)
    (haccepted : s'.accepted = s.accepted)
    (hperforming : s'.worker.performing = s.worker.performing) : Wanted cfg s' := by
  have hwanted : s'.wanted cfg = s.wanted cfg := by simp only [State.wanted, haccepted]
  constructor
  · rw [hholder, hwanted]
    exact h.queued
  · rw [hholder, hwanted, hperforming]
    exact h.loading
  · rw [hholder, hwanted, hperforming]
    exact h.used

theorem Wanted.request (h : Wanted cfg s) {name : String}
    (hG : s.worker.performing = none ∨ name ≠ s.holder.name ∨ s.holder.switchTo ≠ none) :
    Wanted cfg (requestNext cfg s name) := by
  simp only [requestNext]
  split
  · exact h
  · rename_i haccept
    have hne : name ≠ "" := by
      rintro rfl
      simp [refusal] at haccept
    by_cases hactive : name = s.holder.name ∧ s.holder.switchTo = none
    · -- the early return: the holder's model is wanted again
      have hidle : s.worker.performing = none := by
        rcases hG with hidle | hname | hqueued
        · exact hidle
        · exact absurd hactive.1 hname
        · exact absurd hactive.2 hqueued
      simp only [ModelHolder.requestSwitch, if_pos hactive]
      exact Wanted.of_used hactive.2 hidle hactive.1.symm
    · simp only [ModelHolder.requestSwitch, if_neg hactive]
      exact Wanted.of_queued rfl rfl hne

theorem Wanted.worker (hb : Books s) (hat : WorkerAt cfg s s.worker) (h : Wanted cfg s)
    (hn : workerNext cfg s k = some s') (hok : s'.worker.isFailed = false) : Wanted cfg s' := by
  cases hpc : s.worker with
  | boot pc =>
      rw [hpc] at hat
      simp only [workerNext, hpc] at hn
      obtain ⟨⟨s₁, o⟩, hspawn, rfl⟩ := Option.map_eq_some_iff.mp hn
      obtain ⟨-, hframe, -⟩ := spawnNext_spec hb hat.2 hspawn
      cases o with
      | running | returned | raised =>
          exact h.same hframe.holder hframe.accepted (by rw [hpc]; rfl)
  | top =>
      simp only [workerNext, hpc] at hn
      split at hn
      · rename_i target hqueued
        obtain ⟨hwanted, hne⟩ := h.queued target hqueued
        split at hn
        · cases hn
          exact Wanted.of_loading rfl rfl hwanted
        · rename_i hsame
          cases hn
          have hname : target = s.holder.name := by
            by_contra hdiff
            exact hsame ⟨hne, hdiff⟩
          exact Wanted.of_used rfl rfl (hname.symm.trans hwanted)
      · rename_i hnone
        cases hn
        exact Wanted.of_used rfl rfl (h.used hnone (by rw [hpc]; rfl))
  | switching target =>
      simp only [workerNext, hpc] at hn
      cases hn
      exact h.same rfl rfl (by rw [hpc]; rfl)
  | preApply target prev =>
      simp only [workerNext, hpc] at hn
      cases hn
      exact h.same rfl rfl (by rw [hpc]; rfl)
  | switch target prev pc =>
      rw [hpc] at hat
      simp only [workerNext, hpc] at hn
      obtain ⟨⟨s₁, o⟩, hswitch, rfl⟩ := Option.map_eq_some_iff.mp hn
      obtain ⟨-, hframe, -⟩ := switchNext_spec hb hat.2.2 hswitch
      cases o with
      | running | returned => exact h.same hframe.holder hframe.accepted (by rw [hpc]; rfl)
      | raised cause => cases hok
  | rename target =>
      simp only [workerNext, hpc] at hn
      cases hn
      cases hq : s.holder.switchTo with
      | none => exact Wanted.of_used rfl rfl (h.loading hq target (by rw [hpc]; rfl))
      | some name =>
          obtain ⟨hwanted, hne⟩ := h.queued name hq
          exact Wanted.of_queued rfl hwanted hne
  | rollback prev pc =>
      rw [hpc] at hat
      simp only [workerNext, hpc] at hn
      obtain ⟨⟨s₁, o⟩, hswitch, rfl⟩ := Option.map_eq_some_iff.mp hn
      obtain ⟨-, hframe, -⟩ := switchNext_spec hb hat.2.2 hswitch
      cases o with
      | running | returned | raised =>
          exact h.same hframe.holder hframe.accepted (by rw [hpc]; rfl)
  | infer job pc =>
      rw [hpc] at hat
      simp only [workerNext, hpc] at hn
      obtain ⟨⟨s₁, o⟩, hinfer, rfl⟩ := Option.map_eq_some_iff.mp hn
      obtain ⟨-, hframe, -⟩ := inferNext_spec hb hat.1 hat.2 hinfer
      cases o with
      | running | returned | raised =>
          exact h.same hframe.holder hframe.accepted (by rw [hpc]; rfl)
  | failed | restored | restoredReady | renamed =>
      simp only [workerNext, hpc] at hn
      cases hn
      exact h.same rfl rfl (by rw [hpc]; rfl)
  | get =>
      simp only [workerNext, hpc] at hn
      split at hn
      · cases hn
        exact h.same rfl rfl (by rw [hpc]; rfl)
      · cases hn
        exact h.same rfl rfl (by rw [hpc]; rfl)
      · cases hn
  | inferFailed cause =>
      simp only [workerNext, hpc] at hn
      split at hn
      · cases hn
        exact h.same rfl rfl (by rw [hpc]; rfl)
      · cases hn
        exact h.same rfl rfl (by rw [hpc]; rfl)
  | judged text pid =>
      simp only [workerNext, hpc] at hn
      split at hn
      · cases hn
        exact h.same rfl rfl (by rw [hpc]; rfl)
      · cases hn
        exact h.same rfl rfl (by rw [hpc]; rfl)
      · cases hn
  | exited =>
      simp only [workerNext, hpc] at hn
      cases hn

theorem Wanted.step {e : Event} (hb : Books s) (hat : WorkerAt cfg s s.worker)
    (h : Wanted cfg s) (hG : InOrder cfg s e) (hs : step cfg s e = some s') : Wanted cfg s' := by
  simp only [InOrder, inOrder, hs, Bool.and_eq_true, Bool.not_eq_true'] at hG
  cases e with
  | request name =>
      cases hs
      exact h.request (by simpa using hG.2)
  | worker k => exact h.worker hb hat hs hG.1
  | child pid k =>
      simp only [Vlm.step] at hs
      split at hs
      · obtain ⟨c', -, rfl⟩ := Option.map_eq_some_iff.mp hs
        exact h.same rfl rfl rfl
      · cases hs

end Switch

/-- In the loop and outside a switch the manager's model is the holder's. -/
theorem current_of_idle {cfg : Config} {s : State} (h : WorkerAt cfg s s.worker)
    (hloop : s.worker.inLoop = true) (hidle : s.worker.performing = none) :
    s.vlm.current = some s.holder.name := by
  cases hpc : s.worker with
  | boot | exited => simp [hpc, WorkerPc.inLoop] at hloop
  | switching | preApply | switch | rename => simp [hpc, WorkerPc.performing] at hidle
  | top | restored | restoredReady | renamed | get | inferFailed | infer =>
      rw [hpc] at h
      exact h.1
  | judged text pid =>
      rw [hpc] at h
      exact h.1.1
  | failed | rollback =>
      rw [hpc] at h
      rw [← h.1]
      exact h.2.1

/-- In a run that `inOrder` allows, whenever no request is queued and the worker performs no
    switch, the model in use is the one the last accepted request named. -/
theorem last_switch_wins (cfg : Config) (s : State)
    (h : Steps (step cfg) (InOrder cfg) (init cfg) s) (hqueue : s.holder.switchTo = none)
    (hloop : s.worker.inLoop = true) (hidle : s.worker.performing = none) :
    s.holder.name = s.wanted cfg ∧ s.vlm.current = some (s.wanted cfg) := by
  have hwanted : Wanted cfg s := by
    refine h.invariant_under (J := fun s => Books s ∧ WorkerAt cfg s s.worker)
      (fun _ _ _ hj _ hs => step_spec hj.1 hj.2 hs)
      (fun _ _ _ hj hk hG hs => hk.step hj.1 hj.2 hG hs) ?_ ?_
    · exact ⟨books_init cfg, rfl, fun _ _ hc => by cases hc⟩
    · exact Wanted.of_used rfl rfl rfl
  have hname := hwanted.used hqueue hidle
  refine ⟨hname, ?_⟩
  rw [← hname]
  exact current_of_idle (books_run h).2 hloop hidle

/-- A switch to `B`, and while it is loading the request to go to `B` again. -/
def sampleSwitch (again : String) : List Event :=
  sampleBoot ++ .request "B" :: goes 7 ++ .request again :: .child 1 .loaded :: goes 3

theorem last_switch_wins_loaded :
    ∃ s, Steps (step sampleConfig) (InOrder sampleConfig) (init sampleConfig) s ∧
      s.accepted = ["B", "B"] ∧ s.vlm.current = some "B" := by
  let s := exec (guardedStep (step sampleConfig) (InOrder sampleConfig)) (init sampleConfig)
    (sampleSwitch "B" ++ .worker .skip :: goes 1)
  have hrun : Steps (step sampleConfig) (InOrder sampleConfig) (init sampleConfig) s :=
    Steps.execGuarded (by decide)
  have hwins := last_switch_wins sampleConfig s hrun (by decide) (by decide)
    (by decide)
  have hwanted : s.wanted sampleConfig = "B" := by decide
  rw [hwanted] at hwins
  exact ⟨s, hrun, by decide, hwins.2⟩

/-- The request to go back to `A` arrives while `B` is loading: it is accepted and dropped. -/
theorem last_switch_lost :
    ∃ s, Reachable sampleConfig s ∧ s.accepted = ["A", "B"] ∧ s.holder.switchTo = none ∧
      s.worker = .get ∧ s.vlmState = .ready ∧ s.holder.name = "B" ∧
      s.vlm.current = some "B" := by
  let s := exec (step sampleConfig) (init sampleConfig) (sampleSwitch "A")
  have hreach : Reachable sampleConfig s := Steps.exec (by decide)
  refine ⟨s, hreach, ?_⟩
  decide

end Babycat.Analyzer.Vlm
