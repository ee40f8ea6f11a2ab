/-
  Babycat.Analyzer.DisplayedModel

  What the snapshot shows of the VLM (`vlm_state`, `vlm_current_model`) against
  the model that answers.

  `_perform_switch` shows the target before it is loaded.  A rollback shows the
  previous model again; when it fails too, the error and the target stay, and
  the next inference spawns the previous model without touching either.
  `Unrepaired` says of a run that this was the last that happened to them.
-/

import Babycat.Analyzer.ModelBookkeeping

namespace Babycat.Analyzer.Vlm

open Babycat.Conc

-- ============================================================================
-- The past of a run
-- ============================================================================

def WorkerPc.rollsBack : WorkerPc → Bool
  | .rollback _ _ => true
  | _ => false

/-- The rollback of a failed switch has raised in the step: the worker goes on with its loop. -/
def rollbackFailed (before after : State) : Bool :=
  before.worker.rollsBack && decide (after.worker = .get)

/-- A switch or a rollback has just succeeded. -/
def WorkerPc.repairs : WorkerPc → Bool
  | .renamed | .restored _ => true
  | _ => false

/-- What a step makes of an unrepaired display. -/
def unrepairedNext (unrepaired : Bool) (before after : State) : Bool :=
  if rollbackFailed before after then true
  else if after.worker.repairs then false
  else unrepaired

/-- A rollback has failed, and no switch and no rollback has succeeded since; the states of the
    run are given newest first. -/
def unrepaired : List State → Bool
  | after :: before :: past => unrepairedNext (unrepaired (before :: past)) before after
  | _ => false

-- ============================================================================
-- The display
-- ============================================================================

/-- The display and the holder. -/
structure SameDisplay (s s' : State) : Prop where
  state : s'.vlmState = s.vlmState
  model : s'.vlmCurrentModel = s.vlmCurrentModel
  name : s'.holder.name = s.holder.name

/-- Outside a switch: the error that a failed rollback has left, or the model in use. -/
def Shown (s : State) (unrepaired : Bool) : Prop :=
  if unrepaired then s.vlmState = .error
  else s.vlmState = .ready ∧ s.vlmCurrentModel = s.holder.name

/-- What is shown at each program counter of the worker. -/
def DisplayAt (s : State) (unrepaired : Bool) : WorkerPc → Prop
  | .boot _ => unrepaired = false ∧ s.vlmCurrentModel = s.holder.name
  | .top | .switching _ | .get | .infer _ _ | .inferFailed _ | .judged _ _ => Shown s unrepaired
  | .switch target _ _ | .rename target => s.vlmCurrentModel = target
  | .rollback _ _ => s.vlmState = .error
  | .restored prev => unrepaired = false ∧ prev = s.holder.name
  | .restoredReady | .renamed => unrepaired = false ∧ s.vlmCurrentModel = s.holder.name
  | .preApply _ _ | .failed _ _ _ | .exited => True

section Methods

variable {s s' : State} {model : String} {k : Choice}

theorem SameDisplay.refl (s : State) : SameDisplay s s := ⟨rfl, rfl, rfl⟩

theorem connect_display (h : s.connect = some s') : SameDisplay s s' := by
  unfold State.connect at h
  split at h
  · split at h
    · split at h
      · cases h
        exact ⟨rfl, rfl, rfl⟩
      · cases h
    · cases h
  · cases h

theorem recv_display {m : Message} {pid : ℕ} (h : s.recv = some (s', m, pid)) :
    SameDisplay s s' := by
  unfold State.recv at h
  split at h
  · split at h
    · cases h
      exact ⟨rfl, rfl, rfl⟩
    · cases h
  · cases h

theorem stopNext_display {pc : StopPc} {o : Option StopPc} (h : stopNext s pc = (s', o)) :
    SameDisplay s s' := by
  cases pc with
  | close =>
    cases h
    exact ⟨rfl, rfl, rfl⟩
  | kill =>
    cases h
    unfold State.hardStop
    split <;> exact ⟨rfl, rfl, rfl⟩

theorem spawnNext_display {pc : SpawnPc} {o : Outcome SpawnPc Unit}
    (h : spawnNext s model k pc = some (s', o)) : SameDisplay s s' := by
  cases pc with
  | popen =>
    cases k with
    | raises cause =>
      cases h
      exact .refl s
    | go | skip | job =>
      cases h
      exact ⟨rfl, rfl, rfl⟩
  | connect =>
    cases k with
    | raises cause =>
      cases h
      exact .refl s
    | go | skip | job =>
      obtain ⟨s₁, hconnect, hs⟩ := Option.map_eq_some_iff.mp h
      cases hs
      exact connect_display hconnect
  | load =>
    cases k with
    | raises cause =>
      cases h
      exact .refl s
    | go | skip | job =>
      simp only [spawnNext] at h
      split at h
      · rename_i s₁ n pid hrecv
        cases h
        have hsame := recv_display hrecv
        exact ⟨hsame.state, hsame.model, hsame.name⟩
      · rename_i s₁ m pid _ hrecv
        cases h
        exact recv_display hrecv
      · cases h
  | abort pc cause =>
    simp only [spawnNext] at h
    split at h
    · rename_i s₁ pc' hstop
      cases h
      exact stopNext_display hstop
    · rename_i s₁ hstop
      cases h
      exact stopNext_display hstop

theorem switchNext_display {pc : SwitchPc} {o : Outcome SwitchPc Unit}
    (h : switchNext s model k pc = some (s', o)) : SameDisplay s s' := by
  cases pc with
  | stop pc =>
    simp only [switchNext] at h
    split at h
    · rename_i s₁ pc' hstop
      cases h
      exact stopNext_display hstop
    · rename_i s₁ hstop
      cases h
      exact stopNext_display hstop
  | spawn pc =>
    obtain ⟨⟨s₁, o₁⟩, hspawn, hs⟩ := Option.map_eq_some_iff.mp h
    cases hs
    exact spawnNext_display hspawn

theorem inferNext_display {pc : InferPc} {job : Job} {o : Outcome InferPc (String × ℕ)}
    (h : inferNext s job k pc = some (s', o)) : SameDisplay s s' := by
  cases pc with
  | check =>
    simp only [inferNext] at h
    split at h
    · cases h
      exact .refl s
    · split at h <;> cases h <;> exact .refl s
  | respawn m pc =>
    obtain ⟨⟨s₁, o₁⟩, hspawn, hs⟩ := Option.map_eq_some_iff.mp h
    cases hs
    exact spawnNext_display hspawn
  | send =>
    cases k with
    | raises cause =>
      cases h
      exact .refl s
    | go | skip | job =>
      obtain ⟨s₁, hsend, hs⟩ := Option.map_eq_some_iff.mp h
      cases hs
      obtain ⟨pid, -, rfl⟩ := Option.map_eq_some_iff.mp hsend
      exact ⟨rfl, rfl, rfl⟩
  | recv =>
    cases k with
    | raises cause =>
      cases h
      exact .refl s
    | go | skip | job =>
      simp only [inferNext] at h
      split at h
      · rename_i s₁ text n pid hrecv
        cases h
        exact recv_display hrecv
      · rename_i s₁ m pid _ hrecv
        cases h
        exact recv_display hrecv
      · cases h
  | abort pc cause =>
    simp only [inferNext] at h
    split at h
    · rename_i s₁ pc' hstop
      cases h
      exact stopNext_display hstop
    · rename_i s₁ hstop
      cases h
      exact stopNext_display hstop

end Methods

-- ============================================================================
-- The worker
-- ============================================================================

section Worker

variable {cfg : Config} {s s' : State} {k : Choice} {b : Bool}

theorem Shown.same (h : Shown s b) (hsame : SameDisplay s s') : Shown s' b := by
  rw [Shown] at h ⊢
  rw [hsame.state, hsame.model, hsame.name]
  exact h

/-- A step from elsewhere than a rollback that repairs nothing. -/
theorem unrepairedNext_quiet (hfrom : s.worker.rollsBack = false)
    (hto : s'.worker.repairs = false) : unrepairedNext b s s' = b := by
  rw [unrepairedNext, rollbackFailed, hfrom, Bool.false_and, if_neg (by decide), hto,
    if_neg (by decide)]

/-- A switch or a rollback succeeds. -/
theorem unrepairedNext_repairs (hto : s'.worker.repairs = true) :
    unrepairedNext b s s' = false := by
  have hget : s'.worker ≠ .get := by
    intro hget
    rw [hget] at hto
    cases hto
  rw [unrepairedNext, rollbackFailed, decide_eq_false hget, Bool.and_false, if_neg (by decide),
    if_pos hto]

/-- A step of a handler or a child. -/
theorem DisplayAt.stays (h : DisplayAt s b s.worker) (hsame : SameDisplay s s')
    (hworker : s'.worker = s.worker) : DisplayAt s' (unrepairedNext b s s') s'.worker := by
  have hfailed : rollbackFailed s s' = false := by
    rw [rollbackFailed, hworker]
    cases s.worker <;> rfl
  have hnext : unrepairedNext b s s' = if s.worker.repairs then false else b := by
    rw [unrepairedNext, hfailed, if_neg (by decide), hworker]
  rw [hnext, hworker]
  cases hpc : s.worker with
  | boot pc =>
    rw [hpc] at h
    exact ⟨h.1, by rw [hsame.model, hsame.name]; exact h.2⟩
  | top | switching | get | infer | inferFailed | judged =>
    rw [hpc] at h
    exact Shown.same h hsame
  | switch | rename =>
    rw [hpc] at h
    exact hsame.model.trans h
  | rollback =>
    rw [hpc] at h
    exact hsame.state.trans h
  | restored prev =>
    rw [hpc] at h
    exact ⟨rfl, h.2.trans hsame.name.symm⟩
  | restoredReady =>
    rw [hpc] at h
    exact ⟨h.1, by rw [hsame.model, hsame.name]; exact h.2⟩
  | renamed =>
    rw [hpc] at h
    exact ⟨rfl, by rw [hsame.model, hsame.name]; exact h.2⟩
  | preApply | failed | exited => trivial

theorem workerNext_display (hat : WorkerAt cfg s s.worker)
    (h : DisplayAt s b s.worker) (hn : workerNext cfg s k = some s') :
    DisplayAt s' (unrepairedNext b s s') s'.worker := by
  have hquiet : ∀ {pc : WorkerPc} {s' : State}, s.worker = pc → pc.rollsBack = false →
      s'.worker.repairs = false → unrepairedNext b s s' = b := by
    intro pc s' hpc hfrom hto
    rw [← hpc] at hfrom
    exact unrepairedNext_quiet hfrom hto
  cases hpc : s.worker with
  | boot pc =>
    rw [hpc] at h
    simp only [workerNext, hpc] at hn
    obtain ⟨⟨s₁, o⟩, hspawn, rfl⟩ := Option.map_eq_some_iff.mp hn
    have hsame := spawnNext_display hspawn
    have hmodel : s₁.vlmCurrentModel = s₁.holder.name := by
      rw [hsame.model, hsame.name]
      exact h.2
    cases o with
    | running pc' =>
      rw [hquiet hpc rfl rfl]
      exact ⟨h.1, hmodel⟩
    | returned v =>
      rw [hquiet hpc rfl rfl, h.1]
      exact ⟨rfl, hmodel⟩
    | raised cause => trivial
  | top =>
    rw [hpc] at h
    simp only [workerNext, hpc] at hn
    split at hn
    · split at hn
      · cases hn
        rw [hquiet hpc rfl rfl]
        exact Shown.same h ⟨rfl, rfl, rfl⟩
      · cases hn
        rw [hquiet hpc rfl rfl]
        exact Shown.same h ⟨rfl, rfl, rfl⟩
    · cases hn
      rw [hquiet hpc rfl rfl]
      exact Shown.same h ⟨rfl, rfl, rfl⟩
  | switching target =>
    simp only [workerNext, hpc] at hn
    cases hn
    trivial
  | preApply target prev =>
    simp only [workerNext, hpc] at hn
    cases hn
    rfl
  | switch target prev pc =>
    rw [hpc] at h
    simp only [workerNext, hpc] at hn
    obtain ⟨⟨s₁, o⟩, hswitch, rfl⟩ := Option.map_eq_some_iff.mp hn
    have hsame := switchNext_display hswitch
    cases o with
    | running | returned => exact hsame.model.trans h
    | raised cause => trivial
  | failed target prev cause =>
    simp only [workerNext, hpc] at hn
    cases hn
    rfl
  | rollback prev pc =>
    rw [hpc] at h hat
    simp only [workerNext, hpc] at hn
    obtain ⟨⟨s₁, o⟩, hswitch, rfl⟩ := Option.map_eq_some_iff.mp hn
    have hsame := switchNext_display hswitch
    cases o with
    | running pc' => exact hsame.state.trans h
    | returned v =>
      rw [unrepairedNext_repairs rfl]
      exact ⟨rfl, hat.1.trans hsame.name.symm⟩
    | raised cause =>
      -- the error of the switch stays on display
      have hnext : unrepairedNext b s (s₁.goto .get) = true := by
        have hfailed : rollbackFailed s (s₁.goto .get) = true := by
          rw [rollbackFailed, hpc]
          rfl
        rw [unrepairedNext, hfailed, if_pos rfl]
      rw [hnext]
      exact hsame.state.trans h
  | restored prev =>
    rw [hpc] at h
    simp only [workerNext, hpc] at hn
    cases hn
    rw [hquiet hpc rfl rfl]
    exact h
  | restoredReady =>
    rw [hpc] at h
    simp only [workerNext, hpc] at hn
    cases hn
    rw [hquiet hpc rfl rfl, h.1]
    exact ⟨rfl, h.2⟩
  | rename target =>
    rw [hpc] at h
    simp only [workerNext, hpc] at hn
    cases hn
    rw [unrepairedNext_repairs rfl]
    exact ⟨rfl, h⟩
  | renamed =>
    rw [hpc] at h
    simp only [workerNext, hpc] at hn
    cases hn
    rw [hquiet hpc rfl rfl, h.1]
    exact ⟨rfl, h.2⟩
  | get =>
    rw [hpc] at h
    simp only [workerNext, hpc] at hn
    split at hn
    · cases hn
      rw [hquiet hpc rfl rfl]
      exact Shown.same h ⟨rfl, rfl, rfl⟩
    · cases hn
      rw [hquiet hpc rfl rfl]
      exact Shown.same h ⟨rfl, rfl, rfl⟩
    · cases hn
  | infer job pc =>
    rw [hpc] at h
    simp only [workerNext, hpc] at hn
    obtain ⟨⟨s₁, o⟩, hinfer, rfl⟩ := Option.map_eq_some_iff.mp hn
    have hsame := inferNext_display hinfer
    have hshown : Shown s₁ b := Shown.same h hsame
    cases o with
    | running | returned | raised =>
      rw [hquiet hpc rfl rfl]
      exact hshown.same ⟨rfl, rfl, rfl⟩
  | inferFailed cause =>
    rw [hpc] at h
    simp only [workerNext, hpc] at hn
    split at hn
    · cases hn
      trivial
    · cases hn
      rw [hquiet hpc rfl rfl]
      exact Shown.same h ⟨rfl, rfl, rfl⟩
  | judged text pid =>
    rw [hpc] at h
    simp only [workerNext, hpc] at hn
    split at hn
    · cases hn
      rw [hquiet hpc rfl rfl]
      exact Shown.same h ⟨rfl, rfl, rfl⟩
    · cases hn
      rw [hquiet hpc rfl rfl]
      exact Shown.same h ⟨rfl, rfl, rfl⟩
    · cases hn
  | exited =>
    simp only [workerNext, hpc] at hn
    cases hn

theorem requestNext_display (cfg : Config) (s : State) (name : String) :
    SameDisplay s (requestNext cfg s name) := by
  refine ⟨?_, ?_, requestNext_name cfg s name⟩
  · rw [requestNext]
    split <;> rfl
  · rw [requestNext]
    split <;> rfl

/-- What is shown follows the run. -/
theorem step_display {e : Event} (hat : WorkerAt cfg s s.worker) (h : DisplayAt s b s.worker)
    (hs : step cfg s e = some s') : DisplayAt s' (unrepairedNext b s s') s'.worker := by
  cases e with
  | request name =>
    cases hs
    exact h.stays (requestNext_display cfg s name) (requestNext_same cfg s name).2.2.2
  | worker k => exact workerNext_display hat h hs
  | child pid k =>
    simp only [step] at hs
    split at hs
    · obtain ⟨c', -, rfl⟩ := Option.map_eq_some_iff.mp hs
      exact h.stays ⟨rfl, rfl, rfl⟩ rfl
    · cases hs

end Worker

-- ============================================================================
-- Whole runs
-- ============================================================================

/-- The inference that has just returned: the state is `ready` and the shown model is the one
whose child generated the text. -/
def Truthful (s : State) (child : ℕ) : Prop :=
  s.vlmState = .ready ∧ ∃ c, s.children[child]? = some c ∧ c.model = s.vlmCurrentModel

theorem display_run {cfg : Config} {s : State} {past : List State}
    (h : Trace (step cfg) free (init cfg) (s :: past)) :
    (Books s ∧ WorkerAt cfg s s.worker) ∧ DisplayAt s (unrepaired (s :: past)) s.worker := by
  refine h.invariant (K := fun s past => (Books s ∧ WorkerAt cfg s s.worker) ∧
    DisplayAt s (unrepaired (s :: past)) s.worker) ?_ ?_
  · exact ⟨⟨books_init cfg, rfl, fun _ _ hc => by cases hc⟩, rfl, rfl⟩
  · intro a l e a' hk _ hs
    obtain ⟨⟨hb, hat⟩, hd⟩ := hk
    exact ⟨step_spec hb hat hs, step_display hat hd hs⟩

/-- Whenever an inference has just returned a result, the display is true exactly when no rollback
has failed since the last switch or rollback that succeeded. -/
theorem displayed_truthful_iff (cfg : Config) {s : State} {past : List State} {text : String}
    {child : ℕ} (h : Trace (step cfg) free (init cfg) (s :: past))
    (hjudged : s.worker = .judged text child) :
    Truthful s child ↔ unrepaired (s :: past) = false := by
  obtain ⟨⟨-, hat⟩, hshown⟩ := display_run h
  rw [hjudged] at hat hshown
  obtain ⟨-, c, hc, hmodel, -⟩ := hat
  cases hstale : unrepaired (s :: past) with
  | true =>
    rw [hstale] at hshown
    have herror : s.vlmState = .error := hshown
    refine iff_of_false (fun htrue => ?_) (by decide)
    rw [htrue.1] at herror
    cases herror
  | false =>
    rw [hstale] at hshown
    obtain ⟨hready, hname⟩ : s.vlmState = .ready ∧ s.vlmCurrentModel = s.holder.name := hshown
    exact iff_of_true ⟨hready, c, hc, hmodel.trans hname.symm⟩ rfl

/-- A switch fails and is rolled back; the next inference answers. -/
def sampleRolledBack : List Event :=
  sampleBoot ++ .request "B" :: goes 5 ++ .worker (.raises "no memory") :: goes 5 ++
    .child 1 .loaded :: goes 3 ++ .worker (.job ⟨[1], "What is there?"⟩) :: goes 2 ++
    [.child 1 .recv, .child 1 (.generated "a cat")] ++ goes 1

theorem displayed_truthful_rolledBack :
    ∃ s past, Trace (step sampleConfig) free (init sampleConfig) (s :: past) ∧
      s.worker = .judged "a cat" 1 ∧ Truthful s 1 ∧ unrepaired (s :: past) = false := by
  let s := exec (step sampleConfig) (init sampleConfig) sampleRolledBack
  have hreach : Reachable sampleConfig s := Steps.exec (by decide)
  have hjudged : s.worker = .judged "a cat" 1 := by decide
  have hready : s.vlmState = .ready := by decide
  have hmodel : (s.children[1]?).map Child.model = some s.vlmCurrentModel := by decide
  have htrue : Truthful s 1 := ⟨hready, Option.map_eq_some_iff.mp hmodel⟩
  obtain ⟨past, htrace⟩ := hreach.trace
  exact ⟨s, past, htrace, hjudged, htrue,
    (displayed_truthful_iff sampleConfig htrace hjudged).mp htrue⟩

/-- The rollback fails too: the next inference answers with the previous model, and the display
has the error of the switch and its target. -/
theorem displayed_stale :
    ∃ s, Reachable sampleConfig s ∧ s.worker = .judged "a cat" 2 ∧ ¬Truthful s 2 ∧
      s.vlmState = .error ∧ s.vlmCurrentModel = "B" ∧
      (s.children[2]?).map Child.model = some "A" := by
  let s := exec (step sampleConfig) (init sampleConfig) sampleDoubleFailure.dropLast
  have hreach : Reachable sampleConfig s := Steps.exec (by decide)
  have hstate : s.vlmState = .error := by decide
  refine ⟨s, hreach, by decide, fun h => ?_, hstate, by decide, by decide⟩
  rw [h.1] at hstate
  cases hstate

end Babycat.Analyzer.Vlm
