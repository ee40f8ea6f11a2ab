/-
  Babycat.Analyzer.InFlight

  "Stop discards in-flight work" (SDD §7.3).

  The worker looks at the active flag once after the VLM has answered and then
  writes the judgment and starts the notification threads without looking
  again, and the flag it looks at may be the one of a newer start.  `Discards`
  is the guard of the runs in which neither shows: a stop drops the flag only
  while nothing that passed the check is still to take effect, and the worker
  passes the check only with frames sampled since the last stop.  In these runs
  nothing sampled before a stop surfaces after it (`stop_discards`).
-/

import Babycat.Analyzer.Steps

namespace Babycat.Analyzer

open Babycat.Conc
open Babycat.Text (PyStr pyStr)

/-- With how many stops the frames were sampled of an inference that passed the check. -/
def Thread.carries : Thread → Option ℕ
  | .worker _ _ (.judge inf _ _) => some inf.snapshot.frames.sampledAt
  | .worker _ _ (.update j) | .worker _ _ (.spawnEvent j) | .worker _ _ (.spawnInference j) =>
      some j.sampledAt
  | _ => none

/-- A stop finds nothing in flight past the check, and the check does not take the flag of a
    newer start for that of the inference. -/
def discards (c : Conf Shared Thread) : Event Request Choice Env → Bool
  | .sched i _ =>
      match c.pool[i]? with
      | some (.worker _ _ (.check inf _ _)) =>
          !c.shared.app.analysisActive ||
            decide (inf.snapshot.frames.sampledAt = c.shared.hist.stops)
      | some (.stop .setActive) =>
          !c.shared.app.analysisActive ||
            (c.shared.outbox.isEmpty && c.pool.all fun t => t.carries.isNone)
      | _ => true
  | _ => true

def Discards (c : Conf Shared Thread) (e : Event Request Choice Env) : Prop :=
  discards c e = true

instance (c : Conf Shared Thread) (e : Event Request Choice Env) : Decidable (Discards c e) :=
  inferInstanceAs (Decidable (_ = true))

/-- Nothing sampled before a stop has surfaced, waits to be delivered or is on display
    after it. -/
structure InFlightInv (s : Shared) : Prop where
  surfaced : ∀ x ∈ s.hist.surfaced, x.sampledAt = x.surfacedAt
  outbox : ∀ o ∈ s.outbox, o.sampledAt = s.hist.stops
  shown : s.app.inferRaw ≠ [] ∨ s.app.eventTriggered = true → s.hist.shown = s.hist.stops

/-- An inference past the check has frames sampled since the last stop. -/
def InFlightAssertion (_ : ℕ) (s : Shared) (t : Thread) : Prop :=
  ∀ n, t.carries = some n → n = s.hist.stops

/-! ## What a step surfaces -/

/-- The steps, as far as judgments and notifications are concerned. -/
inductive SurfaceStep (s : Shared) (t : Thread) (s' : Shared) (t' : Thread) : Prop
  | quiet (h : JudgmentSame s s') (ht : t'.carries = none)
  | carry (h : JudgmentSame s s') (ht : t'.carries = t.carries)
  | pass (h : JudgmentSame s s') {last : ℚ} {failures : ℕ} {inf : Inference} {raw : PyStr}
      {ms : ℤ} (hpc : t = .worker last failures (.check inf raw ms))
      (hactive : s.app.analysisActive = true)
      (ht : t'.carries = some inf.snapshot.frames.sampledAt)
  | update (j : Judgment) (hc : t.carries = some j.sampledAt) (hs : s' = s.updateInference j)
      (ht : t'.carries = some j.sampledAt)
  | spawn (note : Notification) (n : ℕ) (hc : t.carries = some n) (hs : s' = s.spawn note n)
      (ht : t'.carries = some n ∨ t'.carries = none)
  | stop (hpc : t = .stop .setActive) (hs : s' = s.setActive false) (ht : t'.carries = none)

section Surface

variable {cfg : Config} {i : ℕ} {s s' : Shared} {k : Choice} {t t' : Thread}

theorem workerNext_surface {last last' : ℚ} {failures failures' : ℕ} {pc pc' : WorkerPc}
    (h : workerNext cfg s k last failures pc = some (s', last', failures', pc')) :
    SurfaceStep s (.worker last failures pc) s' (.worker last' failures' pc') := by
  cases pc with
  | notStarted | get =>
      simp only [workerNext] at h
      split at h
      · cases h; exact .quiet ⟨rfl, rfl, rfl, rfl⟩ rfl
      · cases h; try exact .quiet ⟨rfl, rfl, rfl, rfl⟩ rfl
  | checkActive | interval =>
      cases h
      refine .quiet ⟨rfl, rfl, rfl, rfl⟩ ?_
      split <;> rfl
  | sample =>
      cases h
      refine .quiet ⟨rfl, rfl, rfl, rfl⟩ ?_
      split <;> rfl
  | infer inf =>
      simp only [workerNext] at h
      split at h
      · cases h; exact .quiet ⟨rfl, rfl, rfl, rfl⟩ rfl
      · cases h
        refine .quiet ⟨rfl, rfl, rfl, rfl⟩ ?_
        split <;> rfl
      · cases h
  | check inf raw ms =>
      cases h
      cases hactive : s.app.analysisActive with
      | true => exact .pass ⟨rfl, rfl, rfl, rfl⟩ rfl hactive (by simp [Thread.carries])
      | false => exact .quiet ⟨rfl, rfl, rfl, rfl⟩ (by simp [Thread.carries])
  | judge inf raw ms => cases h; exact .carry ⟨rfl, rfl, rfl, rfl⟩ rfl
  | update j =>
      cases h
      refine .update j rfl rfl ?_
      split <;> rfl
  | spawnEvent j => cases h; exact .spawn j.eventNote j.sampledAt rfl rfl (.inl rfl)
  | spawnInference j =>
      cases h
      exact .spawn (j.inferenceNote s.now s.holderName) j.sampledAt rfl rfl (.inr rfl)
  | prompt | triggers | labels | presets | setPreset | begin =>
      cases h; exact .quiet ⟨rfl, rfl, rfl, rfl⟩ rfl
  | exited => cases h

/-- Only the worker surfaces anything, and only a stop's flag write discards anything. -/
theorem next_surface (hn : next cfg i s t k = some (s', t')) : SurfaceStep s t s' t' := by
  cases t with
  | boot pc =>
      obtain ⟨pc', hstep, rfl⟩ := next_boot hn
      exact .quiet (bootNext_same hstep).1 rfl
  | worker last failures pc =>
      obtain ⟨last', failures', pc', hstep, rfl⟩ := next_worker hn
      exact workerNext_surface hstep
  | watchdog timeout pc =>
      obtain ⟨timeout', pc', hstep, rfl⟩ := next_watchdog hn
      exact .quiet (watchdogNext_same hstep).1 rfl
  | prompt b pc =>
      obtain ⟨pc', hstep, rfl⟩ := next_prompt hn
      exact .quiet (promptNext_judgment hstep) rfl
  | presets b pc =>
      obtain ⟨pc', hstep, rfl⟩ := next_presets hn
      exact .quiet (presetsNext_judgment hstep) rfl
  | start pc =>
      obtain ⟨pc', hstep, rfl⟩ := next_start hn
      exact .quiet (startHandlerNext_judgment hstep) rfl
  | stop pc =>
      obtain ⟨pc', hstep, rfl⟩ := next_stop hn
      rcases stopHandlerNext_judgment hstep with h | ⟨rfl, rfl⟩
      · exact .quiet h rfl
      · exact .stop rfl rfl rfl
  | frame p img pc =>
      obtain ⟨pc', hstep, rfl⟩ := next_frame hn
      exact .quiet (frameNext_same hstep).1 rfl

end Surface

/-! ## The runs in which a stop discards -/

theorem InFlightInv.of_same {s s' : Shared} (h : JudgmentSame s s') (inv : InFlightInv s) :
    InFlightInv s' where
  surfaced := h.hist ▸ inv.surfaced
  outbox := by rw [h.outbox, h.hist]; exact inv.outbox
  shown := by rw [h.inferRaw, h.eventTriggered, h.hist]; exact inv.shown

theorem InFlightInv.update {s : Shared} (inv : InFlightInv s) (j : Judgment)
    (hj : j.sampledAt = s.hist.stops) : InFlightInv (s.updateInference j) where
  surfaced x hx := by
    rcases List.mem_cons.mp hx with rfl | hx
    · exact hj
    · exact inv.surfaced x hx
  outbox := inv.outbox
  shown _ := hj

theorem InFlightInv.spawn {s : Shared} (inv : InFlightInv s) (note : Notification) (n : ℕ)
    (hn : n = s.hist.stops) : InFlightInv (s.spawn note n) where
  surfaced := inv.surfaced
  outbox o ho := by
    rcases List.mem_append.mp ho with ho | ho
    · exact inv.outbox o ho
    · rw [List.mem_singleton.mp ho]; exact hn
  shown := inv.shown

/-- A stop of a stopped analysis is none. -/
theorem setActive_false_hist {s : Shared} (h : s.app.analysisActive = false) :
    (s.setActive false).hist = s.hist := by
  simp [Shared.setActive, h]

/-- A stop that finds nothing in flight leaves nothing of before it. -/
theorem InFlightInv.stop {s : Shared} (inv : InFlightInv s)
    (hempty : s.app.analysisActive = true → s.outbox = []) : InFlightInv (s.setActive false) where
  surfaced x hx := by
    have hsame : (s.setActive false).hist.surfaced = s.hist.surfaced := by
      simp only [Shared.setActive]
      split <;> rfl
    rw [hsame] at hx
    exact inv.surfaced x hx
  outbox o ho := by
    have hmem : o ∈ s.outbox := ho
    cases hactive : s.app.analysisActive with
    | true => rw [hempty hactive] at hmem; cases hmem
    | false => rw [setActive_false_hist hactive]; exact inv.outbox o hmem
  shown h := by
    rcases h with h | h
    · exact absurd rfl h
    · cases h

theorem InFlightInv.surface {s : Shared} (inv : InFlightInv s) (effect : Effect) (n : ℕ)
    (hn : n = s.hist.stops) : InFlightInv (s.surface effect n) where
  surfaced x hx := by
    rcases List.mem_cons.mp hx with rfl | hx
    · exact hn
    · exact inv.surfaced x hx
  outbox := inv.outbox
  shown := inv.shown

/-- What the guard says of the step that drops the flag. -/
theorem stop_guard {c : Conf Shared Thread} {i : ℕ} {k : Choice}
    (hG : Discards c (.sched i k)) (ht : c.pool[i]? = some (.stop .setActive))
    (hactive : c.shared.app.analysisActive = true) :
    c.shared.outbox = [] ∧ ∀ v ∈ c.pool, v.carries = none := by
  simpa [Discards, discards, ht, hactive] using hG

/-- The proof outline of the runs in which a stop discards. -/
theorem inFlight_outline (cfg : Config) :
    OwickiGries (analyzer cfg) Discards InFlightInv InFlightAssertion where
  enter i s r _ n hn := by cases r <;> cases hn
  own c i k t s' t' hc hG ht hn := by
    have ha := hc.2 i t ht
    cases next_surface hn with
    | quiet h hnone =>
        exact ⟨hc.1.of_same h, fun n hcar => by rw [hnone] at hcar; cases hcar⟩
    | carry h hsame =>
        refine ⟨hc.1.of_same h, fun n hcar => ?_⟩
        rw [h.hist]
        exact ha n (hsame ▸ hcar)
    | pass h hpc hactive hcar' =>
        -- the guard: the frames were sampled since the last stop
        subst hpc
        refine ⟨hc.1.of_same h, fun n hcar => ?_⟩
        rw [h.hist, ← Option.some.inj (hcar'.symm.trans hcar)]
        simpa [Discards, discards, ht, hactive] using hG
    | update j hcar hs hcar' =>
        subst hs
        have hj := ha _ hcar
        refine ⟨hc.1.update j hj, fun n hn' => ?_⟩
        rw [← Option.some.inj (hcar'.symm.trans hn')]
        exact hj
    | spawn note m hcar hs hcar' =>
        subst hs
        have hm := ha m hcar
        refine ⟨hc.1.spawn note m hm, fun n hn' => ?_⟩
        rcases hcar' with hcar' | hcar'
        · rw [← Option.some.inj (hcar'.symm.trans hn')]; exact hm
        · rw [hcar'] at hn'; cases hn'
    | stop hpc hs hnone =>
        subst hpc hs
        exact ⟨hc.1.stop fun hactive => (stop_guard hG ht hactive).1,
          fun n hcar => by rw [hnone] at hcar; cases hcar⟩
  others c i k t s' t' j v hc hG ht hn hne hj n hcar := by
    have hv := hc.2 j v hj n hcar
    cases next_surface hn with
    | quiet h _ | carry h _ | pass h _ _ _ => rw [h.hist]; exact hv
    | update jd _ hs _ => subst hs; exact hv
    | spawn note m _ hs _ => subst hs; exact hv
    | stop hpc hs _ =>
        -- the guard: no other thread is past the check
        subst hpc hs
        cases hactive : c.shared.app.analysisActive with
        | true =>
            have hnone := (stop_guard hG ht hactive).2 v (List.mem_of_getElem? hj)
            rw [hcar] at hnone; cases hnone
        | false => rw [setActive_false_hist hactive]; exact hv
  env c x s' hc _ hx := by
    cases x with
    | tick d =>
        simp only [analyzer, env] at hx
        split at hx
        · cases hx
          exact ⟨⟨hc.1.surfaced, hc.1.outbox, hc.1.shown⟩,
            fun j v hj n hcar => hc.2 j v hj n hcar⟩
        · cases hx
    | deliver m =>
        simp only [analyzer, env] at hx
        split at hx
        · cases hx
        · rename_i o ho
          cases hx
          have hmem : o ∈ c.shared.outbox := List.mem_iff_getElem?.mpr ⟨m, ho⟩
          have hless : InFlightInv { c.shared with outbox := c.shared.outbox.eraseIdx m } :=
            ⟨hc.1.surfaced, fun o ho => hc.1.outbox o (List.mem_of_mem_eraseIdx ho), hc.1.shown⟩
          exact ⟨hless.surface _ _ (hc.1.outbox o hmem), fun j v hj n hcar => hc.2 j v hj n hcar⟩
    | lose m =>
        simp only [analyzer, env] at hx
        split at hx
        · cases hx
          exact ⟨⟨hc.1.surfaced, fun o ho => hc.1.outbox o (List.mem_of_mem_eraseIdx ho),
            hc.1.shown⟩, fun j v hj n hcar => hc.2 j v hj n hcar⟩
        · cases hx

/-- Nothing has surfaced when the HTTP server starts, and nothing is in flight. -/
theorem inFlight_boot (saved : Saved) (model : String) (now : ℚ) :
    Annotated InFlightInv InFlightAssertion (boot saved model now) := by
  have hinv : InFlightInv (boot saved model now).shared := by
    constructor
    · intro x hx
      cases hx
    · intro o ho
      cases ho
    · intro h
      rcases h with h | h
      · exact absurd rfl h
      · cases h
  refine ⟨hinv, fun i t hi n hn => ?_⟩
  rcases boot_thread hi with rfl | rfl | rfl <;> cases hn

/-- In the runs that `Discards` allows, no effect of an inference takes place after a stop
    that came after its frames were sampled, and what is on display comes from no such
    inference either. -/
theorem stop_discards (cfg : Config) (saved : Saved) (model : String) (now : ℚ)
    (c : Conf Shared Thread)
    (h : Steps (analyzer cfg).step Discards (boot saved model now) c) :
    (∀ x ∈ c.shared.hist.surfaced, x.sampledAt = x.surfacedAt) ∧
    (c.shared.app.inferRaw ≠ [] ∨ c.shared.app.eventTriggered = true →
      c.shared.hist.shown = c.shared.hist.stops) := by
  have hinv := ((inFlight_outline cfg).steps h (inFlight_boot saved model now)).1
  exact ⟨hinv.surfaced, hinv.shown⟩

/-! ## Executions -/

/-- Boot starts the pipeline of a restored analysis, a frame arrives, and the worker samples it
    and calls the VLM. -/
def inferring : List (Event Request Choice Env) :=
  goes 0 13 ++ .enter (.frame 0 7) :: goes 3 4 ++ goes 1 11

/-- A `/stop` while the VLM is working, whose answer is discarded; then a `/start`, a frame of the
    new pipeline, its inference, and the event notification of that one. -/
def judged : List (Event Request Choice Env) :=
  inferring ++ .enter .stop :: goes 4 11 ++ .sched 1 (.infer (pyStr "smoke!")) :: goes 1 1 ++
    .enter .start :: goes 5 18 ++ .enter (.frame 1 8) :: goes 6 4 ++ goes 1 10 ++
    .sched 1 (.infer (pyStr "fire!")) :: goes 1 5 ++ [.env (.deliver 0)]

/-- A `/stop` drops the flag between the worker's check and its effects. -/
def stopAfterCheck : List (Event Request Choice Env) :=
  inferring ++ .enter .stop :: .sched 1 (.infer (pyStr "fire!")) :: .sched 1 .go :: .sched 4 .go ::
    goes 1 2

/-- A `/stop` and a `/start` set their flags while the VLM is working. -/
def stopAndStart : List (Event Request Choice Env) :=
  inferring ++ .enter .stop :: .sched 4 .go :: .enter .start :: .sched 5 .go ::
    .sched 1 (.infer (pyStr "fire!")) :: goes 1 3

abbrev judgedState : Conf Shared Thread :=
  exec (guardedStep (analyzer sampleConfig).step Discards) (boot sampleSaved "vlm" 100) judged

set_option maxRecDepth 4000 in
/-- One inference is discarded by a stop, and two effects of the next one surface, in a run that
    `stop_discards` covers. -/
theorem stop_discards_judged :
    (judgedState.shared.hist.stops = 1 ∧ judgedState.shared.hist.surfaced.length = 2 ∧
      judgedState.shared.app.inferRaw = pyStr "fire!") ∧
    (∀ x ∈ judgedState.shared.hist.surfaced, x.sampledAt = x.surfacedAt) ∧
    (judgedState.shared.app.inferRaw ≠ [] ∨ judgedState.shared.app.eventTriggered = true →
      judgedState.shared.hist.shown = judgedState.shared.hist.stops) :=
  ⟨by decide, stop_discards sampleConfig sampleSaved "vlm" 100 judgedState
    (Steps.execGuarded (by decide))⟩

set_option maxRecDepth 4000 in
/-- An inference surfaces after the stop: when the stop comes between the worker's check and
    its effects the judgment is on display although analysis is stopped, and when a start
    follows the stop during the call of the VLM the check passes. -/
theorem stop_overtaken :
    (∃ c, Steps (analyzer sampleConfig).step free (boot sampleSaved "vlm" 100) c ∧
      c.shared.app.analysisActive = false ∧ c.shared.app.inferRaw = pyStr "fire!" ∧
      ∃ x ∈ c.shared.hist.surfaced, x.sampledAt < x.surfacedAt) ∧
    (∃ c, Steps (analyzer sampleConfig).step free (boot sampleSaved "vlm" 100) c ∧
      c.shared.app.analysisActive = true ∧ c.shared.app.inferRaw = pyStr "fire!" ∧
      ∃ x ∈ c.shared.hist.surfaced, x.sampledAt < x.surfacedAt) :=
  ⟨⟨exec (analyzer sampleConfig).step (boot sampleSaved "vlm" 100) stopAfterCheck,
      Steps.exec (by decide), by decide⟩,
    ⟨exec (analyzer sampleConfig).step (boot sampleSaved "vlm" 100) stopAndStart,
      Steps.exec (by decide), by decide⟩⟩

end Babycat.Analyzer
