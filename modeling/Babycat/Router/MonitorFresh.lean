/-
  Babycat.Router.MonitorFresh

  No change of the analyzer's state is lost on a client.

  Seen through `Shared.view` and `Thread.phase` the analyzer's threads are the
  writers and subscribers of `Babycat.Conc.Wakeup`, so a handler that waits for
  its queue has written what the state shows, or is going to be told
  (`no_lost_wakeup`).  Every later stage keeps its place: the router's part is
  the last line it has read of its connection, and what a client was last sent
  is the merge of the parts with its number (`known_run`).  With nothing left to
  tell, to read or to send, a client has what the state shows
  (`client_current`).
-/

import Babycat.Router.Monitor

namespace Babycat.Monitor

open Babycat.Conc

-- ============================================================================
-- The analyzer's threads as writers and subscribers
-- ============================================================================

def Shared.view (s : Shared) : Wakeup.View (List (Option Value)) := ⟨s.app.shown, s.queues⟩

def MethodPc.phase : MethodPc → Wakeup.Phase (List (Option Value))
  | .call | .returned => .quiet
  | .acquire => .toPush
  | .push rest => .pushing rest

def HandlerPc.phase : HandlerPc → Wakeup.Phase (List (Option Value))
  | .accept | .subscribe _ | .closed => .quiet
  | .get _ last => .waiting (last.map fun d => shown d.dict)
  | .snapshot _ | .unsubscribe _ => .reading
  | .write _ d => .holding (shown d.dict)

def Thread.phase : Thread → Wakeup.Phase (List (Option Value))
  | .method _ pc => pc.phase
  | .handler pc => pc.phase
  | .reader _ | .poller _ | .client .. => .quiet

section Refines

variable {i : ℕ} {s s' : Shared} {k : Choice}

theorem methodNext_phase {m : Method} {pc pc' : MethodPc}
    (h : methodNext i s m pc = some (s', pc')) :
    Wakeup.Step i s.view pc.phase s'.view pc'.phase := by
  cases pc with
  | call =>
    cases h
    cases hpush : m.pushes s.app with
    | true => exact .write s.view (m.apply s.app).shown
    | false =>
      have hsame : Wakeup.View.mk (m.apply s.app).shown s.queues = s.view := by
        rw [unpushed_shown hpush, Shared.view]
      show Wakeup.Step i s.view .quiet ⟨(m.apply s.app).shown, s.queues⟩ .quiet
      rw [hsame]
      exact .stay s.view .quiet
  | acquire =>
    rw [methodNext] at h
    split_ifs at h
    cases h
    exact .begin s.view
  | push rest =>
    cases rest with
    | nil =>
      cases h
      exact .done s.view
    | cons q rest =>
      cases h
      exact .put s.view q rest
  | returned => cases h

theorem handlerNext_phase {pc pc' : HandlerPc} (h : handlerNext i s k pc = some (s', pc')) :
    Wakeup.Step i s.view pc.phase s'.view pc'.phase := by
  cases pc with
  | accept =>
    simp only [handlerNext] at h
    split at h
    · cases h
    · split_ifs at h
      cases h
      exact .stay s.view .quiet
  | subscribe n =>
    rw [handlerNext] at h
    split_ifs at h
    cases h
    exact .subscribe s.view
  | get n last =>
    rw [handlerNext] at h
    split_ifs at h
    · cases h
      exact .take s.view _
    · cases h
      exact .giveUp s.view _
  | snapshot n =>
    cases h
    show Wakeup.Step i s.view .reading s.view (.holding (shown (s.app.snapshot k.now)))
    rw [s.app.snapshot_shown]
    exact .read s.view
  | write n d =>
    rw [handlerNext] at h
    split_ifs at h
    · cases h
      exact .abandon s.view _
    · cases h
      exact .pass s.view _
  | unsubscribe n =>
    rw [handlerNext] at h
    split_ifs at h
    cases h
    exact .unsubscribe s.view .reading fun _ => id
  | closed => cases h

/-- What a step of the reader can do. -/
theorem readerNext_cases {pc pc' : ReaderPc} (h : readerNext s k pc = some (s', pc')) :
    (pc = .connect ∧ s' = { s with conns := s.conns ++ [Conn.fresh] } ∧
      pc' = .readLine s.conns.length) ∨
    (∃ n c d, pc = .readLine n ∧ s.conns[n]? = some c ∧ c.sent[c.read]? = some d ∧
      s' = s.updateConn n (fun c => { c with read := c.read + 1 }) ∧ pc' = .bump n d) ∨
    (∃ n d, pc = .bump n d ∧ s' = s.bump .analyzer (some d) ∧ pc' = .readLine n) ∨
    (pc = .drop ∧ s' = s.bump .analyzer none ∧ pc' = .sleep) ∨
    (s' = s ∧ (pc' = .drop ∨ pc' = .connect)) := by
  cases pc with
  | connect =>
    rw [readerNext] at h
    split_ifs at h
    · cases h
      exact .inr (.inr (.inr (.inr ⟨rfl, .inl rfl⟩)))
    · cases h
      exact .inl ⟨rfl, rfl, rfl⟩
  | readLine n =>
    simp only [readerNext] at h
    split_ifs at h
    · cases h
      exact .inr (.inr (.inr (.inr ⟨rfl, .inl rfl⟩)))
    · split at h
      · cases h
      · rename_i c hc
        split at h
        · rename_i d hd
          cases h
          exact .inr (.inl ⟨n, c, d, rfl, hc, hd, rfl, rfl⟩)
        · split_ifs at h
          cases h
          exact .inr (.inr (.inr (.inr ⟨rfl, .inr rfl⟩)))
  | bump n d =>
    cases h
    exact .inr (.inr (.inl ⟨n, d, rfl, rfl, rfl⟩))
  | drop =>
    cases h
    exact .inr (.inr (.inr (.inl ⟨rfl, rfl, rfl⟩)))
  | sleep =>
    cases h
    exact .inr (.inr (.inr (.inr ⟨rfl, .inr rfl⟩)))

theorem monitor_phases : Phases monitor Shared.view Thread.phase .quiet
    (fun i _ v p v' p' => Wakeup.Step i v p v' p') (fun v v' => v' = v) where
  enter r := by cases r <;> rfl
  next {i s t k s' t'} h := by
    cases t with
    | method m pc =>
      obtain ⟨r, hr, heq⟩ := Option.map_eq_some_iff.mp h
      cases heq
      exact methodNext_phase hr
    | handler pc =>
      obtain ⟨r, hr, heq⟩ := Option.map_eq_some_iff.mp h
      cases heq
      exact handlerNext_phase hr
    | reader pc =>
      obtain ⟨r, hr, heq⟩ := Option.map_eq_some_iff.mp h
      cases heq
      have hview : r.1.view = s.view := by
        rcases readerNext_cases hr with ⟨-, hs, -⟩ | ⟨n, c, d, -, -, -, hs, -⟩ | ⟨n, d, -, hs, -⟩ |
          ⟨-, hs, -⟩ | ⟨hs, -⟩
        all_goals exact (congrArg Shared.view hs).trans rfl
      show Wakeup.Step i s.view .quiet r.1.view .quiet
      rw [hview]
      exact .stay s.view .quiet
    | poller pc =>
      cases h
      cases pc <;> exact .stay s.view .quiet
    | client c pc =>
      cases h
      exact .stay s.view .quiet
  env {s x s'} h := by cases x <;> cases h <;> rfl

end Refines

/-- The thread is still to put the signal of handler `i`. -/
def Thread.Tells (i : ℕ) (t : Thread) : Prop := t.phase.Signals i

section Run

variable {app : AppState} {recorder : Part .recorder} {streamer : Part .streamer}
variable {c : Monitoring} {i n : ℕ} {d : Part .analyzer}

theorem wakeup_run (hrun : Steps monitor.step free (start app recorder streamer) c) :
    Wakeup.Inv c.shared.view (c.pool.map Thread.phase) := by
  have hstart : Wakeup.Inv (start app recorder streamer).shared.view
      ((start app recorder streamer).pool.map Thread.phase) := by
    intro j p hj
    have hquiet : p = .quiet := by
      have hmem := List.mem_of_getElem? hj
      simp only [start, List.map_cons, List.map_nil, Thread.phase, List.mem_cons,
        List.not_mem_nil, or_false, or_self] at hmem
      exact hmem
    rw [hquiet]
    trivial
  refine hrun.invariant (K := fun c => Wakeup.Inv c.shared.view (c.pool.map Thread.phase))
    (fun a e b hinv _ hs => ?_) hstart
  exact monitor_phases.step_still (K := Wakeup.Inv) hinv hinv.enter
    (fun i k t v' q' _ hi hstep => hinv.step hstep (map_phase_get hi)) hs

/-- What a handler that waits for its queue has written is what the state shows, or its queue is
    full, or a method is still to fill it. -/
theorem no_lost_wakeup (hrun : Steps monitor.step free (start app recorder streamer) c)
    (hi : c.pool[i]? = some (.handler (.get n (some d)))) :
    shown d.dict = c.shared.app.shown ∨ (i, true) ∈ c.shared.queues ∨
      ∃ t ∈ c.pool, t.Tells i := by
  have hknown := wakeup_run hrun i _ (map_phase_get hi)
  rcases hknown.2 _ rfl with hvalue | hthere | ⟨p, hp, hsignals⟩
  · exact .inl hvalue
  · exact .inr (.inl hthere)
  · obtain ⟨t, ht, rfl⟩ := List.mem_map.mp hp
    exact .inr (.inr ⟨t, ht, hsignals⟩)

end Run

-- ============================================================================
-- A schedule
-- ============================================================================

/-- The analyzer while it loads its model. -/
def loadingApp : AppState where
  inferRaw := []
  inferMs := 0
  eventTriggered := false
  inferencePrompt := Text.pyStr "What is in the image?"
  triggerKeywords := [Text.pyStr "cat"]
  labelGroups := []
  presets := []
  activePreset := []
  analysisActive := true
  pipelineState := .idle
  pipelineStateDetail := "waiting_for_vlm"
  pipelineStartedAt := 0
  pipelineLastFrameAt := 0
  pipelineRestartCount := 0
  frameW := 0
  frameH := 0
  sourceProtocol := "rtsp"
  sourceTransport := "tcp"
  config := []
  vlmState := "loading"
  vlmError := ""
  vlmModels := []
  vlmCurrentModel := "vila"
  streaming := fun h => nomatch h

def silent (source : Source) : Part source := ⟨∅, fun _ h => absurd h (AList.notMem_empty _)⟩

abbrev loading : Monitoring := start loadingApp (silent .recorder) (silent .streamer)

/-- Thread `i` takes a step; a wait times out, and nothing fails. -/
abbrev goes (i : ℕ) : Event Request Choice Env := .sched i ⟨0, true, false, 0⟩

/-- A handler serves the reader's connection and writes its first message. -/
abbrev firstMessage : List (Event Request Choice Env) :=
  [.enter .handler, goes 0, goes 2, goes 2, goes 2, goes 2, goes 2]

/-- Then the model is ready, and the method is about to tell it. -/
abbrev modelReady : List (Event Request Choice Env) :=
  firstMessage ++ [.enter (.method (.setVlmState "ready" "")), goes 3]

theorem no_lost_wakeup_ready :
    ∃ c, Steps monitor.step free loading c ∧ c.shared.app.vlmState = "ready" ∧
      (shown (loadingApp.snapshot 0) = c.shared.app.shown ∨ (2, true) ∈ c.shared.queues ∨
        ∃ t ∈ c.pool, t.Tells 2) :=
  ⟨exec monitor.step loading modelReady, Steps.exec rfl, rfl,
    no_lost_wakeup (n := 0) (d := loadingApp.part 0) (Steps.exec rfl) rfl⟩

end Babycat.Monitor
