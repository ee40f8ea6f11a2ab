/-
  Babycat.Analyzer.IpcReplies

  The channel between `VlmProcess` and its child (`vlm_worker.py`): no reply is
  taken for the reply to another message.

  The messages of the protocol carry no number, so `infer` returns whatever
  comes next.  That this is the reply to its own message rests on the channel
  being empty at every send: a child that was asked is either heard or, on a
  timeout or a broken pipe, dropped with its channel.  `Quiet` says so for the
  program counters of the worker at which nobody has been asked; while `infer`
  waits, the child holds exactly one message, at some stage of its way through
  the model (`Child.Answering`).
-/

import Babycat.Analyzer.ModelBookkeeping

namespace Babycat.Analyzer.Vlm

open Babycat.Conc

-- ============================================================================
-- What a child may hold
-- ============================================================================

/-- Nothing is in the channel and nothing is being computed. -/
structure Child.Drained (c : Child) : Prop where
  pc : c.pc = .serving ∨ c.pc = .exited
  inbox : c.inbox = []
  outbox : c.outbox = []

/-- No parent has connected. -/
structure Child.Fresh (c : Child) : Prop where
  pc : c.pc = .listening ∨ c.pc = .exited
  inbox : c.inbox = []
  outbox : c.outbox = []

/-- The child has sent at most the one message that says how its load went. -/
structure Child.Starting (c : Child) : Prop where
  inbox : c.inbox = []
  outbox : (c.pc = .loading ∧ c.outbox = []) ∨
    ((c.pc = .serving ∨ c.pc = .exited) ∧ c.outbox.length ≤ 1)

/-- The child has message `n` alone and has not answered it, or its answer is the only one in
    the channel and meets `P`. -/
inductive Child.Answering (n : ℕ) (job : Job) (P : Message → Prop) (c : Child) : Prop
  | asked (hpc : c.pc = .serving ∨ c.pc = .exited) (hin : c.inbox = [(n, job)])
      (hout : c.outbox = [])
  | computing (hpc : c.pc = .running n job ∨ c.pc = .exited) (hin : c.inbox = [])
      (hout : c.outbox = [])
  | answered (m : Message) (hpc : c.pc = .serving ∨ c.pc = .exited) (hin : c.inbox = [])
      (hout : c.outbox = [m]) (hm : P m)

/-- The child after it has generated `text` for message `n`. -/
def Child.answer (c : Child) (n : ℕ) (text : String) : Child :=
  { c with
    pc := .serving
    outbox := c.outbox ++ [⟨.result text, some n⟩]
    produced := c.produced ++ [text] }

section ChildSteps

variable {c c' : Child} {closed : Bool} {k : ChildChoice} {n : ℕ} {job : Job}
variable {P P' : Message → Prop}

/-- A child that serves and has nothing to read can only exit. -/
theorem childNext_idle (hpc : c.pc = .serving ∨ c.pc = .exited) (hin : c.inbox = [])
    (hs : childNext c closed k = some c') : c' = c.exit := by
  rcases hpc with hpc | hpc
  · cases k with
    | recv => simp [childNext, hpc, hin] at hs
    | eof =>
        simp only [childNext, hpc] at hs
        split at hs
        · exact (Option.some.inj hs).symm
        · cases hs
    | crash =>
        simp only [childNext, hpc] at hs
        exact (Option.some.inj hs).symm
    | loaded | loadError | generated | raised => simp [childNext, hpc] at hs
  · simp only [childNext, hpc] at hs
    cases hs

theorem Child.Fresh.step (h : c.Fresh) (hs : childNext c closed k = some c') : c'.Fresh := by
  rcases h.pc with hpc | hpc
  · cases k <;> simp only [childNext, hpc] at hs <;> cases hs
    exact ⟨.inr rfl, h.inbox, h.outbox⟩
  · simp only [childNext, hpc] at hs
    cases hs

theorem Child.Drained.step (h : c.Drained) (hs : childNext c closed k = some c') :
    c'.Drained := by
  rw [childNext_idle h.pc h.inbox hs]
  exact ⟨.inr rfl, h.inbox, h.outbox⟩

theorem Child.Starting.step (h : c.Starting) (hs : childNext c closed k = some c') :
    c'.Starting := by
  rcases h.outbox with ⟨hpc, hout⟩ | ⟨hpc, hout⟩
  · cases k <;> simp only [childNext, hpc] at hs <;> cases hs
    · exact ⟨h.inbox, .inr ⟨.inl rfl, by simp [hout]⟩⟩
    · exact ⟨h.inbox, .inr ⟨.inr rfl, by simp [hout]⟩⟩
    · exact ⟨h.inbox, .inr ⟨.inr rfl, by simp [Child.exit, hout]⟩⟩
  · rw [childNext_idle hpc h.inbox hs]
    exact ⟨h.inbox, .inr ⟨.inr rfl, hout⟩⟩

/-- The first message received, the channel of a child that has started is empty. -/
theorem Child.Starting.received {m : Message} {rest : List Message} (h : c.Starting)
    (hout : c.outbox = m :: rest) : Child.Drained { c with outbox := rest } := by
  rcases h.outbox with ⟨-, hnil⟩ | ⟨hpc, hlen⟩
  · rw [hout] at hnil
    cases hnil
  · have hrest : rest.length = 0 := by
      rw [hout, List.length_cons] at hlen
      omega
    exact ⟨hpc, h.inbox, List.length_eq_zero_iff.mp hrest⟩

/-- The answer received, the channel is empty. -/
theorem Child.Answering.received {m : Message} {rest : List Message} (h : c.Answering n job P)
    (hout : c.outbox = m :: rest) : Child.Drained { c with outbox := rest } ∧ P m := by
  cases h with
  | asked _ _ hnil | computing _ _ hnil =>
      rw [hout] at hnil
      cases hnil
  | answered m' hpc hin hone hm =>
      rw [hout] at hone
      cases hone
      exact ⟨⟨hpc, hin, rfl⟩, hm⟩

theorem Child.Answering.mono (h : c.Answering n job P) (hP : ∀ m, P m → P' m) :
    c.Answering n job P' := by
  cases h with
  | asked hpc hin hout => exact .asked hpc hin hout
  | computing hpc hin hout => exact .computing hpc hin hout
  | answered m hpc hin hout hm => exact .answered m hpc hin hout (hP m hm)

/-- A step of a child that was asked: what it newly answers it has generated for message `n`. -/
theorem Child.Answering.step (h : c.Answering n job P)
    (hs : childNext c closed k = some c') (hP : ∀ m, P m → P' m)
    (herror : ∀ cause, P' ⟨.inferError cause, some n⟩)
    (hnew : ∀ text, c.pc = .running n job → c' = c.answer n text →
      P' ⟨.result text, some n⟩) : c'.Answering n job P' := by
  cases h with
  | asked hpc hin hout =>
      rcases hpc with hpc | hpc
      · cases k with
        | recv =>
            simp only [childNext, hpc, hin] at hs
            cases hs
            exact .computing (.inl rfl) rfl hout
        | eof => simp [childNext, hpc, hin] at hs
        | crash =>
            simp only [childNext, hpc] at hs
            cases hs
            exact .asked (.inr rfl) hin hout
        | loaded | loadError | generated | raised => simp [childNext, hpc] at hs
      · simp only [childNext, hpc] at hs
        cases hs
  | computing hpc hin hout =>
      rcases hpc with hpc | hpc
      · cases k with
        | generated text =>
            simp only [childNext, hpc] at hs
            cases hs
            exact .answered _ (.inl rfl) hin (by simp [hout]) (hnew text hpc rfl)
        | raised cause =>
            simp only [childNext, hpc] at hs
            cases hs
            exact .answered _ (.inl rfl) hin (by simp [hout]) (herror cause)
        | crash =>
            simp only [childNext, hpc] at hs
            cases hs
            exact .computing (.inr rfl) hin hout
        | loaded | loadError | recv | eof => simp [childNext, hpc] at hs
      · simp only [childNext, hpc] at hs
        cases hs
  | answered m hpc hin hout hm =>
      rw [childNext_idle hpc hin hs]
      exact .answered m (.inr rfl) hin hout (hP m hm)

end ChildSteps

-- ============================================================================
-- The channel
-- ============================================================================

/-- The child behind the connection, if there is one, has property `Q`. -/
def Connected (s : State) (Q : ℕ → Child → Prop) : Prop :=
  ∀ (pid : ℕ) c, s.vlm.conn = some pid → s.children[pid]? = some c → Q pid c

/-- Within `_spawn`. -/
def SpawnQuiet (s : State) : SpawnPc → Prop
  | .popen => Connected s fun _ => Child.Drained
  | .connect => ∀ (pid : ℕ) c, s.vlm.proc = some pid → s.children[pid]? = some c → c.Fresh
  | .load => Connected s fun _ => Child.Starting
  | .abort _ _ => True

/-- Within `switch`. -/
def SwitchQuiet (s : State) : SwitchPc → Prop
  | .stop _ => True
  | .spawn pc => SpawnQuiet s pc

/-- Within `infer`, except while it waits for the answer. -/
def InferQuiet (s : State) : InferPc → Prop
  | .check | .send => Connected s fun _ => Child.Drained
  | .respawn _ pc => SpawnQuiet s pc
  | .recv | .abort _ _ => True

/-- Nothing that `_recv` could take for a later answer is in the channel, unless the child is
    about to be dropped. -/
def Quiet (s : State) : WorkerPc → Prop
  | .boot pc => SpawnQuiet s pc
  | .switch _ _ pc | .rollback _ pc => SwitchQuiet s pc
  | .infer _ pc => InferQuiet s pc
  | .exited => True
  | _ => Connected s fun _ => Child.Drained

section Channel

variable {s s' : State} {model : String} {k : Choice} {pid : ℕ} {Q Q' : ℕ → Child → Prop}

theorem Connected.of_none (h : s.vlm.conn = none) : Connected s Q := by
  intro pid c hconn
  rw [h] at hconn
  cases hconn

/-- The connected child is changed by the parent. -/
theorem Connected.update {f : Child → Child} (hconn : s.vlm.conn = some pid)
    (hf : ∀ c, s.children[pid]? = some c → Q pid (f c)) : Connected (s.updateChild pid f) Q := by
  intro j c hj hc
  obtain rfl : pid = j := Option.some.inj (hconn.symm.trans hj)
  have hget : (s.children.modify pid f)[pid]? = some c := hc
  rw [List.getElem?_modify_eq] at hget
  obtain ⟨c₀, hc₀, rfl⟩ := Option.map_eq_some_iff.mp hget
  exact hf c₀ hc₀

/-- A step of a handler or a child: `VlmProcess` stays, and at most one child takes a step. -/
structure Moved (s s' : State) : Prop where
  vlm : s'.vlm = s.vlm
  children : ∀ (pid : ℕ) c', s'.children[pid]? = some c' → ∃ c, s.children[pid]? = some c ∧
    (c' = c ∨ ∃ closed k, childNext c closed k = some c')

/-- What a child keeps at every step of its own, the connected child keeps. -/
theorem Connected.moved {A : Child → Prop} (h : Connected s fun _ => A) (hm : Moved s s')
    (hA : ∀ {c c' closed k}, A c → childNext c closed k = some c' → A c') :
    Connected s' fun _ => A := by
  intro pid c' hconn hc'
  rw [hm.vlm] at hconn
  obtain ⟨c, hc, rfl | ⟨closed, k, hs⟩⟩ := hm.children pid c' hc'
  · exact h pid c' hconn hc
  · exact hA (h pid c hconn hc) hs

/-- `recv` takes the first message of the connected child. -/
theorem recv_update {m : Message} (h : s.recv = some (s', m, pid)) :
    s.vlm.conn = some pid ∧ ∃ c rest, s.children[pid]? = some c ∧ c.outbox = m :: rest ∧
      s' = s.updateChild pid fun c => { c with outbox := rest } := by
  simp only [State.recv] at h
  split at h
  · rename_i p hconn
    split at h
    · rename_i m' rest hout
      cases h
      obtain ⟨c, hc, hbox⟩ := Option.map_eq_some_iff.mp hout
      exact ⟨hconn, c, rest, hc, hbox, rfl⟩
    · cases h
  · cases h

/-- The child the parent has received the first message of. -/
theorem Connected.recv {m : Message} (h : s.recv = some (s', m, pid)) (hs : Connected s Q)
    (hQ : ∀ c rest, Q pid c → c.outbox = m :: rest → Q' pid { c with outbox := rest }) :
    Connected s' Q' := by
  obtain ⟨hconn, c, rest, hc, hout, rfl⟩ := recv_update h
  refine .update hconn fun d hd => ?_
  obtain rfl : c = d := Option.some.inj (hc.symm.trans hd)
  exact hQ c rest (hs pid c hconn hc) hout

theorem spawnNext_quiet {pc : SpawnPc} {o : Outcome SpawnPc Unit} (hb : Books s)
    (hat : SpawnAt s model pc) (h : SpawnQuiet s pc) (hn : spawnNext s model k pc = some (s', o)) :
    match o with
    | .running pc' => SpawnQuiet s' pc'
    | .returned _ | .raised _ => Connected s' fun _ => Child.Drained := by
  -- a spawn that raises has left everything as it was, or no child
  have hraised : ∀ cause, o = .raised cause → Connected s' fun _ => Child.Drained := by
    rintro cause rfl
    obtain ⟨-, -, -, ⟨rfl, rfl⟩ | hdown⟩ := spawnNext_spec hb hat hn
    · exact h
    · exact .of_none hdown.1
  cases pc with
  | popen =>
      have hfresh : SpawnQuiet (s.popen model) .connect := by
        intro pid c hproc hc
        obtain rfl : s.children.length = pid := by simpa [State.popen] using hproc
        rcases getElem?_append_cases hc with hold | ⟨-, rfl⟩
        · rw [List.getElem?_eq_none (le_refl _)] at hold
          cases hold
        · exact ⟨.inl rfl, rfl, rfl⟩
      cases k with
      | raises cause =>
          cases hn
          exact h
      | go | skip | job =>
          cases hn
          exact hfresh
  | connect =>
      have hgo : ∀ s₁, s.connect = some s₁ → SpawnQuiet s₁ .load := by
        intro s₁ hconnect
        simp only [State.connect] at hconnect
        split at hconnect
        · rename_i pid hproc
          split at hconnect
          · split at hconnect
            · cases hconnect
              refine Connected.update (s := { s with vlm := { s.vlm with conn := some pid } }) rfl
                fun c hc => ?_
              have hfresh := h pid c hproc hc
              exact ⟨hfresh.inbox, .inl ⟨rfl, hfresh.outbox⟩⟩
            · cases hconnect
          · cases hconnect
        · cases hconnect
      cases k with
      | raises cause =>
          cases hn
          trivial
      | go | skip | job =>
          obtain ⟨s₁, hconnect, hs⟩ := Option.map_eq_some_iff.mp hn
          cases hs
          exact hgo _ hconnect
  | load =>
      cases k with
      | raises cause =>
          cases hn
          trivial
      | go | skip | job =>
          simp only [spawnNext] at hn
          split at hn
          · rename_i s₁ n pid hrecv
            cases hn
            have hdrained : Connected s₁ fun _ => Child.Drained :=
              Connected.recv hrecv h fun c rest hc hout => hc.received hout
            exact hdrained
          · cases hn
            trivial
          · cases hn
  | abort pc cause =>
      cases o with
      | running pc' =>
          simp only [spawnNext] at hn
          split at hn <;> cases hn
          trivial
      | returned v =>
          simp only [spawnNext] at hn
          split at hn <;> cases hn
      | raised cause' => exact hraised cause' rfl

theorem switchNext_quiet {pc : SwitchPc} {o : Outcome SwitchPc Unit} (hb : Books s)
    (hat : SwitchAt s model pc) (h : SwitchQuiet s pc)
    (hn : switchNext s model k pc = some (s', o)) :
    match o with
    | .running pc' => SwitchQuiet s' pc'
    | .returned _ | .raised _ => Connected s' fun _ => Child.Drained := by
  cases pc with
  | stop pc =>
      simp only [switchNext] at hn
      split at hn
      · cases hn
        trivial
      · rename_i s₁ hstop
        cases hn
        obtain ⟨-, -, -, hdown⟩ := stopNext_spec hb hat hstop
        exact Connected.of_none hdown.1
  | spawn pc =>
      obtain ⟨⟨s₁, o₁⟩, hspawn, hs⟩ := Option.map_eq_some_iff.mp hn
      cases hs
      have hout := spawnNext_quiet hb hat.2 h hspawn
      cases o₁ <;> exact hout

/-- `P` of a message of child `pid`, when it comes as the answer to message `n`. -/
def Waiting (s : State) (n : ℕ) (job : Job) (P : ℕ → Message → Prop) : Prop :=
  Connected s fun pid c => c.Answering n job (P pid)

theorem inferNext_quiet {pc : InferPc} {job : Job} {o : Outcome InferPc (String × ℕ)}
    (hb : Books s) (hat : InferAt s model pc) (h : InferQuiet s pc)
    (hrecv : pc = .recv → ∃ n P, Waiting s n job P) (hn : inferNext s job k pc = some (s', o)) :
    match o with
    | .running pc' => InferQuiet s' pc'
    | .returned _ | .raised _ => Connected s' fun _ => Child.Drained := by
  cases pc with
  | check =>
      simp only [inferNext] at hn
      split at hn
      · cases hn
        exact h
      · split at hn <;> (cases hn; exact h)
  | respawn m pc =>
      obtain ⟨rfl, -, hat⟩ := hat
      obtain ⟨⟨s₁, o₁⟩, hspawn, hs⟩ := Option.map_eq_some_iff.mp hn
      cases hs
      have hout := spawnNext_quiet hb hat h hspawn
      cases o₁ <;> exact hout
  | send =>
      cases k with
      | raises cause =>
          cases hn
          trivial
      | go | skip | job =>
          obtain ⟨s₁, -, hs⟩ := Option.map_eq_some_iff.mp hn
          cases hs
          trivial
  | recv =>
      have hdrained : ∀ s₁ m pid, s.recv = some (s₁, m, pid) →
          Connected s₁ fun _ => Child.Drained := by
        intro s₁ m pid h₁
        obtain ⟨n, P, hwait⟩ := hrecv rfl
        exact Connected.recv h₁ hwait fun c rest hc hout => (hc.received hout).1
      cases k with
      | raises cause =>
          cases hn
          trivial
      | go | skip | job =>
          simp only [inferNext] at hn
          split at hn
          · rename_i s₁ text j pid h₁
            cases hn
            exact hdrained _ _ _ h₁
          · rename_i s₁ m pid _ h₁
            cases hn
            exact hdrained _ _ _ h₁
          · cases hn
  | abort pc cause =>
      simp only [inferNext] at hn
      split at hn
      · cases hn
        trivial
      · rename_i s₁ hstop
        cases hn
        obtain ⟨-, -, -, hdown⟩ := stopNext_spec hb hat hstop
        exact Connected.of_none hdown.1

/-- A string that `infer` returns is the answer that was waited for. -/
theorem inferNext_returned {pc : InferPc} {job : Job} {text : String}
    (hn : inferNext s job k pc = some (s', .returned (text, pid))) :
    pc = .recv ∧ ∀ n P, Waiting s n job P → ∃ j, P pid ⟨.result text, j⟩ := by
  cases pc with
  | recv =>
      have hP : ∀ m s₁, s.recv = some (s₁, m, pid) → ∀ n P, Waiting s n job P → P pid m := by
        intro m s₁ h₁ n P hwait
        obtain ⟨hconn, c, rest, hc, hout, -⟩ := recv_update h₁
        exact ((hwait pid c hconn hc).received hout).2
      cases k with
      | raises cause => cases hn
      | go | skip | job =>
          simp only [inferNext] at hn
          split at hn
          · rename_i s₁ text j pid h₁
            cases hn
            exact ⟨rfl, fun n P hwait => ⟨j, hP _ _ h₁ n P hwait⟩⟩
          · cases hn
          · cases hn
  | check =>
      simp only [inferNext] at hn
      split at hn
      · cases hn
      · split at hn <;> cases hn
  | respawn m pc =>
      obtain ⟨⟨s₁, o₁⟩, -, hs⟩ := Option.map_eq_some_iff.mp hn
      cases o₁ <;> cases hs
  | send =>
      cases k with
      | raises cause => cases hn
      | go | skip | job =>
          obtain ⟨s₁, -, hs⟩ := Option.map_eq_some_iff.mp hn
          cases hs
  | abort pc cause =>
      simp only [inferNext] at hn
      split at hn <;> cases hn

/-- `infer` waits only after it has sent its message, into an empty channel. -/
theorem inferNext_waits {pc : InferPc} {job : Job} (h : InferQuiet s pc)
    (hn : inferNext s job k pc = some (s', .running .recv)) :
    pc = .send ∧ s'.vlm = s.vlm ∧ Waiting s' s.jobs job fun _ _ => False := by
  cases pc with
  | send =>
      have hgo : ∀ s₁, s.send job = some s₁ →
          s₁.vlm = s.vlm ∧ Waiting s₁ s.jobs job fun _ _ => False := by
        intro s₁ hsend
        obtain ⟨pid, hconn, rfl⟩ := Option.map_eq_some_iff.mp hsend
        refine ⟨rfl, Connected.update (s := s) hconn fun c hc => ?_⟩
        have hdrained : c.Drained := h pid c hconn hc
        exact .asked hdrained.pc (by simp [hdrained.inbox]) hdrained.outbox
      cases k with
      | raises cause => cases hn
      | go | skip | job =>
          obtain ⟨s₁, hsend, hs⟩ := Option.map_eq_some_iff.mp hn
          cases hs
          exact ⟨rfl, hgo _ hsend⟩
  | check =>
      simp only [inferNext] at hn
      split at hn
      · cases hn
      · split at hn <;> cases hn
  | respawn m pc =>
      obtain ⟨⟨s₁, o₁⟩, -, hs⟩ := Option.map_eq_some_iff.mp hn
      cases o₁ <;> cases hs
  | recv =>
      cases k with
      | raises cause => cases hn
      | go | skip | job =>
          simp only [inferNext] at hn
          split at hn <;> cases hn
  | abort pc cause =>
      simp only [inferNext] at hn
      split at hn <;> cases hn

theorem SpawnQuiet.moved {pc : SpawnPc} (h : SpawnQuiet s pc) (hm : Moved s s') :
    SpawnQuiet s' pc := by
  cases pc with
  | popen => exact Connected.moved h hm Child.Drained.step
  | connect =>
      intro pid c' hproc hc'
      rw [hm.vlm] at hproc
      obtain ⟨c, hc, rfl | ⟨closed, k, hs⟩⟩ := hm.children pid c' hc'
      · exact h pid c' hproc hc
      · exact (h pid c hproc hc).step hs
  | load => exact Connected.moved h hm Child.Starting.step
  | abort pc cause => trivial

theorem Quiet.moved {pc : WorkerPc} (h : Quiet s pc) (hm : Moved s s') : Quiet s' pc := by
  cases pc with
  | boot pc => exact SpawnQuiet.moved h hm
  | switch target prev pc | rollback prev pc =>
      cases pc with
      | stop pc => trivial
      | spawn pc => exact SpawnQuiet.moved h hm
  | infer job pc =>
      cases pc with
      | check | send => exact Connected.moved h hm Child.Drained.step
      | respawn m pc => exact SpawnQuiet.moved h hm
      | recv | abort => trivial
  | exited => trivial
  | top | switching | preApply | failed | restored | restoredReady | rename | renamed | get
  | inferFailed | judged => exact Connected.moved h hm Child.Drained.step

/-- A step of the worker from a quiet state, or from one in which `infer` waits. -/
theorem workerNext_quiet {cfg : Config} (hb : Books s) (hat : WorkerAt cfg s s.worker)
    (h : Quiet s s.worker)
    (hrecv : ∀ job, s.worker = .infer job .recv → ∃ n P, Waiting s n job P)
    (hn : workerNext cfg s k = some s') : Quiet s' s'.worker := by
  cases hpc : s.worker with
  | boot pc =>
      rw [hpc] at hat h
      simp only [workerNext, hpc] at hn
      obtain ⟨⟨s₁, o⟩, hspawn, rfl⟩ := Option.map_eq_some_iff.mp hn
      have hout := spawnNext_quiet hb hat.2 h hspawn
      cases o with
      | running pc' | returned v => exact hout
      | raised cause => trivial
  | switch target prev pc =>
      rw [hpc] at hat h
      simp only [workerNext, hpc] at hn
      obtain ⟨⟨s₁, o⟩, hswitch, rfl⟩ := Option.map_eq_some_iff.mp hn
      have hout := switchNext_quiet hb hat.2.2 h hswitch
      cases o <;> exact hout
  | rollback prev pc =>
      rw [hpc] at hat h
      simp only [workerNext, hpc] at hn
      obtain ⟨⟨s₁, o⟩, hswitch, rfl⟩ := Option.map_eq_some_iff.mp hn
      have hout := switchNext_quiet hb hat.2.2 h hswitch
      cases o <;> exact hout
  | infer job pc =>
      rw [hpc] at hat h
      simp only [workerNext, hpc] at hn
      obtain ⟨⟨s₁, o⟩, hinfer, rfl⟩ := Option.map_eq_some_iff.mp hn
      have hout := inferNext_quiet hb hat.2 h (fun hr => hrecv job (by rw [hpc, hr])) hinfer
      cases o <;> exact hout
  | preApply target prev | failed target prev cause =>
      simp only [workerNext, hpc] at hn
      cases hn
      trivial
  | top =>
      rw [hpc] at h
      simp only [workerNext, hpc] at hn
      split at hn
      · split at hn <;> (cases hn; exact h)
      · cases hn
        exact h
  | get =>
      rw [hpc] at h
      simp only [workerNext, hpc] at hn
      split at hn <;> cases hn <;> exact h
  | inferFailed cause =>
      rw [hpc] at h
      simp only [workerNext, hpc] at hn
      split at hn <;> cases hn
      · trivial
      · exact h
  | judged text pid =>
      rw [hpc] at h
      simp only [workerNext, hpc] at hn
      split at hn <;> cases hn <;> exact h
  | switching target | restored prev | restoredReady | rename target | renamed =>
      rw [hpc] at h
      simp only [workerNext, hpc] at hn
      cases hn
      exact h
  | exited =>
      simp only [workerNext, hpc] at hn
      cases hn

/-- What a step of `infer` leads to: the three outcomes that matter here. -/
theorem workerNext_infer {cfg : Config} (hn : workerNext cfg s k = some s') :
    (∀ job, s'.worker = .infer job .recv → ∃ pc s₁, s.worker = .infer job pc ∧
      inferNext s job k pc = some (s₁, .running .recv) ∧ s'.vlm = s₁.vlm ∧
      s'.children = s₁.children) ∧
    ∀ text pid, s'.worker = .judged text pid → ∃ job pc s₁, s.worker = .infer job pc ∧
      inferNext s job k pc = some (s₁, .returned (text, pid)) := by
  cases hpc : s.worker with
  | infer job pc =>
      simp only [workerNext, hpc] at hn
      obtain ⟨⟨s₁, o⟩, hinfer, rfl⟩ := Option.map_eq_some_iff.mp hn
      cases o with
      | running pc' =>
          refine ⟨fun job' h => ?_, fun _ _ h => (by cases h)⟩
          cases h
          exact ⟨pc, s₁, rfl, hinfer, rfl, rfl⟩
      | returned v =>
          refine ⟨fun _ h => (by cases h), fun text pid h => ?_⟩
          cases h
          exact ⟨job, pc, s₁, rfl, hinfer⟩
      | raised cause => exact ⟨fun _ h => (by cases h), fun _ _ h => (by cases h)⟩
  | boot pc =>
      simp only [workerNext, hpc] at hn
      obtain ⟨⟨s₁, o⟩, -, rfl⟩ := Option.map_eq_some_iff.mp hn
      cases o <;> exact ⟨fun _ h => (by cases h), fun _ _ h => (by cases h)⟩
  | switch target prev pc | rollback prev pc =>
      simp only [workerNext, hpc] at hn
      obtain ⟨⟨s₁, o⟩, -, rfl⟩ := Option.map_eq_some_iff.mp hn
      cases o <;> exact ⟨fun _ h => (by cases h), fun _ _ h => (by cases h)⟩
  | top =>
      simp only [workerNext, hpc] at hn
      split at hn
      · split at hn <;> (cases hn; exact ⟨fun _ h => (by cases h), fun _ _ h => (by cases h)⟩)
      · cases hn
        exact ⟨fun _ h => (by cases h), fun _ _ h => (by cases h)⟩
  | get | inferFailed cause | judged text pid =>
      simp only [workerNext, hpc] at hn
      split at hn <;> cases hn <;>
        exact ⟨fun _ h => (by cases h), fun _ _ h => (by cases h)⟩
  | switching | preApply | failed | restored | restoredReady | rename | renamed =>
      simp only [workerNext, hpc] at hn
      cases hn
      exact ⟨fun _ h => (by cases h), fun _ _ h => (by cases h)⟩
  | exited =>
      simp only [workerNext, hpc] at hn
      cases hn

end Channel

-- ============================================================================
-- Whole runs
-- ============================================================================

/-- Between two successive states of `window`, newest first, child `pid` generated `text` for
    message `n`; it was loaded with the manager's current model. -/
def Generated (window : List State) (pid n : ℕ) (job : Job) (text : String) : Prop :=
  ∃ later a b earlier c, window = later ++ b :: a :: earlier ∧ a.children[pid]? = some c ∧
    c.pc = .running n job ∧ a.vlm.current = some c.model ∧
    b.children[pid]? = some (c.answer n text)

/-- `window` is what the run `l` has come through since `infer` sent `job` as message `n`. -/
structure Since (l : List State) (v : VlmProcess) (job : Job) (n : ℕ)
    (window : List State) : Prop where
  sent : ∃ s₀ older, l = window ++ s₀ :: older ∧ s₀.worker = .infer job .send ∧ s₀.jobs = n
  waits : ∀ a ∈ window, a.worker = .infer job .recv ∧ a.vlm = v

/-- The channel is quiet, or the answer in it was generated since the last message was sent. -/
structure ChannelInv (cfg : Config) (s : State) (past : List State) : Prop where
  books : Books s
  worker : WorkerAt cfg s s.worker
  quiet : Quiet s s.worker
  waiting : ∀ job, s.worker = .infer job .recv → ∃ n window,
    Since (s :: past) s.vlm job n window ∧
    Waiting s n job fun pid m => ∀ text, m.reply = .result text → Generated window pid n job text

section Runs

variable {cfg : Config} {s s' : State} {past window : List State} {v : VlmProcess} {job : Job}
variable {n : ℕ}

theorem Generated.cons {pid : ℕ} {text : String} (h : Generated window pid n job text)
    (s : State) : Generated (s :: window) pid n job text := by
  obtain ⟨later, a, b, earlier, c, rfl, hrest⟩ := h
  exact ⟨s :: later, a, b, earlier, c, rfl, hrest⟩

/-- The window of a waiting `infer` begins with the present state. -/
theorem Since.head (h : Since (s :: past) v job n window) (hs : s.worker = .infer job .recv) :
    ∃ rest, window = s :: rest := by
  obtain ⟨s₀, older, heq, hsend, -⟩ := h.sent
  cases window with
  | nil =>
      cases heq
      rw [hs] at hsend
      cases hsend
  | cons a rest =>
      cases heq
      exact ⟨rest, rfl⟩

theorem Since.cons (h : Since (s :: past) v job n window) (hs' : s'.worker = .infer job .recv)
    (hvlm : s'.vlm = v) : Since (s' :: s :: past) v job n (s' :: window) where
  sent := by
    obtain ⟨s₀, older, heq, hrest⟩ := h.sent
    exact ⟨s₀, older, by rw [heq, List.cons_append], hrest⟩
  waits a ha := by
    rcases List.mem_cons.mp ha with rfl | ha
    · exact ⟨hs', hvlm⟩
    · exact h.waits a ha

/-- A step of a handler or a child while `infer` waits. -/
theorem Waiting.moved (h : Waiting s n job fun pid m => ∀ text, m.reply = .result text →
      Generated window pid n job text)
    (hm : Moved s s') (hat : WorkerAt cfg s (.infer job .recv))
    (hwindow : ∃ rest, window = s :: rest) :
    Waiting s' n job fun pid m => ∀ text, m.reply = .result text →
      Generated (s' :: window) pid n job text := by
  intro pid c' hconn hc'
  rw [hm.vlm] at hconn
  obtain ⟨c, hc, hstep⟩ := hm.children pid c' hc'
  have hold := h pid c hconn hc
  rcases hstep with rfl | ⟨closed, k, hs⟩
  · exact hold.mono fun m hP text hr => (hP text hr).cons s'
  · refine hold.step hs (fun m hP text hr => (hP text hr).cons s')
      (fun cause text hr => by cases hr) fun text hpc hnew text' hr => ?_
    cases hr
    -- the model is the manager's, because the connected child serves it
    obtain ⟨hcur, hserves⟩ := hat
    have hmodel : c.model = s.holder.name := (Serves.connected hserves pid c hconn hc).1
    obtain ⟨rest, rfl⟩ := hwindow
    exact ⟨[], s, s', rest, c, rfl, hc, hpc, by rw [hmodel]; exact hcur, by rw [hc', hnew]⟩

/-- A step that is not the worker's. -/
theorem ChannelInv.moved (h : ChannelInv cfg s past) (hm : Moved s s')
    (hworker : s'.worker = s.worker) (hspec : Books s' ∧ WorkerAt cfg s' s'.worker) :
    ChannelInv cfg s' (s :: past) where
  books := hspec.1
  worker := hspec.2
  quiet := by
    rw [hworker]
    exact h.quiet.moved hm
  waiting job hrecv := by
    rw [hworker] at hrecv
    obtain ⟨n, window, hsince, hwait⟩ := h.waiting job hrecv
    have hat : WorkerAt cfg s (.infer job .recv) := hrecv ▸ h.worker
    have hsince' : Since (s' :: s :: past) s.vlm job n (s' :: window) :=
      hsince.cons (hworker.trans hrecv) hm.vlm
    refine ⟨n, s' :: window, ?_, hwait.moved hm hat (hsince.head hrecv)⟩
    rw [hm.vlm]
    exact hsince'

theorem ChannelInv.step {e : Event} (h : ChannelInv cfg s past) (hs : step cfg s e = some s') :
    ChannelInv cfg s' (s :: past) := by
  have hspec := step_spec h.books h.worker hs
  cases e with
  | request name =>
      cases hs
      obtain ⟨hvlm, hchildren, -, hworker⟩ := requestNext_same cfg s name
      refine h.moved ⟨hvlm, fun pid c' hc' => ?_⟩ hworker hspec
      rw [hchildren] at hc'
      exact ⟨c', hc', .inl rfl⟩
  | child pid k =>
      simp only [Vlm.step] at hs
      split at hs
      · rename_i c hc
        obtain ⟨c', hchild, rfl⟩ := Option.map_eq_some_iff.mp hs
        refine h.moved ⟨rfl, fun j d hd => ?_⟩ rfl hspec
        rcases getElem?_set_cases hc hd with ⟨rfl, rfl⟩ | ⟨-, hold⟩
        · exact ⟨c, hc, .inr ⟨_, k, hchild⟩⟩
        · exact ⟨d, hold, .inl rfl⟩
      · cases hs
  | worker k =>
      refine ⟨hspec.1, hspec.2, ?_, fun job hrecv => ?_⟩
      · refine workerNext_quiet h.books h.worker h.quiet (fun job hpc => ?_) hs
        obtain ⟨n, window, -, hwait⟩ := h.waiting job hpc
        exact ⟨n, _, hwait⟩
      · -- the message has just been sent
        obtain ⟨pc, s₁, hpc, hinfer, hvlm, hchildren⟩ := (workerNext_infer hs).1 job hrecv
        have hquiet : InferQuiet s pc := by
          have hquiet := h.quiet
          rw [hpc] at hquiet
          exact hquiet
        obtain ⟨rfl, -, hwait⟩ := inferNext_waits hquiet hinfer
        refine ⟨s.jobs, [s'], ⟨⟨s, past, rfl, hpc, rfl⟩, fun a ha => ?_⟩, fun pid c hconn hc => ?_⟩
        · obtain rfl := List.mem_singleton.mp ha
          exact ⟨hrecv, rfl⟩
        · rw [hvlm] at hconn
          rw [hchildren] at hc
          exact (hwait pid c hconn hc).mono fun m hm => hm.elim

end Runs

theorem channelInv_init (cfg : Config) : ChannelInv cfg (init cfg) [] where
  books := books_init cfg
  worker := ⟨rfl, fun _ _ hc => by cases hc⟩
  quiet := Connected.of_none rfl
  waiting job h := by cases h

/-- A text that `infer` returns was generated after this call had sent its message, for that
    message, by a child that was loaded with the manager's current model. -/
theorem replies_match (cfg : Config) (s : State) (past : List State)
    (h : Trace (step cfg) free (init cfg) (s :: past)) (e : Event) (s' : State)
    (hs : step cfg s e = some s') (text : String) (pid : ℕ) (hcall : s.worker ≠ .judged text pid)
    (hreturn : s'.worker = .judged text pid) :
    ∃ job n window s₀ older, s :: past = window ++ s₀ :: older ∧
      s₀.worker = .infer job .send ∧ s₀.jobs = n ∧
      (∀ a ∈ window, a.worker = .infer job .recv ∧ a.vlm = s.vlm) ∧
      Generated window pid n job text := by
  have hinv : ChannelInv cfg s past :=
    h.invariant (K := ChannelInv cfg) (channelInv_init cfg) fun _ _ _ _ hk _ hs => hk.step hs
  cases e with
  | request name =>
      cases hs
      exact absurd ((requestNext_same cfg s name).2.2.2 ▸ hreturn) hcall
  | child j k =>
      simp only [step] at hs
      split at hs
      · obtain ⟨c', -, rfl⟩ := Option.map_eq_some_iff.mp hs
        exact absurd hreturn hcall
      · cases hs
  | worker k =>
      obtain ⟨job, pc, s₁, hpc, hinfer⟩ := (workerNext_infer hs).2 text pid hreturn
      obtain ⟨rfl, hanswer⟩ := inferNext_returned hinfer
      obtain ⟨n, window, hsince, hwait⟩ := hinv.waiting job hpc
      obtain ⟨j, hgen⟩ := hanswer n _ hwait
      obtain ⟨s₀, older, heq, hsend, hn⟩ := hsince.sent
      exact ⟨job, n, window, s₀, older, heq, hsend, hn, hsince.waits, hgen text rfl⟩

/-- The first job times out; its child answers when the connection is closed, before it is
    killed.  The second job gets an answer of a new child. -/
def sampleTimeout : List Event :=
  sampleBoot ++ goes 1 ++ .worker (.job ⟨[1], "What is there?"⟩) :: goes 2 ++
    [.child 0 .recv, .worker (.raises "timed out")] ++ goes 1 ++
    .child 0 (.generated "a dog") :: goes 3 ++ .worker (.job ⟨[2], "What is there?"⟩) :: goes 3 ++
    .child 1 .loaded :: goes 2 ++ [.child 1 .recv, .child 1 (.generated "a cat")]

theorem replies_match_late :
    ∃ s past s', Trace (step sampleConfig) free (init sampleConfig) (s :: past) ∧
      step sampleConfig s (.worker .go) = some s' ∧ s'.worker = .judged "a cat" 1 ∧
      ∃ job n window, Generated window 1 n job "a cat" := by
  let s := exec (step sampleConfig) (init sampleConfig) sampleTimeout
  let s' := exec (step sampleConfig) s (goes 1)
  have hreach : Reachable sampleConfig s := Steps.exec (by decide)
  have hs : step sampleConfig s (.worker .go) = some s' := step_exec (by decide)
  have hreturn : s'.worker = .judged "a cat" 1 := by decide
  obtain ⟨past, htrace⟩ := hreach.trace
  obtain ⟨job, n, window, -, -, -, -, -, -, hgen⟩ := replies_match sampleConfig s past htrace
    (.worker .go) s' hs "a cat" 1 (by decide) hreturn
  exact ⟨s, past, s', htrace, hs, hreturn, job, n, window, hgen⟩

end Babycat.Analyzer.Vlm
