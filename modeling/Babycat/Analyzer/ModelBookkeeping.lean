/-
  Babycat.Analyzer.ModelBookkeeping

  Three variables name the model: `holder.name`, `VlmProcess._current` and the
  argument of the child behind the connection.  They are updated at different
  points of a spawn, a switch, a rollback and a respawn, and each of these can
  raise half way.

  `WorkerAt` says for every program counter of the worker which of them agree.
  Between two calls of `VlmProcess` all three do (`Settled`), with or without a
  child; within a switch the holder and `_current` still name the previous
  model, to which the rollback returns.
-/

import Babycat.Analyzer.Vlm
import Babycat.Conc.Pool

namespace Babycat.Analyzer.Vlm

open Babycat.Conc

-- ============================================================================
-- Children
-- ============================================================================

/-- The child is past loading its model. -/
def Child.started (c : Child) : Bool := decide (c.pc ≠ .listening) && decide (c.pc ≠ .loading)

/-- The child has sent nothing before its model was loaded and no text it has not generated. -/
structure Child.Sound (c : Child) : Prop where
  started : c.outbox ≠ [] → c.started = true
  produced : ∀ m ∈ c.outbox, ∀ text, m.reply = .result text → text ∈ c.produced

/-- The same process later. -/
structure Child.Later (c c' : Child) : Prop where
  model : c'.model = c.model
  started : c.started = true → c'.started = true
  alive : c'.alive = true → c.alive = true
  produced : ∀ text ∈ c.produced, text ∈ c'.produced
  sound : c.Sound → c'.Sound

namespace Child.Later

variable {c c' : Child}

theorem refl (c : Child) : c.Later c := ⟨rfl, id, id, fun _ h => h, id⟩

theorem exit (c : Child) : c.Later c.exit where
  model := rfl
  started _ := rfl
  alive h := by simp [Child.alive, Child.exit] at h
  produced _ h := h
  sound h := ⟨fun _ => rfl, h.produced⟩

/-- A job arrives. -/
theorem inbox (c : Child) (jobs : List (ℕ × Job)) : c.Later { c with inbox := jobs } :=
  ⟨rfl, id, id, fun _ h => h, fun h => ⟨h.started, h.produced⟩⟩

/-- The parent receives the first message. -/
theorem outbox {m : Message} {rest : List Message} (h : c.outbox = m :: rest) :
    c.Later { c with outbox := rest } where
  model := rfl
  started := id
  alive := id
  produced _ h := h
  sound hs := by
    refine ⟨fun _ => hs.started (by simp [h]), fun m' hm' => ?_⟩
    exact hs.produced m' (h ▸ List.mem_cons_of_mem _ hm')

/-- The parent connects. -/
theorem accept (h : c.pc = .listening) : c.Later { c with pc := .loading } where
  model := rfl
  started hs := by simp [Child.started, h] at hs
  alive _ := by simp [Child.alive, h]
  produced _ h := h
  sound hs := by
    refine ⟨fun hne => ?_, hs.produced⟩
    have hstarted := hs.started hne
    simp [Child.started, h] at hstarted

end Child.Later

/-- A step of the child itself. -/
theorem childNext_later {c c' : Child} {closed : Bool} {k : ChildChoice}
    (h : childNext c closed k = some c') : c.Later c' := by
  have hmsg : ∀ (pc : ChildPc) (m : Message) (texts : List String), c.alive = true →
      pc ≠ .listening → pc ≠ .loading → (∀ text ∈ c.produced, text ∈ texts) →
      (∀ text, m.reply = .result text → text ∈ texts) →
      c.Later { c with pc := pc, outbox := c.outbox ++ [m], produced := texts } := by
    intro pc m texts halive hlisten hload hsub hnew
    refine ⟨rfl, fun _ => ?_, fun _ => halive, hsub, fun hs => ⟨fun _ => ?_, fun m' hm' text hr => ?_⟩⟩
    · simp [Child.started, hlisten, hload]
    · simp [Child.started, hlisten, hload]
    · rcases List.mem_append.mp hm' with hold | hlast
      · exact hsub text (hs.produced m' hold text hr)
      · obtain rfl := List.mem_singleton.mp hlast
        exact hnew text hr
  simp only [childNext] at h
  split at h
  · cases h
  · cases h
    exact .exit c
  · rename_i hpc
    cases h
    exact hmsg _ _ c.produced (by simp [Child.alive, hpc]) nofun nofun (fun _ ht => ht) nofun
  · rename_i hpc
    cases h
    exact hmsg _ _ c.produced (by simp [Child.alive, hpc]) nofun nofun (fun _ ht => ht) nofun
  · rename_i hpc
    split at h
    · cases h
      refine ⟨rfl, fun _ => rfl, fun _ => ?_, fun _ ht => ht, fun hs => ⟨fun _ => rfl, hs.produced⟩⟩
      simp [Child.alive, hpc]
    · cases h
  · split at h
    · cases h
      exact .exit c
    · cases h
  · rename_i text hpc
    cases h
    refine hmsg _ _ _ (by simp [Child.alive, hpc]) nofun nofun
      (fun _ ht => List.mem_append_left _ ht) fun t ht => ?_
    cases ht
    exact List.mem_append_right _ (List.mem_singleton_self _)
  · rename_i hpc
    cases h
    exact hmsg _ _ c.produced (by simp [Child.alive, hpc]) nofun nofun (fun _ ht => ht) nofun
  · cases h

/-- The same processes later. -/
structure ChildrenLater (cs cs' : List Child) : Prop where
  before : ∀ (j : ℕ) c', cs'[j]? = some c' → ∃ c, cs[j]? = some c ∧ c.Later c'
  after : ∀ (j : ℕ) c, cs[j]? = some c → ∃ c', cs'[j]? = some c' ∧ c.Later c'

theorem ChildrenLater.refl (cs : List Child) : ChildrenLater cs cs :=
  ⟨fun _ c h => ⟨c, h, .refl c⟩, fun _ c h => ⟨c, h, .refl c⟩⟩

/-- One process moved. -/
theorem ChildrenLater.modify {cs : List Child} {pid : ℕ} {f : Child → Child}
    (hf : ∀ c, cs[pid]? = some c → c.Later (f c)) : ChildrenLater cs (cs.modify pid f) := by
  constructor
  · intro j c' hj
    by_cases hpid : pid = j
    · subst hpid
      rw [List.getElem?_modify_eq] at hj
      obtain ⟨c, hc, rfl⟩ := Option.map_eq_some_iff.mp hj
      exact ⟨c, hc, hf c hc⟩
    · rw [List.getElem?_modify_ne _ _ hpid] at hj
      exact ⟨c', hj, .refl c'⟩
  · intro j c hj
    by_cases hpid : pid = j
    · subst hpid
      refine ⟨f c, ?_, hf c hj⟩
      rw [List.getElem?_modify_eq, hj]
      rfl
    · exact ⟨c, (List.getElem?_modify_ne _ _ hpid).trans hj, .refl c⟩

theorem ChildrenLater.set {cs : List Child} {pid : ℕ} {c c' : Child} (hc : cs[pid]? = some c)
    (h : c.Later c') : ChildrenLater cs (cs.set pid c') := by
  have hlist : cs.set pid c' = cs.modify pid fun _ => c' := by
    rw [List.modify_eq_set_getElem?, hc]
    rfl
  rw [hlist]
  refine .modify fun d hd => ?_
  rw [hc] at hd
  cases hd
  exact h

-- ============================================================================
-- The books
-- ============================================================================

/-- What holds in every state: only `_proc` is alive, the connection leads to it, and a row of
    the history names the model of the child that generated its text. -/
structure Books (s : State) : Prop where
  owned : ∀ (pid : ℕ) c, s.children[pid]? = some c → c.alive = true → s.vlm.proc = some pid
  conn : ∀ pid, s.vlm.conn = some pid → s.vlm.proc = some pid
  sound : ∀ (pid : ℕ) c, s.children[pid]? = some c → c.Sound
  rows : ∀ r ∈ s.rows, ∃ c, s.children[r.child]? = some c ∧ c.model = r.model ∧
    r.text ∈ c.produced

/-- The connected child was loaded with `model`, and no connection means no child. -/
structure Serves (s : State) (model : String) : Prop where
  connected : ∀ (pid : ℕ) c, s.vlm.conn = some pid → s.children[pid]? = some c →
    c.model = model ∧ c.started = true
  down : s.vlm.conn = none → s.vlm.proc = none

/-- No child and no connection. -/
def Down (s : State) : Prop := s.vlm.conn = none ∧ s.vlm.proc = none

/-- Every child has exited. -/
def AllDead (s : State) : Prop := ∀ (pid : ℕ) c, s.children[pid]? = some c → c.alive = false

/-- Everything outside `VlmProcess` and its children. -/
structure Frame (s s' : State) : Prop where
  holder : s'.holder = s.holder
  rows : s'.rows = s.rows
  accepted : s'.accepted = s.accepted

section Books

variable {s s' : State} {model : String} {pid : ℕ}

theorem Frame.refl (s : State) : Frame s s := ⟨rfl, rfl, rfl⟩

theorem Down.serves (h : Down s) (model : String) : Serves s model where
  connected pid c hconn := by
    rw [h.1] at hconn
    cases hconn
  down _ := h.2

theorem Books.allDead (h : Books s) (hproc : s.vlm.proc = none) : AllDead s := by
  intro pid c hc
  by_contra halive
  have hown := h.owned pid c hc (by simpa using halive)
  rw [hproc] at hown
  cases hown

/-- The children go on and the connection stays or is closed. -/
theorem Books.later (h : Books s) (hc : ChildrenLater s.children s'.children)
    (hproc : s'.vlm.proc = s.vlm.proc)
    (hconn : ∀ pid, s'.vlm.conn = some pid → s.vlm.proc = some pid)
    (hrows : s'.rows = s.rows) : Books s' where
  owned pid c' hc' halive := by
    obtain ⟨c, hcold, hlater⟩ := hc.before pid c' hc'
    rw [hproc]
    exact h.owned pid c hcold (hlater.alive halive)
  conn pid hp := hproc.trans (hconn pid hp)
  sound pid c' hc' := by
    obtain ⟨c, hcold, hlater⟩ := hc.before pid c' hc'
    exact hlater.sound (h.sound pid c hcold)
  rows r hr := by
    obtain ⟨c, hcold, hmodel, htext⟩ := h.rows r (hrows ▸ hr)
    obtain ⟨c', hc', hlater⟩ := hc.after r.child c hcold
    exact ⟨c', hc', hlater.model.trans hmodel, hlater.produced _ htext⟩

/-- The children go on and `VlmProcess` stays. -/
theorem Books.of_children (h : Books s) (hc : ChildrenLater s.children s'.children)
    (hvlm : s'.vlm = s.vlm) (hrows : s'.rows = s.rows) : Books s' :=
  h.later hc (by rw [hvlm]) (fun pid hp => h.conn pid (hvlm ▸ hp)) hrows

theorem Serves.later (h : Serves s model) (hc : ChildrenLater s.children s'.children)
    (hvlm : s'.vlm = s.vlm) : Serves s' model where
  connected pid c' hp hc' := by
    obtain ⟨c, hcold, hlater⟩ := hc.before pid c' hc'
    obtain ⟨hmodel, hstarted⟩ := h.connected pid c (hvlm ▸ hp) hcold
    exact ⟨hlater.model.trans hmodel, hlater.started hstarted⟩
  down hp := by
    rw [hvlm] at hp ⊢
    exact h.down hp

theorem Books.close (h : Books s) : Books s.close :=
  h.later (.refl _) rfl nofun rfl

theorem Books.hardStop (h : Books s) (hconn : s.vlm.conn = none) :
    Books s.hardStop ∧ Down s.hardStop := by
  cases hproc : s.vlm.proc with
  | none =>
      have hsame : s.hardStop = s := by simp only [State.hardStop, hproc]
      rw [hsame]
      exact ⟨h, hconn, hproc⟩
  | some pid =>
      have hstop : s.hardStop =
          { s.updateChild pid Child.exit with vlm := { s.vlm with proc := none } } := by
        simp only [State.hardStop, hproc]
      have hc : ChildrenLater s.children (s.updateChild pid Child.exit).children :=
        .modify fun c _ => .exit c
      have hbooks : Books (s.updateChild pid Child.exit) := h.later hc rfl h.conn rfl
      rw [hstop]
      refine ⟨⟨fun j c' hc' halive => ?_, fun j hj => ?_, hbooks.sound, hbooks.rows⟩, hconn, rfl⟩
      · -- the only child that may have been alive is the one that was killed
        have hj : s.vlm.proc = some j := hbooks.owned j c' hc' halive
        rw [hproc] at hj
        cases hj
        have hget : (s.children.modify pid Child.exit)[pid]? = some c' := hc'
        rw [List.getElem?_modify_eq] at hget
        obtain ⟨c, -, rfl⟩ := Option.map_eq_some_iff.mp hget
        simp [Child.alive, Child.exit] at halive
      · rw [hconn] at hj
        cases hj

theorem frame_hardStop (s : State) : Frame s s.hardStop ∧ s.hardStop.vlm.current = s.vlm.current := by
  simp only [State.hardStop]
  split
  · exact ⟨⟨rfl, rfl, rfl⟩, rfl⟩
  · exact ⟨.refl s, rfl⟩

theorem Books.popen (h : Books s) (hdead : AllDead s) (model : String) :
    Books (s.popen model) ∧
      ∀ (pid : ℕ) c, (s.popen model).vlm.proc = some pid → (s.popen model).children[pid]? = some c →
        c.model = model := by
  have hlast : ∀ (j : ℕ) c, (s.children ++ [⟨model, .listening, [], [], []⟩])[j]? = some c →
      s.children[j]? = some c ∨ (j = s.children.length ∧ c = ⟨model, .listening, [], [], []⟩) :=
    fun j c hj => getElem?_append_cases hj
  refine ⟨⟨fun j c hj halive => ?_, nofun, fun j c hj => ?_, fun r hr => ?_⟩, fun j c hproc hj => ?_⟩
  · rcases hlast j c hj with hold | ⟨rfl, -⟩
    · rw [hdead j c hold] at halive
      cases halive
    · rfl
  · rcases hlast j c hj with hold | ⟨-, rfl⟩
    · exact h.sound j c hold
    · exact ⟨fun hne => absurd rfl hne, nofun⟩
  · obtain ⟨c, hc, hrow⟩ := h.rows r hr
    refine ⟨c, ?_, hrow⟩
    exact (List.getElem?_append_left (List.getElem?_eq_some_iff.mp hc).1).trans hc
  · obtain rfl : s.children.length = j := by simpa [State.popen] using hproc
    rcases hlast _ c hj with hold | ⟨-, rfl⟩
    · rw [List.getElem?_eq_none (le_refl _)] at hold
      cases hold
    · rfl

theorem connect_spec (h : s.connect = some s') : ∃ pid c, s.vlm.proc = some pid ∧
    s.children[pid]? = some c ∧ ChildrenLater s.children s'.children ∧
    s'.vlm = { s.vlm with conn := some pid } ∧ Frame s s' := by
  simp only [State.connect] at h
  split at h
  · rename_i pid hproc
    split at h
    · rename_i c hc
      split at h
      · rename_i hlisten
        cases h
        refine ⟨pid, c, hproc, hc, .modify fun c' hc' => ?_, rfl, rfl, rfl, rfl⟩
        rw [hc] at hc'
        cases hc'
        exact .accept hlisten
      · cases h
    · cases h
  · cases h

theorem send_spec {job : Job} (h : s.send job = some s') :
    ChildrenLater s.children s'.children ∧ s'.vlm = s.vlm ∧ Frame s s' := by
  obtain ⟨pid, -, rfl⟩ := Option.map_eq_some_iff.mp h
  exact ⟨.modify fun c _ => .inbox c _, rfl, rfl, rfl, rfl⟩

/-- A received message is one of the connected child. -/
theorem recv_spec {m : Message} (h : s.recv = some (s', m, pid)) :
    s.vlm.conn = some pid ∧ (∃ c, s.children[pid]? = some c ∧ m ∈ c.outbox) ∧
      ChildrenLater s.children s'.children ∧ s'.vlm = s.vlm ∧ Frame s s' := by
  simp only [State.recv] at h
  split at h
  · rename_i p hconn
    split at h
    · rename_i m' rest hout
      cases h
      obtain ⟨c, hc, hbox⟩ := Option.map_eq_some_iff.mp hout
      refine ⟨hconn, ⟨c, hc, by simp [hbox]⟩, .modify fun c' hc' => ?_, rfl, rfl, rfl, rfl⟩
      rw [hc] at hc'
      cases hc'
      exact .outbox hbox
    · cases h
  · cases h

end Books

-- ============================================================================
-- The methods of `VlmProcess`
-- ============================================================================

def StopAt (s : State) : StopPc → Prop
  | .close => True
  | .kill => s.vlm.conn = none

/-- Within `_spawn(model)`. -/
def SpawnAt (s : State) (model : String) : SpawnPc → Prop
  | .popen => AllDead s
  | .connect => ∀ (pid : ℕ) c, s.vlm.proc = some pid → s.children[pid]? = some c → c.model = model
  | .load => ∀ (pid : ℕ) c, s.vlm.conn = some pid → s.children[pid]? = some c → c.model = model
  | .abort pc _ => StopAt s pc

/-- Within `switch(model)`. -/
def SwitchAt (s : State) (model : String) : SwitchPc → Prop
  | .stop pc => StopAt s pc
  | .spawn pc => (pc = .popen → Down s) ∧ SpawnAt s model pc

/-- Within `infer`, called when the manager's model is `model`. -/
def InferAt (s : State) (model : String) : InferPc → Prop
  | .check | .send | .recv => Serves s model
  | .respawn m pc => m = model ∧ (pc = .popen → Serves s model) ∧ SpawnAt s model pc
  | .abort pc _ => StopAt s pc

section Methods

variable {s s' : State} {model : String} {k : Choice}

theorem StopAt.later {pc : StopPc} (h : StopAt s pc) (hvlm : s'.vlm = s.vlm) : StopAt s' pc := by
  cases pc with
  | close => trivial
  | kill =>
      have hconn : s.vlm.conn = none := h
      rw [← hvlm] at hconn
      exact hconn

theorem AllDead.later (h : AllDead s) (hc : ChildrenLater s.children s'.children) :
    AllDead s' := by
  intro pid c' hc'
  obtain ⟨c, hcold, hlater⟩ := hc.before pid c' hc'
  by_contra halive
  have := h pid c hcold
  rw [hlater.alive (by simpa using halive)] at this
  cases this

theorem SpawnAt.later {pc : SpawnPc} (h : SpawnAt s model pc)
    (hc : ChildrenLater s.children s'.children) (hvlm : s'.vlm = s.vlm) : SpawnAt s' model pc := by
  cases pc with
  | popen => exact AllDead.later h hc
  | connect =>
      intro pid c' hproc hc'
      obtain ⟨c, hcold, hlater⟩ := hc.before pid c' hc'
      exact hlater.model.trans (h pid c (hvlm ▸ hproc) hcold)
  | load =>
      intro pid c' hconn hc'
      obtain ⟨c, hcold, hlater⟩ := hc.before pid c' hc'
      exact hlater.model.trans (h pid c (hvlm ▸ hconn) hcold)
  | abort pc cause => exact StopAt.later h hvlm

theorem SwitchAt.later {pc : SwitchPc} (h : SwitchAt s model pc)
    (hc : ChildrenLater s.children s'.children) (hvlm : s'.vlm = s.vlm) :
    SwitchAt s' model pc := by
  cases pc with
  | stop pc => exact StopAt.later h hvlm
  | spawn pc =>
      refine ⟨fun hpc => ?_, h.2.later hc hvlm⟩
      obtain ⟨hconn, hproc⟩ := h.1 hpc
      exact ⟨by rw [hvlm]; exact hconn, by rw [hvlm]; exact hproc⟩

theorem InferAt.later {pc : InferPc} (h : InferAt s model pc)
    (hc : ChildrenLater s.children s'.children) (hvlm : s'.vlm = s.vlm) :
    InferAt s' model pc := by
  have hserves : Serves s model → Serves s' model :=
    fun hs => hs.later hc hvlm
  cases pc with
  | check | send | recv => exact hserves h
  | respawn m pc => exact ⟨h.1, fun hpc => hserves (h.2.1 hpc), h.2.2.later hc hvlm⟩
  | abort pc cause => exact StopAt.later h hvlm

theorem stopNext_spec {pc : StopPc} {pc' : Option StopPc} (hb : Books s) (h : StopAt s pc)
    (hn : stopNext s pc = (s', pc')) :
    Books s' ∧ Frame s s' ∧ s'.vlm.current = s.vlm.current ∧
      match pc' with
      | some pc' => StopAt s' pc'
      | none => Down s' := by
  cases pc with
  | close =>
      cases hn
      exact ⟨hb.close, ⟨rfl, rfl, rfl⟩, rfl, rfl⟩
  | kill =>
      cases hn
      obtain ⟨hbooks, hdown⟩ := hb.hardStop h
      obtain ⟨hframe, hcur⟩ := frame_hardStop s
      exact ⟨hbooks, hframe, hcur, hdown⟩

/-- A failing `Popen` leaves everything as it was, any other failure leaves no child, and with
    success the child of `model` serves. -/
theorem spawnNext_spec {pc : SpawnPc} {o : Outcome SpawnPc Unit} (hb : Books s)
    (h : SpawnAt s model pc) (hn : spawnNext s model k pc = some (s', o)) :
    Books s' ∧ Frame s s' ∧
      match o with
      | .running pc' => s'.vlm.current = s.vlm.current ∧ pc' ≠ .popen ∧ SpawnAt s' model pc'
      | .returned _ => s'.vlm.current = some model ∧ Serves s' model
      | .raised _ => s'.vlm.current = s.vlm.current ∧ ((pc = .popen ∧ s' = s) ∨ Down s') := by
  cases pc with
  | popen =>
      have hgo : some (s.popen model, Outcome.running SpawnPc.connect) = some (s', o) →
          Books s' ∧ Frame s s' ∧ s'.vlm.current = s.vlm.current ∧ o = .running .connect ∧
            SpawnAt s' model .connect := by
        intro hn
        cases hn
        obtain ⟨hbooks, hchild⟩ := hb.popen h model
        exact ⟨hbooks, ⟨rfl, rfl, rfl⟩, rfl, rfl, hchild⟩
      cases k with
      | raises cause =>
          cases hn
          exact ⟨hb, .refl s, rfl, .inl ⟨rfl, rfl⟩⟩
      | go | skip | job =>
          obtain ⟨hbooks, hframe, hcur, rfl, hat⟩ := hgo hn
          exact ⟨hbooks, hframe, hcur, nofun, hat⟩
  | connect =>
      have hgo : (s.connect.map fun s' => (s', Outcome.running (β := Unit) SpawnPc.load)) =
          some (s', o) → Books s' ∧ Frame s s' ∧ s'.vlm.current = s.vlm.current ∧
            o = .running .load ∧ SpawnAt s' model .load := by
        intro hn
        obtain ⟨s₁, hconnect, hs⟩ := Option.map_eq_some_iff.mp hn
        cases hs
        obtain ⟨pid, c, hproc, hc, hlater, hvlm, hframe⟩ := connect_spec hconnect
        have hproc' : s'.vlm.proc = s.vlm.proc := by rw [hvlm]
        have hconn' : ∀ p, s'.vlm.conn = some p → p = pid := by
          intro p hp
          rw [hvlm] at hp
          exact (Option.some.inj hp).symm
        refine ⟨hb.later hlater hproc' (fun p hp => hconn' p hp ▸ hproc) hframe.rows, hframe,
          by rw [hvlm], rfl, fun p c' hp hc' => ?_⟩
        obtain ⟨c₀, hc₀, hl⟩ := hlater.before p c' hc'
        exact hl.model.trans (h p c₀ (hconn' p hp ▸ hproc) hc₀)
      cases k with
      | raises cause =>
          cases hn
          exact ⟨hb, .refl s, rfl, nofun, trivial⟩
      | go | skip | job =>
          obtain ⟨hbooks, hframe, hcur, rfl, hat⟩ := hgo hn
          exact ⟨hbooks, hframe, hcur, nofun, hat⟩
  | load =>
      cases k with
      | raises cause =>
          cases hn
          exact ⟨hb, .refl s, rfl, nofun, trivial⟩
      | go | skip | job =>
          simp only [spawnNext] at hn
          split at hn
          · -- the child is ready
            rename_i s₁ n pid hrecv
            cases hn
            obtain ⟨hconn, ⟨c, hc, hmem⟩, hlater, hvlm, hframe⟩ := recv_spec hrecv
            have hbooks : Books s₁ :=
              hb.of_children hlater hvlm hframe.rows
            have hstarted : c.started = true :=
              (hb.sound pid c hc).started (List.ne_nil_of_mem hmem)
            refine ⟨hbooks.later (.refl _) rfl hbooks.conn rfl,
              ⟨hframe.holder, hframe.rows, hframe.accepted⟩, rfl, ⟨fun p c' hp hc' => ?_, ?_⟩⟩
            · have hp' : s.vlm.conn = some p := by
                have hconn' : s₁.vlm.conn = some p := hp
                rw [hvlm] at hconn'
                exact hconn'
              obtain rfl : pid = p := Option.some.inj (hconn.symm.trans hp')
              obtain ⟨c₀, hc₀, hl⟩ := hlater.before pid c' hc'
              rw [hc] at hc₀
              cases hc₀
              exact ⟨hl.model.trans (h pid c hconn hc), hl.started hstarted⟩
            · intro hnone
              have hconn' : s₁.vlm.conn = none := hnone
              rw [hvlm, hconn] at hconn'
              cases hconn'
          · rename_i s₁ m pid _ hrecv
            cases hn
            obtain ⟨hconn, -, hlater, hvlm, hframe⟩ := recv_spec hrecv
            exact ⟨hb.of_children hlater hvlm hframe.rows,
              hframe, by rw [hvlm], nofun, trivial⟩
          · cases hn
  | abort pc cause =>
      simp only [spawnNext] at hn
      split at hn
      · rename_i s₁ pc' hstop
        cases hn
        obtain ⟨hbooks, hframe, hcur, hat⟩ := stopNext_spec hb h hstop
        exact ⟨hbooks, hframe, hcur, nofun, hat⟩
      · rename_i s₁ hstop
        cases hn
        obtain ⟨hbooks, hframe, hcur, hdown⟩ := stopNext_spec hb h hstop
        exact ⟨hbooks, hframe, hcur, .inr hdown⟩

theorem switchNext_spec {pc : SwitchPc} {o : Outcome SwitchPc Unit} (hb : Books s)
    (h : SwitchAt s model pc) (hn : switchNext s model k pc = some (s', o)) :
    Books s' ∧ Frame s s' ∧
      match o with
      | .running pc' => s'.vlm.current = s.vlm.current ∧ SwitchAt s' model pc'
      | .returned _ => s'.vlm.current = some model ∧ Serves s' model
      | .raised _ => s'.vlm.current = s.vlm.current ∧ Down s' := by
  cases pc with
  | stop pc =>
      simp only [switchNext] at hn
      split at hn
      · rename_i s₁ pc' hstop
        cases hn
        exact stopNext_spec hb h hstop
      · rename_i s₁ hstop
        cases hn
        obtain ⟨hbooks, hframe, hcur, hdown⟩ := stopNext_spec hb h hstop
        exact ⟨hbooks, hframe, hcur, fun _ => hdown, hbooks.allDead hdown.2⟩
  | spawn pc =>
      obtain ⟨⟨s₁, o₁⟩, hspawn, hs⟩ := Option.map_eq_some_iff.mp hn
      cases hs
      obtain ⟨hbooks, hframe, hout⟩ := spawnNext_spec hb h.2 hspawn
      refine ⟨hbooks, hframe, ?_⟩
      cases o₁ with
      | running pc' =>
          obtain ⟨hcur, hpc, hat⟩ := hout
          exact ⟨hcur, fun heq => absurd heq hpc, hat⟩
      | returned v => exact hout
      | raised cause =>
          obtain ⟨hcur, ⟨hpc, rfl⟩ | hdown⟩ := hout
          · exact ⟨hcur, h.1 hpc⟩
          · exact ⟨hcur, hdown⟩

/-- A child that is not ready is dead. -/
theorem allDead_of_not_ready (hb : Books s) (h : Serves s model) (hready : s.isReady = false) :
    AllDead s := by
  cases hconn : s.vlm.conn with
  | none => exact hb.allDead (h.down hconn)
  | some pid =>
      have hproc := hb.conn pid hconn
      intro j c hc
      by_contra halive
      have halive : c.alive = true := by simpa using halive
      have hj := hb.owned j c hc halive
      simp [State.isReady, hconn, hj, hc, halive] at hready

theorem inferNext_spec {pc : InferPc} {job : Job} {o : Outcome InferPc (String × ℕ)} (hb : Books s)
    (hcur : s.vlm.current = some model) (h : InferAt s model pc)
    (hn : inferNext s job k pc = some (s', o)) :
    Books s' ∧ Frame s s' ∧ s'.vlm.current = some model ∧
      match o with
      | .running pc' => InferAt s' model pc'
      | .returned (text, pid) => Serves s' model ∧
          ∃ c, s'.children[pid]? = some c ∧ c.model = model ∧ text ∈ c.produced
      | .raised _ => Serves s' model := by
  cases pc with
  | check =>
      simp only [inferNext, hcur] at hn
      split at hn
      · cases hn
        exact ⟨hb, .refl s, hcur, h⟩
      · rename_i hready
        cases hn
        have hdead : AllDead s := allDead_of_not_ready hb h (by simpa using hready)
        exact ⟨hb, .refl s, hcur, rfl, fun _ => h, hdead⟩
  | respawn m pc =>
      obtain ⟨rfl, hserves, hat⟩ := h
      obtain ⟨⟨s₁, o₁⟩, hspawn, hs⟩ := Option.map_eq_some_iff.mp hn
      cases hs
      obtain ⟨hbooks, hframe, hout⟩ := spawnNext_spec hb hat hspawn
      cases o₁ with
      | running pc' =>
          obtain ⟨hcur', hpc, hat'⟩ := hout
          exact ⟨hbooks, hframe, hcur'.trans hcur, rfl, fun heq => absurd heq hpc, hat'⟩
      | returned v =>
          obtain ⟨hcur', hserves'⟩ := hout
          exact ⟨hbooks, hframe, hcur', hserves'⟩
      | raised cause =>
          obtain ⟨hcur', ⟨hpc, rfl⟩ | hdown⟩ := hout
          · exact ⟨hbooks, hframe, hcur, hserves hpc⟩
          · exact ⟨hbooks, hframe, hcur'.trans hcur, hdown.serves _⟩
  | send =>
      cases k with
      | raises cause =>
          cases hn
          exact ⟨hb, .refl s, hcur, trivial⟩
      | go | skip | job =>
          obtain ⟨s₁, hsend, hs⟩ := Option.map_eq_some_iff.mp hn
          cases hs
          obtain ⟨hlater, hvlm, hframe⟩ := send_spec hsend
          refine ⟨hb.of_children hlater hvlm hframe.rows,
            hframe, by rw [hvlm]; exact hcur, ?_⟩
          exact Serves.later h hlater hvlm
  | recv =>
      cases k with
      | raises cause =>
          cases hn
          exact ⟨hb, .refl s, hcur, trivial⟩
      | go | skip | job =>
          simp only [inferNext] at hn
          split at hn
          · rename_i s₁ text n pid hrecv
            cases hn
            obtain ⟨hconn, ⟨c, hc, hmem⟩, hlater, hvlm, hframe⟩ := recv_spec hrecv
            have hserves : Serves s' model :=
              Serves.later h hlater hvlm
            have htext : text ∈ c.produced := (hb.sound pid c hc).produced _ hmem text rfl
            obtain ⟨c', hc', hl⟩ := hlater.after pid c hc
            have hmodel : c.model = model := (Serves.connected h pid c hconn hc).1
            exact ⟨hb.of_children hlater hvlm hframe.rows,
              hframe, by rw [hvlm]; exact hcur, hserves, c', hc', hl.model.trans hmodel,
              hl.produced text htext⟩
          · rename_i s₁ m pid _ hrecv
            cases hn
            obtain ⟨hconn, -, hlater, hvlm, hframe⟩ := recv_spec hrecv
            exact ⟨hb.of_children hlater hvlm hframe.rows,
              hframe, by rw [hvlm]; exact hcur, Serves.later h hlater hvlm⟩
          · cases hn
  | abort pc cause =>
      simp only [inferNext] at hn
      split at hn
      · rename_i s₁ pc' hstop
        cases hn
        obtain ⟨hbooks, hframe, hcur', hat⟩ := stopNext_spec hb h hstop
        exact ⟨hbooks, hframe, hcur'.trans hcur, hat⟩
      · rename_i s₁ hstop
        cases hn
        obtain ⟨hbooks, hframe, hcur', hdown⟩ := stopNext_spec hb h hstop
        exact ⟨hbooks, hframe, hcur'.trans hcur, Down.serves hdown _⟩

end Methods

-- ============================================================================
-- The worker
-- ============================================================================

/-- Holder, `_current` and the connected child name one model. -/
def Settled (s : State) : Prop :=
  s.vlm.current = some s.holder.name ∧ Serves s s.holder.name

def WorkerAt (cfg : Config) (s : State) : WorkerPc → Prop
  | .boot pc => s.holder.name = cfg.modelId ∧ SpawnAt s cfg.modelId pc
  | .top | .switching _ | .restored _ | .restoredReady | .renamed | .get | .inferFailed _ =>
      Settled s
  | .preApply _ prev => prev = s.holder.name ∧ Settled s
  | .switch target prev pc =>
      prev = s.holder.name ∧ s.vlm.current = some prev ∧ SwitchAt s target pc
  | .failed _ prev _ => prev = s.holder.name ∧ s.vlm.current = some prev ∧ Down s
  | .rollback prev pc => prev = s.holder.name ∧ s.vlm.current = some prev ∧ SwitchAt s prev pc
  | .rename target => s.vlm.current = some target ∧ Serves s target
  | .infer _ pc => s.vlm.current = some s.holder.name ∧ InferAt s s.holder.name pc
  | .judged text pid => Settled s ∧
      ∃ c, s.children[pid]? = some c ∧ c.model = s.holder.name ∧ text ∈ c.produced
  | .exited => True

section Worker

variable {cfg : Config} {s s' : State} {k : Choice} {pc : WorkerPc}

theorem Settled.later (h : Settled s) (hc : ChildrenLater s.children s'.children)
    (hvlm : s'.vlm = s.vlm) (hname : s'.holder.name = s.holder.name) : Settled s' := by
  refine ⟨?_, ?_⟩
  · rw [hvlm, hname]
    exact h.1
  · rw [hname]
    exact h.2.later hc hvlm

/-- A step of a handler or a child leaves what the worker relies on. -/
theorem WorkerAt.later (h : WorkerAt cfg s pc) (hc : ChildrenLater s.children s'.children)
    (hvlm : s'.vlm = s.vlm) (hname : s'.holder.name = s.holder.name) : WorkerAt cfg s' pc := by
  have hsettled : Settled s → Settled s' := fun hs => hs.later hc hvlm hname
  cases pc with
  | boot pc => exact ⟨hname.trans h.1, h.2.later hc hvlm⟩
  | top | switching | restored | restoredReady | renamed | get | inferFailed => exact hsettled h
  | preApply target prev => exact ⟨h.1.trans hname.symm, hsettled h.2⟩
  | switch target prev pc =>
      exact ⟨h.1.trans hname.symm, by rw [hvlm]; exact h.2.1, h.2.2.later hc hvlm⟩
  | failed target prev cause =>
      exact ⟨h.1.trans hname.symm, by rw [hvlm]; exact h.2.1, by
        simpa only [Down, hvlm] using h.2.2⟩
  | rollback prev pc =>
      exact ⟨h.1.trans hname.symm, by rw [hvlm]; exact h.2.1, h.2.2.later hc hvlm⟩
  | rename target => exact ⟨by rw [hvlm]; exact h.1, h.2.later hc hvlm⟩
  | infer job pc =>
      refine ⟨?_, ?_⟩
      · rw [hvlm, hname]
        exact h.1
      · rw [hname]
        exact h.2.later hc hvlm
  | judged text pid =>
      obtain ⟨c, hcold, hmodel, htext⟩ := h.2
      obtain ⟨c', hc', hlater⟩ := hc.after pid c hcold
      refine ⟨hsettled h.1, c', hc', ?_, hlater.produced text htext⟩
      rw [hlater.model, hname]
      exact hmodel
  | exited => trivial

/-- Books and assertion after a step that `VlmProcess` has no part in. -/
theorem WorkerAt.stays (pc : WorkerPc) (hb : Books s) (h : WorkerAt cfg s pc) (hvlm : s'.vlm = s.vlm)
    (hchildren : s'.children = s.children) (hname : s'.holder.name = s.holder.name)
    (hrows : s'.rows = s.rows) : Books s' ∧ WorkerAt cfg s' pc :=
  ⟨hb.of_children (hchildren ▸ .refl _) hvlm hrows, h.later (hchildren ▸ .refl _) hvlm hname⟩

theorem workerNext_spec (hb : Books s) (h : WorkerAt cfg s s.worker)
    (hn : workerNext cfg s k = some s') : Books s' ∧ WorkerAt cfg s' s'.worker := by
  cases hpc : s.worker with
  | boot pc =>
      rw [hpc] at h
      simp only [workerNext, hpc] at hn
      obtain ⟨⟨s₁, o⟩, hspawn, rfl⟩ := Option.map_eq_some_iff.mp hn
      obtain ⟨hbooks, hframe, hout⟩ := spawnNext_spec hb h.2 hspawn
      have hname : s₁.holder.name = cfg.modelId := by
        rw [hframe.holder]
        exact h.1
      cases o with
      | running pc' =>
          exact WorkerAt.stays (.boot pc') hbooks ⟨hname, hout.2.2⟩ rfl rfl rfl rfl
      | returned v =>
          have hsettled : Settled s₁ := by
            rw [Settled, hname]
            exact hout
          exact WorkerAt.stays .top hbooks hsettled rfl rfl rfl rfl
      | raised cause =>
          exact WorkerAt.stays .exited hbooks trivial rfl rfl rfl rfl
  | top =>
      rw [hpc] at h
      have hsettled : Settled s := h
      simp only [workerNext, hpc] at hn
      split at hn
      · rename_i target hreq
        split at hn
        · cases hn
          exact WorkerAt.stays (.switching target) hb hsettled rfl rfl rfl rfl
        · cases hn
          exact WorkerAt.stays .get hb hsettled rfl rfl rfl rfl
      · cases hn
        exact WorkerAt.stays .get hb hsettled rfl rfl rfl rfl
  | switching target =>
      rw [hpc] at h
      simp only [workerNext, hpc] at hn
      cases hn
      exact WorkerAt.stays (.preApply target s.holder.name) hb ⟨rfl, h⟩
        rfl rfl rfl rfl
  | preApply target prev =>
      rw [hpc] at h
      obtain ⟨rfl, hcur, -⟩ := h
      simp only [workerNext, hpc] at hn
      cases hn
      exact WorkerAt.stays (.switch target s.holder.name (.stop .close)) hb
        ⟨rfl, hcur, trivial⟩ rfl rfl rfl rfl
  | switch target prev pc =>
      rw [hpc] at h
      obtain ⟨hprev, hcur, hat⟩ := h
      simp only [workerNext, hpc] at hn
      obtain ⟨⟨s₁, o⟩, hswitch, rfl⟩ := Option.map_eq_some_iff.mp hn
      obtain ⟨hbooks, hframe, hout⟩ := switchNext_spec hb hat hswitch
      have hprev' : prev = s₁.holder.name := by
        rw [hframe.holder]
        exact hprev
      cases o with
      | running pc' =>
          exact WorkerAt.stays (.switch target prev pc') hbooks
            ⟨hprev', hout.1.trans hcur, hout.2⟩ rfl rfl rfl rfl
      | returned v =>
          exact WorkerAt.stays (.rename target) hbooks hout rfl rfl rfl rfl
      | raised cause =>
          exact WorkerAt.stays (.failed target prev cause) hbooks
            ⟨hprev', hout.1.trans hcur, hout.2⟩ rfl rfl rfl rfl
  | failed target prev cause =>
      rw [hpc] at h
      obtain ⟨hprev, hcur, -⟩ := h
      simp only [workerNext, hpc] at hn
      cases hn
      exact WorkerAt.stays (.rollback prev (.stop .close)) hb
        ⟨hprev, hcur, trivial⟩ rfl rfl rfl rfl
  | rollback prev pc =>
      rw [hpc] at h
      obtain ⟨hprev, hcur, hat⟩ := h
      simp only [workerNext, hpc] at hn
      obtain ⟨⟨s₁, o⟩, hswitch, rfl⟩ := Option.map_eq_some_iff.mp hn
      obtain ⟨hbooks, hframe, hout⟩ := switchNext_spec hb hat hswitch
      have hprev' : prev = s₁.holder.name := by
        rw [hframe.holder]
        exact hprev
      cases o with
      | running pc' =>
          exact WorkerAt.stays (.rollback prev pc') hbooks
            ⟨hprev', hout.1.trans hcur, hout.2⟩ rfl rfl rfl rfl
      | returned v =>
          have hsettled : Settled s₁ := by
            rw [Settled, ← hprev']
            exact hout
          exact WorkerAt.stays (.restored prev) hbooks hsettled rfl rfl rfl rfl
      | raised cause =>
          -- both failed: no child, and `_current` still names the previous model
          have hsettled : Settled s₁ :=
            ⟨hprev' ▸ hout.1.trans hcur, hout.2.serves _⟩
          exact WorkerAt.stays .get hbooks hsettled rfl rfl rfl rfl
  | restored prev =>
      rw [hpc] at h
      simp only [workerNext, hpc] at hn
      cases hn
      exact WorkerAt.stays .restoredReady hb h rfl rfl rfl rfl
  | restoredReady =>
      rw [hpc] at h
      simp only [workerNext, hpc] at hn
      cases hn
      exact WorkerAt.stays .get hb h rfl rfl rfl rfl
  | rename target =>
      rw [hpc] at h
      simp only [workerNext, hpc] at hn
      cases hn
      exact ⟨hb.of_children (.refl _) rfl rfl, h.1, h.2.later (.refl _) rfl⟩
  | renamed =>
      rw [hpc] at h
      simp only [workerNext, hpc] at hn
      cases hn
      exact WorkerAt.stays .get hb h rfl rfl rfl rfl
  | get =>
      rw [hpc] at h
      have hsettled : Settled s := h
      simp only [workerNext, hpc] at hn
      split at hn
      · cases hn
        exact WorkerAt.stays .top hb hsettled rfl rfl rfl rfl
      · rename_i job
        cases hn
        exact WorkerAt.stays (.infer job .check) hb hsettled rfl rfl rfl rfl
      · cases hn
  | infer job pc =>
      rw [hpc] at h
      simp only [workerNext, hpc] at hn
      obtain ⟨⟨s₁, o⟩, hinfer, rfl⟩ := Option.map_eq_some_iff.mp hn
      obtain ⟨hbooks, hframe, hcur, hout⟩ := inferNext_spec hb h.1 h.2 hinfer
      rw [← hframe.holder] at hcur hout
      cases o with
      | running pc' =>
          exact WorkerAt.stays (.infer job pc') hbooks ⟨hcur, hout⟩
            rfl rfl rfl rfl
      | returned v =>
          exact WorkerAt.stays (.judged v.1 v.2) hbooks ⟨⟨hcur, hout.1⟩, hout.2⟩
            rfl rfl rfl rfl
      | raised cause =>
          exact WorkerAt.stays (.inferFailed cause) hbooks ⟨hcur, hout⟩
            rfl rfl rfl rfl
  | inferFailed cause =>
      rw [hpc] at h
      have hsettled : Settled s := h
      simp only [workerNext, hpc] at hn
      split at hn
      · cases hn
        exact WorkerAt.stays .exited hb trivial rfl rfl rfl rfl
      · cases hn
        exact WorkerAt.stays .top hb hsettled rfl rfl rfl rfl
  | judged text pid =>
      rw [hpc] at h
      obtain ⟨hsettled, c, hc, hmodel, htext⟩ := h
      simp only [workerNext, hpc] at hn
      split at hn
      · cases hn
        exact WorkerAt.stays .top hb hsettled rfl rfl rfl rfl
      · cases hn
        refine ⟨⟨hb.owned, hb.conn, hb.sound, fun r hr => ?_⟩, hsettled.later (.refl _) rfl rfl⟩
        rcases List.mem_cons.mp hr with rfl | hold
        · exact ⟨c, hc, hmodel, htext⟩
        · exact hb.rows r hold
      · cases hn
  | exited =>
      simp only [workerNext, hpc] at hn
      cases hn

theorem requestNext_name (cfg : Config) (s : State) (name : String) :
    (requestNext cfg s name).holder.name = s.holder.name := by
  simp only [requestNext]
  split
  · rfl
  · simp only [ModelHolder.requestSwitch]
    split <;> rfl

theorem requestNext_same (cfg : Config) (s : State) (name : String) :
    (requestNext cfg s name).vlm = s.vlm ∧
    (requestNext cfg s name).children = s.children ∧
    (requestNext cfg s name).rows = s.rows ∧ (requestNext cfg s name).worker = s.worker := by
  simp only [requestNext]
  split <;> exact ⟨rfl, rfl, rfl, rfl⟩

theorem step_spec {e : Event} (hb : Books s) (h : WorkerAt cfg s s.worker)
    (hs : step cfg s e = some s') : Books s' ∧ WorkerAt cfg s' s'.worker := by
  cases e with
  | request name =>
      cases hs
      obtain ⟨hvlm, hchildren, hrows, hworker⟩ := requestNext_same cfg s name
      rw [hworker]
      exact WorkerAt.stays s.worker hb h hvlm hchildren (requestNext_name cfg s name) hrows
  | worker k => exact workerNext_spec hb h hs
  | child pid k =>
      simp only [step] at hs
      split at hs
      · rename_i c hc
        obtain ⟨c', hchild, rfl⟩ := Option.map_eq_some_iff.mp hs
        have hlater : ChildrenLater s.children (s.children.set pid c') :=
          .set hc (childNext_later hchild)
        exact ⟨hb.of_children hlater rfl rfl, h.later hlater rfl rfl⟩
      · cases hs

end Worker

theorem books_init (cfg : Config) : Books (init cfg) where
  owned pid c hc := by cases hc
  conn pid hp := by cases hp
  sound pid c hc := by cases hc
  rows r hr := by cases hr

theorem books_run {cfg : Config} {G : State → Event → Prop} {s : State}
    (h : Steps (step cfg) G (init cfg) s) : Books s ∧ WorkerAt cfg s s.worker :=
  h.invariant (K := fun s => Books s ∧ WorkerAt cfg s s.worker)
    (fun _ _ _ hk _ hs => step_spec hk.1 hk.2 hs)
    ⟨books_init cfg, rfl, fun _ _ hc => by cases hc⟩

/-- At the top of every iteration holder and manager name one model, and a live connected child
    is loaded with it; no two children are ever alive; and every row of the history names the
    model of the child that generated its text. -/
theorem model_bookkeeping (cfg : Config) (s : State) (h : Reachable cfg s) :
    (s.worker = .top → s.vlm.current = some s.holder.name ∧
      ∀ pid c, s.vlm.conn = some pid → s.children[pid]? = some c → c.alive = true →
        c.model = s.holder.name ∧ (c.pc = .serving ∨ ∃ n job, c.pc = .running n job)) ∧
    (∀ (i j : ℕ) c d, s.children[i]? = some c → s.children[j]? = some d → c.alive = true →
      d.alive = true → i = j) ∧
    ∀ r ∈ s.rows, ∃ c, s.children[r.child]? = some c ∧ c.model = r.model ∧
      r.text ∈ c.produced := by
  obtain ⟨hbooks, hat⟩ := books_run h
  refine ⟨fun htop => ?_, fun i j c d hc hd hi hj => ?_, hbooks.rows⟩
  · rw [htop] at hat
    obtain ⟨hcur, hserves⟩ := hat
    refine ⟨hcur, fun pid c hconn hc halive => ?_⟩
    obtain ⟨hmodel, hstarted⟩ := hserves.connected pid c hconn hc
    refine ⟨hmodel, ?_⟩
    cases hpc : c.pc with
    | listening => simp [Child.started, hpc] at hstarted
    | loading => simp [Child.started, hpc] at hstarted
    | serving => exact .inl rfl
    | running n job => exact .inr ⟨n, job, rfl⟩
    | exited => simp [Child.alive, hpc] at halive
  · have hpi := hbooks.owned i c hc hi
    have hpj := hbooks.owned j d hd hj
    exact Option.some.inj (hpi.symm.trans hpj)

def sampleConfig : Config := ⟨"A", ["A", "B"], 3⟩

def goes (n : ℕ) : List Event := List.replicate n (.worker .go)

/-- The default model is loaded and the worker is at the top of its loop. -/
def sampleBoot : List Event := goes 2 ++ .child 0 .loaded :: goes 1

/-- A switch fails at `Popen`, its rollback at the connection; the next inference spawns the
    previous model again and answers. -/
def sampleDoubleFailure : List Event :=
  sampleBoot ++ .request "B" :: goes 5 ++ .worker (.raises "no memory") :: goes 4 ++
    .worker (.raises "timed out") :: goes 2 ++ .worker (.job ⟨[1], "What is there?"⟩) :: goes 3 ++
    .child 2 .loaded :: goes 2 ++ [.child 2 .recv, .child 2 (.generated "a cat")] ++ goes 2

theorem model_bookkeeping_respawned :
    ∃ s, Reachable sampleConfig s ∧ s.worker = .top ∧ s.children.length = 3 ∧
      s.vlm.current = some s.holder.name ∧ s.rows = [⟨"A", "a cat", 2⟩] ∧
      ∃ c, s.children[2]? = some c ∧ c.model = "A" ∧ "a cat" ∈ c.produced := by
  let s := exec (step sampleConfig) (init sampleConfig) sampleDoubleFailure
  have hreach : Reachable sampleConfig s := Steps.exec (by decide)
  have htop : s.worker = .top := by decide
  have hrows : s.rows = [⟨"A", "a cat", 2⟩] := by decide
  obtain ⟨hatTop, -, hnames⟩ := model_bookkeeping sampleConfig s hreach
  exact ⟨s, hreach, htop, by decide, (hatTop htop).1, hrows,
    hnames ⟨"A", "a cat", 2⟩ (by rw [hrows]; exact List.mem_singleton_self _)⟩

end Babycat.Analyzer.Vlm
