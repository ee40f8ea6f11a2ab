/-
  Babycat.Analyzer.Snapshot

  One consistent settings snapshot per inference.

  The worker reads prompt, keywords, labels and presets under four acquisitions
  of the state lock, and `/prompt` and `/presets` set two values each under two.
  `ReadStep` is what the threads do to the four values; a request that has set
  both of its values has `installed` them.  In the runs in which no pair is read
  while a request has set one half of it, and no value is set before the worker
  reads it that does not go with what it has read (`Consistent`), the values of
  an inference are those of one moment, and its prompt and keywords are of one
  request (`snapshot_consistent`).
-/

import Babycat.Analyzer.Persist
import Babycat.Conc.Phases

namespace Babycat.Analyzer

open Babycat.Conc
open Babycat.Text (PyStr pyStr strip)

/-- The values an inference uses. -/
structure InForce where
  prompt : PyStr
  keywords : List PyStr
  labels : Labels
  presets : List Preset
  deriving DecidableEq

def AppState.inForce (a : AppState) : InForce :=
  ⟨a.inferencePrompt, a.triggerKeywords, a.labelGroups, a.presets⟩

/-- What a thread is doing to the values or has read of them. -/
inductive ReadPhase
  | quiet
  | prompting (b : PromptIn) (prompt : PyStr) (keywords : List PyStr)
  /-- Has set its prompt and is about to set its keywords. -/
  | keywording (b : PromptIn) (keywords : List PyStr)
  | installed (b : PromptIn)
  | labelling (labels : Option Labels) (presets : Option (List Preset))
  | presetting (presets : Option (List Preset))
  | readPrompt (prompt : PyStr)
  | readKeywords (prompt : PyStr) (keywords : List PyStr)
  | readLabels (prompt : PyStr) (keywords : List PyStr) (labels : Labels)
  /-- Has all values and works with the snapshot it made of them. -/
  | holding (snap : Snapshot)
  deriving DecidableEq

def WorkerPc.readPhase : WorkerPc → ReadPhase
  | .triggers _ p => .readPrompt p
  | .labels _ p ts => .readKeywords p ts
  | .presets _ p ts ls => .readLabels p ts ls
  | .setPreset snap | .begin snap => .holding snap
  | .infer inf | .check inf _ _ | .judge inf _ _ => .holding inf.snapshot
  | .update j | .spawnEvent j | .spawnInference j => .holding j.inference.snapshot
  | _ => .quiet

def Thread.readPhase : Thread → ReadPhase
  | .prompt b (.setPrompt p ks) => .prompting b p ks
  | .prompt b (.setTriggers ks) => .keywording b ks
  | .prompt b (.persist _) | .prompt b (.finished .ok) | .prompt b (.finished .dropped) =>
      .installed b
  | .presets _ (.setLabels ls ps) => .labelling ls ps
  | .presets _ (.setPresets ps) => .presetting ps
  | .worker _ _ pc => pc.readPhase
  | _ => .quiet

/-- One step of a thread on the values. -/
inductive ReadStep (cfg : Config) : InForce → ReadPhase → InForce → ReadPhase → Prop
  | stay (m : InForce) (p : ReadPhase) : ReadStep cfg m p m p
  | validate (m : InForce) (b : PromptIn) :
      ReadStep cfg m .quiet m (.prompting b (strip b.prompt) (keywordsOf cfg b.triggers))
  | setPrompt (m : InForce) (b : PromptIn) (p : PyStr) (ks : List PyStr) :
      ReadStep cfg m (.prompting b p ks) { m with prompt := p } (.keywording b ks)
  | setTriggers (m : InForce) (b : PromptIn) (ks : List PyStr) :
      ReadStep cfg m (.keywording b ks) { m with keywords := ks } (.installed b)
  | validatePresets (m : InForce) (ls : Option Labels) (ps : Option (List Preset)) :
      ReadStep cfg m .quiet m (.labelling ls ps)
  | setLabels (m : InForce) (ls : Option Labels) (ps : Option (List Preset)) :
      ReadStep cfg m (.labelling ls ps) { m with labels := ls.getD m.labels } (.presetting ps)
  | setPresets (m : InForce) (ps : Option (List Preset)) :
      ReadStep cfg m (.presetting ps) { m with presets := ps.getD m.presets } .quiet
  | readPrompt (m : InForce) : ReadStep cfg m .quiet m (.readPrompt m.prompt)
  | readKeywords (m : InForce) (p : PyStr) :
      ReadStep cfg m (.readPrompt p) m (.readKeywords p m.keywords)
  | readLabels (m : InForce) (p : PyStr) (ts : List PyStr) :
      ReadStep cfg m (.readKeywords p ts) m (.readLabels p ts m.labels)
  | readPresets (m : InForce) (p : PyStr) (ts : List PyStr) (ls : Labels) (f : Frames)
      (now : ℚ) :
      ReadStep cfg m (.readLabels p ts ls) m (.holding (resolved cfg now f p ts ls m.presets))
  | release (m : InForce) (snap : Snapshot) : ReadStep cfg m (.holding snap) m .quiet

/-! ## The analyzer's steps are steps of this system -/

section Refines

variable {cfg : Config} {i : ℕ} {s s' : Shared} {k : Choice}

theorem ReadStep.of_eq {m m' : InForce} {p p' : ReadPhase} (hm : m' = m) (hp : p' = p) :
    ReadStep cfg m p m' p' := by
  rw [hm, hp]
  exact .stay m p

theorem inForce_of_settings {a a' : AppState} (h : a'.settings = a.settings) :
    a'.inForce = a.inForce := by
  have hp := congrArg Saved.prompt h
  have hk := congrArg Saved.keywords h
  have hl := congrArg Saved.labels h
  have hq := congrArg Saved.presets h
  simp only [AppState.settings] at hp hk hl hq
  simp only [AppState.inForce, hp, hk, hl, hq]

theorem SettingsSame.inForce (h : SettingsSame s s') : s'.app.inForce = s.app.inForce :=
  inForce_of_settings h.memory

/-- `persist_settings` writes the file, not the memory. -/
theorem persistNext_inForce (pc : PersistPc) :
    (persistNext s k pc).1.app.inForce = s.app.inForce := by
  obtain ⟨file, hfile⟩ := persistNext_file s k pc
  rw [hfile]

theorem promptNext_read {b : PromptIn} {pc pc' : PromptPc}
    (h : promptNext cfg s k b pc = some (s', pc')) :
    ReadStep cfg s.app.inForce (Thread.prompt b pc).readPhase s'.app.inForce
      (Thread.prompt b pc').readPhase := by
  cases pc with
  | validate =>
      cases h
      split
      · exact .stay _ .quiet
      · exact .validate _ b
  | setPrompt p ks =>
      cases h
      exact .setPrompt s.app.inForce b p ks
  | setTriggers ks =>
      cases h
      exact .setTriggers s.app.inForce b ks
  | persist pc =>
      cases h
      refine .of_eq (persistNext_inForce pc) ?_
      split <;> rfl
  | finished r => cases h

theorem presetsNext_read {b : PresetsIn} {pc pc' : PresetsPc}
    (h : presetsNext s k b pc = some (s', pc')) :
    ReadStep cfg s.app.inForce (Thread.presets b pc).readPhase s'.app.inForce
      (Thread.presets b pc').readPhase := by
  cases pc with
  | validate =>
      cases h
      simp only [validatePresetsBody]
      split <;> first | exact .stay _ .quiet | exact .validatePresets _ _ _
  | setLabels labels presets =>
      cases h
      cases labels with
      | none => exact .setLabels s.app.inForce none presets
      | some ls => exact .setLabels s.app.inForce (some ls) presets
  | setPresets presets =>
      cases h
      cases presets with
      | none => exact .setPresets s.app.inForce none
      | some ps => exact .setPresets s.app.inForce (some ps)
  | persist pc =>
      cases h
      refine .of_eq (persistNext_inForce pc) ?_
      split <;> rfl
  | readLabels | readPresets =>
      cases h
      exact .stay _ .quiet
  | finished r => cases h

theorem workerNext_read {last last' : ℚ} {failures failures' : ℕ} {pc pc' : WorkerPc}
    (h : workerNext cfg s k last failures pc = some (s', last', failures', pc')) :
    ReadStep cfg s.app.inForce pc.readPhase s'.app.inForce pc'.readPhase := by
  have hsame := (workerNext_settings h).inForce
  rw [hsame]
  cases pc with
  | notStarted | get =>
      simp only [workerNext] at h
      split at h <;> cases h
      all_goals exact .stay _ .quiet
  | checkActive | interval =>
      cases h
      refine .of_eq rfl ?_
      split <;> rfl
  | sample =>
      cases h
      refine .of_eq rfl ?_
      split <;> rfl
  | prompt f =>
      cases h
      exact .readPrompt _
  | triggers f p =>
      cases h
      exact .readKeywords _ p
  | labels f p ts =>
      cases h
      exact .readLabels _ p ts
  | presets f p ts ls =>
      cases h
      exact .readPresets _ p ts ls f _
  | setPreset snap | begin snap =>
      cases h
      exact .stay _ (.holding snap)
  | infer inf =>
      simp only [workerNext] at h
      split at h
      · cases h
        exact .stay _ (.holding inf.snapshot)
      · cases h
        split <;> exact .release _ inf.snapshot
      · cases h
  | check inf raw ms =>
      cases h
      split
      · exact .stay _ (.holding inf.snapshot)
      · exact .release _ inf.snapshot
  | judge inf raw ms =>
      cases h
      exact .stay _ (.holding inf.snapshot)
  | update j =>
      cases h
      refine .of_eq rfl ?_
      split <;> rfl
  | spawnEvent j =>
      cases h
      exact .stay _ (.holding j.inference.snapshot)
  | spawnInference j =>
      cases h
      exact .release _ j.inference.snapshot
  | exited => cases h

theorem startHandlerNext_inForce {pc pc' : StartHandlerPc}
    (h : startHandlerNext i s k pc = some (s', pc')) : s'.app.inForce = s.app.inForce := by
  cases pc with
  | setActive =>
      cases h
      rfl
  | persist pc =>
      cases h
      exact persistNext_inForce pc
  | pipeline pc =>
      obtain ⟨⟨a, o⟩, ha, heq⟩ := Option.map_eq_some_iff.mp h
      cases heq
      exact (startNext_same ha).2.inForce
  | callback | failed cause =>
      cases h
      rfl
  | finished r => cases h

theorem stopHandlerNext_inForce {pc pc' : StopHandlerPc}
    (h : stopHandlerNext i s k pc = some (s', pc')) : s'.app.inForce = s.app.inForce := by
  cases pc with
  | setActive =>
      cases h
      rfl
  | persist pc =>
      cases h
      exact persistNext_inForce pc
  | check =>
      obtain ⟨a, ha, heq⟩ := Option.map_eq_some_iff.mp h
      obtain ⟨-, rfl⟩ := lockPipeline_some ha
      split at heq <;> (cases heq; rfl)
  | teardown old =>
      cases old with
      | none =>
          cases h
          rfl
      | some p =>
          obtain ⟨a, ha, heq⟩ := Option.map_eq_some_iff.mp h
          cases heq
          exact (teardown_same ha).2.inForce
  | detach | mark =>
      cases h
      rfl
  | finished => cases h

/-- Every step of the analyzer is a step of the reads and writes of the settings. -/
theorem next_read {t t' : Thread} (hn : next cfg i s t k = some (s', t')) :
    ReadStep cfg s.app.inForce t.readPhase s'.app.inForce t'.readPhase := by
  cases t with
  | boot pc =>
      obtain ⟨pc', hstep, rfl⟩ := next_boot hn
      exact .of_eq (bootNext_same hstep).2.inForce rfl
  | worker last failures pc =>
      obtain ⟨last', failures', pc', hstep, rfl⟩ := next_worker hn
      exact workerNext_read hstep
  | watchdog timeout pc =>
      obtain ⟨timeout', pc', hstep, rfl⟩ := next_watchdog hn
      exact .of_eq (watchdogNext_same hstep).2.inForce rfl
  | prompt b pc =>
      obtain ⟨pc', hstep, rfl⟩ := next_prompt hn
      exact promptNext_read hstep
  | presets b pc =>
      obtain ⟨pc', hstep, rfl⟩ := next_presets hn
      exact presetsNext_read hstep
  | start pc =>
      obtain ⟨pc', hstep, rfl⟩ := next_start hn
      exact .of_eq (startHandlerNext_inForce hstep) rfl
  | stop pc =>
      obtain ⟨pc', hstep, rfl⟩ := next_stop hn
      exact .of_eq (stopHandlerNext_inForce hstep) rfl
  | frame p img pc =>
      obtain ⟨pc', hstep, rfl⟩ := next_frame hn
      exact .of_eq (frameNext_same hstep).2.inForce rfl

theorem read_refines (cfg : Config) :
    Phases (analyzer cfg) (fun s => s.app.inForce) Thread.readPhase .quiet
      (fun _ _ => ReadStep cfg) fun a b => b = a where
  enter r := by cases r <;> rfl
  next hn := next_read hn
  env hx := (env_settings hx).inForce

end Refines

/-! ## Where the values of an inference come from -/

/-- Prompt and keywords were restored together, or set by one request. -/
def Installed (cfg : Config) (saved : Saved) (ps : List ReadPhase) (prompt : PyStr)
    (keywords : List PyStr) : Prop :=
  (prompt = saved.prompt ∧ keywords = saved.keywords) ∨
    ∃ b, .installed b ∈ ps ∧ strip b.prompt = prompt ∧ keywordsOf cfg b.triggers = keywords

/-- The phase has set the prompt and is about to set the keywords that go with it. -/
def ReadPhase.brings (prompt : PyStr) : ReadPhase → Bool
  | .keywording b _ => decide (strip b.prompt = prompt)
  | _ => false

/-- The values of the snapshot are those of one moment, and its prompt and keywords go
    together. -/
def Snapshot.Of (cfg : Config) (saved : Saved) (ps : List ReadPhase) (past : List InForce)
    (snap : Snapshot) : Prop :=
  ∃ now f m, m ∈ past ∧ Installed cfg saved ps m.prompt m.keywords ∧
    snap = resolved cfg now f m.prompt m.keywords m.labels m.presets

/-- What is in memory and what has been read; `past` are the values so far, with those in
    memory. -/
structure ReadInv (cfg : Config) (saved : Saved) (past : List InForce) (m : InForce)
    (ps : List ReadPhase) : Prop where
  now : m ∈ past
  bodies : ∀ b p ks, .prompting b p ks ∈ ps → p = strip b.prompt ∧ ks = keywordsOf cfg b.triggers
  keywords : ∀ b ks, .keywording b ks ∈ ps → ks = keywordsOf cfg b.triggers
  memory : Installed cfg saved ps m.prompt m.keywords ∨ ∃ q ∈ ps, q.brings m.prompt = true
  prompt : ∀ p, .readPrompt p ∈ ps → { m with prompt := p } ∈ past ∧
    (Installed cfg saved ps p m.keywords ∨ ∃ q ∈ ps, q.brings p = true)
  pair : ∀ p ts, .readKeywords p ts ∈ ps → { m with prompt := p, keywords := ts } ∈ past ∧
    Installed cfg saved ps p ts
  labels : ∀ p ts ls, .readLabels p ts ls ∈ ps → ⟨p, ts, ls, m.presets⟩ ∈ past ∧
    Installed cfg saved ps p ts
  holding : ∀ snap, .holding snap ∈ ps → snap.Of cfg saved ps past

/-- The settings that the worker may not have read yet. -/
inductive Field
  | keywords
  | labels
  | presets

/-- Unless it has read the field, what the phase has read is still in memory. -/
def ReadPhase.upToDate (m : InForce) (field : Field) : ReadPhase → Bool
  | .readPrompt p => decide (m.prompt = p)
  | .readKeywords p ts =>
      match field with
      | .keywords => true
      | _ => decide (m.prompt = p ∧ m.keywords = ts)
  | .readLabels p ts ls =>
      match field with
      | .presets => decide (m.prompt = p ∧ m.keywords = ts ∧ m.labels = ls)
      | _ => true
  | _ => true

/-- What is known of a step besides `ReadStep`. -/
structure ReadContext (m : InForce) (p : ReadPhase) (ps : List ReadPhase) (i : ℕ) : Prop where
  get : ps[i]? = some p
  /-- Keywords are set while the prompt in memory is of the request, or of one that is about to
      set its own keywords. -/
  own : ∀ b ks, p = .keywording b ks → ∃ q ∈ ps, q.brings m.prompt = true
  /-- Keywords are read while no request is about to set those of the prompt that was read. -/
  whole : ∀ x, p = .readPrompt x → ¬ ∃ q ∈ ps, q.brings x = true
  /-- A value is set as it is, or goes with what the worker has read. -/
  setKeywords : ∀ b ks, p = .keywording b ks → ks = m.keywords ∨
    ∀ q ∈ ps, q.upToDate m .keywords = true
  setLabels : ∀ ls qs, p = .labelling (some ls) qs → ls = m.labels ∨
    ∀ q ∈ ps, q.upToDate m .labels = true
  setPresets : ∀ qs, p = .presetting (some qs) → qs = m.presets ∨
    ∀ q ∈ ps, q.upToDate m .presets = true

section Step

variable {cfg : Config} {saved : Saved} {past : List InForce} {m m' : InForce}
variable {p p' : ReadPhase} {ps : List ReadPhase} {i : ℕ}

theorem ReadContext.mem (hc : ReadContext m p ps i) : p ∈ ps := List.mem_of_getElem? hc.get

theorem ReadContext.keep_mem (hc : ReadContext m p ps i) {q : ReadPhase} (hne : p ≠ q)
    (h : q ∈ ps) : q ∈ ps.set i p' := by
  obtain ⟨v, hv, rfl⟩ := exists_mem_set (Q := (· = q)) hc.get ⟨q, h, rfl⟩ hne
  exact hv

/-- A pair that was installed stays so. -/
theorem Installed.step {x : PyStr} {ks : List PyStr} (h : Installed cfg saved ps x ks)
    (hs : ReadStep cfg m p m' p') (hc : ReadContext m p ps i) :
    Installed cfg saved (ps.set i p') x ks := by
  rcases h with h | ⟨b, hb, hx, hks⟩
  · exact .inl h
  · refine .inr ⟨b, ?_, hx, hks⟩
    by_cases hp : p = .installed b
    · have hself : p' ∈ ps.set i p' := mem_set_self hc.get
      subst hp
      cases hs
      exact hself
    · exact hc.keep_mem hp hb

theorem Snapshot.Of.step {snap : Snapshot} (h : snap.Of cfg saved ps past)
    (hs : ReadStep cfg m p m' p') (hc : ReadContext m p ps i) :
    snap.Of cfg saved (ps.set i p') (m' :: past) := by
  obtain ⟨now, f, x, hx, hinst, rfl⟩ := h
  exact ⟨now, f, x, List.mem_cons_of_mem _ hx, hinst.step hs hc, rfl⟩

/-- A prompt whose keywords are still to be set gets them, or they are set in this step. -/
theorem ReadInv.brings_step (h : ReadInv cfg saved past m ps) (hs : ReadStep cfg m p m' p')
    (hc : ReadContext m p ps i) {x : PyStr} (hx : ∃ q ∈ ps, q.brings x = true) :
    Installed cfg saved (ps.set i p') x m'.keywords ∨ ∃ q ∈ ps.set i p', q.brings x = true := by
  by_cases hp : p.brings x = true
  · have hself : p' ∈ ps.set i p' := mem_set_self hc.get
    cases hs with
    | stay => exact .inr ⟨p, hself, hp⟩
    | setTriggers b ks =>
        left
        refine .inr ⟨b, hself, by simpa [ReadPhase.brings] using hp, ?_⟩
        exact (h.keywords b ks hc.mem).symm
    | validate | setPrompt | validatePresets | setLabels | setPresets | readPrompt | readKeywords
    | readLabels | readPresets | release => cases hp
  · exact .inr (exists_mem_set hc.get hx hp)

/-- A step that sets neither prompt nor keywords. -/
theorem ReadInv.memory_step (h : ReadInv cfg saved past m ps) (hs : ReadStep cfg m p m' p')
    (hc : ReadContext m p ps i) (hp : m'.prompt = m.prompt) (hk : m'.keywords = m.keywords) :
    Installed cfg saved (ps.set i p') m'.prompt m'.keywords ∨
      ∃ q ∈ ps.set i p', q.brings m'.prompt = true := by
  rcases h.memory with hinst | hbrings
  · rw [hp, hk]
    exact .inl (hinst.step hs hc)
  · rw [hp]
    exact h.brings_step hs hc hbrings

theorem ReadInv.step_bodies (h : ReadInv cfg saved past m ps) (hs : ReadStep cfg m p m' p')
    (hc : ReadContext m p ps i) (b : PromptIn) (x : PyStr) (ks : List PyStr)
    (hmem : .prompting b x ks ∈ ps.set i p') :
    x = strip b.prompt ∧ ks = keywordsOf cfg b.triggers := by
  rcases List.mem_or_eq_of_mem_set hmem with hmem | rfl
  · exact h.bodies b x ks hmem
  · cases hs with
    | stay => exact h.bodies b x ks hc.mem
    | validate => exact ⟨rfl, rfl⟩

theorem ReadInv.step_keywords (h : ReadInv cfg saved past m ps) (hs : ReadStep cfg m p m' p')
    (hc : ReadContext m p ps i) (b : PromptIn) (ks : List PyStr)
    (hmem : .keywording b ks ∈ ps.set i p') : ks = keywordsOf cfg b.triggers := by
  rcases List.mem_or_eq_of_mem_set hmem with hmem | rfl
  · exact h.keywords b ks hmem
  · cases hs with
    | stay => exact h.keywords b ks hc.mem
    | setPrompt _ x => exact (h.bodies b x ks hc.mem).2

/-- The pair in memory is one that was installed, or its keywords are about to be set. -/
theorem ReadInv.step_memory (h : ReadInv cfg saved past m ps) (hs : ReadStep cfg m p m' p')
    (hc : ReadContext m p ps i) :
    Installed cfg saved (ps.set i p') m'.prompt m'.keywords ∨
      ∃ q ∈ ps.set i p', q.brings m'.prompt = true := by
  have hkeep := h.memory_step hs hc
  cases hs with
  | setPrompt b x ks =>
      refine .inr ⟨_, mem_set_self hc.get, ?_⟩
      simpa [ReadPhase.brings] using (h.bodies b x ks hc.mem).1.symm
  | setTriggers b ks => exact h.brings_step (.setTriggers m b ks) hc (hc.own b ks rfl)
  | stay | validate | validatePresets | setLabels | setPresets | readPrompt | readKeywords
  | readLabels | readPresets | release => exact hkeep rfl rfl

/-- A prompt that was read goes with what is in memory of the rest. -/
theorem ReadInv.step_prompt (h : ReadInv cfg saved past m ps) (hs : ReadStep cfg m p m' p')
    (hc : ReadContext m p ps i) (x : PyStr) (hmem : .readPrompt x ∈ ps.set i p') :
    { m' with prompt := x } ∈ m' :: past ∧
      (Installed cfg saved (ps.set i p') x m'.keywords ∨
        ∃ q ∈ ps.set i p', q.brings x = true) := by
  by_cases hold : .readPrompt x ∈ ps
  · obtain ⟨hpast, hpair⟩ := h.prompt x hold
    have hbrings := h.brings_step (x := x) hs hc
    have hinst : Installed cfg saved ps x m.keywords →
        Installed cfg saved (ps.set i p') x m.keywords := fun hinst => hinst.step hs hc
    have hcurrent : m.prompt = x → { m' with prompt := m.prompt } = m' →
        { m' with prompt := x } ∈ m' :: past := by
      rintro rfl heq
      rw [heq]
      exact List.mem_cons_self
    cases hs with
    | setTriggers b ks =>
        rcases hc.setKeywords b ks rfl with rfl | hall
        · exact ⟨List.mem_cons_of_mem _ hpast, hpair.elim (fun hi => .inl (hinst hi)) hbrings⟩
        · have hx : m.prompt = x := of_decide_eq_true (hall _ hold)
          refine ⟨hcurrent hx rfl, hbrings ?_⟩
          rw [← hx]
          exact hc.own b ks rfl
    | setLabels ls qs =>
        refine ⟨?_, hpair.elim (fun hi => .inl (hinst hi)) hbrings⟩
        cases ls with
        | none => exact List.mem_cons_of_mem _ hpast
        | some ls =>
            rcases hc.setLabels ls qs rfl with rfl | hall
            · exact List.mem_cons_of_mem _ hpast
            · exact hcurrent (of_decide_eq_true (hall _ hold)) rfl
    | setPresets qs =>
        refine ⟨?_, hpair.elim (fun hi => .inl (hinst hi)) hbrings⟩
        cases qs with
        | none => exact List.mem_cons_of_mem _ hpast
        | some qs =>
            rcases hc.setPresets qs rfl with rfl | hall
            · exact List.mem_cons_of_mem _ hpast
            · exact hcurrent (of_decide_eq_true (hall _ hold)) rfl
    | stay | validate | setPrompt | validatePresets | readPrompt | readKeywords | readLabels
    | readPresets | release =>
        exact ⟨List.mem_cons_of_mem _ hpast, hpair.elim (fun hi => .inl (hinst hi)) hbrings⟩
  · -- the prompt is read in this step
    obtain rfl := (List.mem_or_eq_of_mem_set hmem).resolve_left hold
    cases hs with
    | stay => exact absurd hc.mem hold
    | readPrompt => exact ⟨List.mem_cons_self, h.memory_step (.readPrompt m) hc rfl rfl⟩

/-- Prompt and keywords that were read are one pair, and go with the rest. -/
theorem ReadInv.step_pair (h : ReadInv cfg saved past m ps) (hs : ReadStep cfg m p m' p')
    (hc : ReadContext m p ps i) (x : PyStr) (ts : List PyStr)
    (hmem : .readKeywords x ts ∈ ps.set i p') :
    { m' with prompt := x, keywords := ts } ∈ m' :: past ∧
      Installed cfg saved (ps.set i p') x ts := by
  by_cases hold : .readKeywords x ts ∈ ps
  · obtain ⟨hpast, hinst⟩ := h.pair x ts hold
    refine ⟨?_, hinst.step hs hc⟩
    have hcurrent : m.prompt = x ∧ m.keywords = ts →
        { m' with prompt := m.prompt, keywords := m.keywords } = m' →
        { m' with prompt := x, keywords := ts } ∈ m' :: past := by
      rintro ⟨rfl, rfl⟩ heq
      rw [heq]
      exact List.mem_cons_self
    cases hs with
    | setLabels ls qs =>
        cases ls with
        | none => exact List.mem_cons_of_mem _ hpast
        | some ls =>
            rcases hc.setLabels ls qs rfl with rfl | hall
            · exact List.mem_cons_of_mem _ hpast
            · exact hcurrent (of_decide_eq_true (hall _ hold)) rfl
    | setPresets qs =>
        cases qs with
        | none => exact List.mem_cons_of_mem _ hpast
        | some qs =>
            rcases hc.setPresets qs rfl with rfl | hall
            · exact List.mem_cons_of_mem _ hpast
            · exact hcurrent (of_decide_eq_true (hall _ hold)) rfl
    | stay | validate | setPrompt | setTriggers | validatePresets | readPrompt | readKeywords
    | readLabels | readPresets | release => exact List.mem_cons_of_mem _ hpast
  · obtain rfl := (List.mem_or_eq_of_mem_set hmem).resolve_left hold
    cases hs with
    | stay => exact absurd hc.mem hold
    | readKeywords =>
        obtain ⟨hpast, hpair⟩ := h.prompt x hc.mem
        have hinst := hpair.resolve_right (hc.whole x rfl)
        exact ⟨List.mem_cons_of_mem _ hpast, hinst.step (.readKeywords m x) hc⟩

theorem ReadInv.step_labels (h : ReadInv cfg saved past m ps) (hs : ReadStep cfg m p m' p')
    (hc : ReadContext m p ps i) (x : PyStr) (ts : List PyStr) (ls : Labels)
    (hmem : .readLabels x ts ls ∈ ps.set i p') :
    ⟨x, ts, ls, m'.presets⟩ ∈ m' :: past ∧ Installed cfg saved (ps.set i p') x ts := by
  by_cases hold : .readLabels x ts ls ∈ ps
  · obtain ⟨hpast, hinst⟩ := h.labels x ts ls hold
    refine ⟨?_, hinst.step hs hc⟩
    cases hs with
    | setPresets qs =>
        cases qs with
        | none => exact List.mem_cons_of_mem _ hpast
        | some qs =>
            rcases hc.setPresets qs rfl with rfl | hall
            · exact List.mem_cons_of_mem _ hpast
            · obtain ⟨rfl, rfl, rfl⟩ := of_decide_eq_true (hall _ hold)
              exact List.mem_cons_self
    | stay | validate | setPrompt | setTriggers | validatePresets | setLabels | readPrompt
    | readKeywords | readLabels | readPresets | release => exact List.mem_cons_of_mem _ hpast
  · obtain rfl := (List.mem_or_eq_of_mem_set hmem).resolve_left hold
    cases hs with
    | stay => exact absurd hc.mem hold
    | readLabels =>
        obtain ⟨hpast, hinst⟩ := h.pair x ts hc.mem
        exact ⟨List.mem_cons_of_mem _ hpast, hinst.step (.readLabels m x ts) hc⟩

theorem ReadInv.step_holding (h : ReadInv cfg saved past m ps) (hs : ReadStep cfg m p m' p')
    (hc : ReadContext m p ps i) (snap : Snapshot) (hmem : .holding snap ∈ ps.set i p') :
    snap.Of cfg saved (ps.set i p') (m' :: past) := by
  by_cases hold : .holding snap ∈ ps
  · exact (h.holding snap hold).step hs hc
  · obtain rfl := (List.mem_or_eq_of_mem_set hmem).resolve_left hold
    cases hs with
    | stay => exact absurd hc.mem hold
    | readPresets x ts ls f now =>
        obtain ⟨hpast, hinst⟩ := h.labels x ts ls hc.mem
        exact ⟨now, f, ⟨x, ts, ls, m.presets⟩, List.mem_cons_of_mem _ hpast,
          hinst.step (.readPresets m x ts ls f now) hc, rfl⟩

/-- Every step keeps the invariant. -/
theorem ReadInv.step (h : ReadInv cfg saved past m ps) (hs : ReadStep cfg m p m' p')
    (hc : ReadContext m p ps i) : ReadInv cfg saved (m' :: past) m' (ps.set i p') where
  now := List.mem_cons_self
  bodies := h.step_bodies hs hc
  keywords := h.step_keywords hs hc
  memory := h.step_memory hs hc
  prompt := h.step_prompt hs hc
  pair := h.step_pair hs hc
  labels := h.step_labels hs hc
  holding := h.step_holding hs hc

/-- A moment in which nothing happens. -/
theorem ReadInv.idle (h : ReadInv cfg saved past m ps) : ReadInv cfg saved (m :: past) m ps where
  now := List.mem_cons_self
  bodies := h.bodies
  keywords := h.keywords
  memory := h.memory
  prompt x hx := ⟨List.mem_cons_of_mem _ (h.prompt x hx).1, (h.prompt x hx).2⟩
  pair x ts hx := ⟨List.mem_cons_of_mem _ (h.pair x ts hx).1, (h.pair x ts hx).2⟩
  labels x ts ls hx := ⟨List.mem_cons_of_mem _ (h.labels x ts ls hx).1, (h.labels x ts ls hx).2⟩
  holding snap hsnap := by
    obtain ⟨now, f, x, hx, hrest⟩ := h.holding snap hsnap
    exact ⟨now, f, x, List.mem_cons_of_mem _ hx, hrest⟩

theorem ReadInv.enter (h : ReadInv cfg saved past m ps) :
    ReadInv cfg saved past m (ps ++ [.quiet]) := by
  have hmem : ∀ {q : ReadPhase}, q ≠ .quiet → q ∈ ps ++ [.quiet] → q ∈ ps := by
    intro q hne hq
    exact (List.mem_append.mp hq).resolve_right fun hq => hne (List.mem_singleton.mp hq)
  have hinst : ∀ {x ks}, Installed cfg saved ps x ks →
      Installed cfg saved (ps ++ [.quiet]) x ks := by
    rintro x ks (hx | ⟨b, hb, hx⟩)
    · exact .inl hx
    · exact .inr ⟨b, List.mem_append_left _ hb, hx⟩
  have hbrings : ∀ {x}, (∃ q ∈ ps, q.brings x = true) →
      ∃ q ∈ ps ++ [.quiet], q.brings x = true :=
    fun ⟨q, hq, hx⟩ => ⟨q, List.mem_append_left _ hq, hx⟩
  refine ⟨h.now, fun b x ks hx => h.bodies b x ks (hmem (by simp) hx),
    fun b ks hx => h.keywords b ks (hmem (by simp) hx), h.memory.imp hinst hbrings,
    fun x hx => ?_, fun x ts hx => ?_, fun x ts ls hx => ?_, fun snap hx => ?_⟩
  · exact (h.prompt x (hmem (by simp) hx)).imp_right (Or.imp hinst hbrings)
  · exact (h.pair x ts (hmem (by simp) hx)).imp_right hinst
  · exact (h.labels x ts ls (hmem (by simp) hx)).imp_right hinst
  · obtain ⟨now, f, y, hy, hi, hrest⟩ := h.holding snap (hmem (by simp) hx)
    exact ⟨now, f, y, hy, hinst hi, hrest⟩

end Step

/-! ## Whole runs -/

/-- Keywords are set while the prompt in memory is that of a request that is about to set its
    keywords, and read while none is about to set those of the prompt that was read.  A value is
    set as it is, or while all the worker has read is in memory, if the worker has yet to read
    it. -/
def consistent (c : Conf Shared Thread) : Event Request Choice Env → Bool
  | .sched i _ =>
      match c.pool[i]? with
      | some t =>
          let m := c.shared.app.inForce
          match t.readPhase with
          | .keywording _ ks =>
              (c.pool.any fun u => u.readPhase.brings m.prompt) &&
                (decide (ks = m.keywords) || c.pool.all fun u => u.readPhase.upToDate m .keywords)
          | .labelling (some ls) _ =>
              decide (ls = m.labels) || c.pool.all fun u => u.readPhase.upToDate m .labels
          | .presetting (some ps) =>
              decide (ps = m.presets) || c.pool.all fun u => u.readPhase.upToDate m .presets
          | .readPrompt p => c.pool.all fun u => !u.readPhase.brings p
          | _ => true
      | none => true
  | _ => true

def Consistent (c : Conf Shared Thread) (e : Event Request Choice Env) : Prop :=
  consistent c e = true

instance (c : Conf Shared Thread) (e : Event Request Choice Env) : Decidable (Consistent c e) :=
  inferInstanceAs (Decidable (_ = true))

/-- What is known of a step that `Consistent` allows. -/
theorem Consistent.context {c : Conf Shared Thread} {i : ℕ} {k : Choice} {t : Thread}
    (hG : Consistent c (.sched i k)) (ht : c.pool[i]? = some t) :
    ReadContext c.shared.app.inForce t.readPhase (c.pool.map Thread.readPhase) i where
  get := map_phase_get ht
  own b ks hp := by
    simp only [Consistent, consistent, ht, hp, Bool.and_eq_true, List.any_eq_true] at hG
    obtain ⟨⟨u, hu, hbrings⟩, -⟩ := hG
    exact ⟨_, List.mem_map_of_mem hu, hbrings⟩
  whole x hp := by
    simp only [Consistent, consistent, ht, hp, List.all_eq_true, Bool.not_eq_true'] at hG
    rintro ⟨q, hq, hbrings⟩
    obtain ⟨u, hu, rfl⟩ := List.mem_map.mp hq
    rw [hG u hu] at hbrings
    cases hbrings
  setKeywords b ks hp := by
    simp only [Consistent, consistent, ht, hp, Bool.and_eq_true, Bool.or_eq_true,
      decide_eq_true_eq, List.all_eq_true] at hG
    exact hG.2.imp_right fun hall => List.forall_mem_map.mpr hall
  setLabels ls qs hp := by
    simp only [Consistent, consistent, ht, hp, Bool.or_eq_true, decide_eq_true_eq,
      List.all_eq_true] at hG
    exact hG.imp_right fun hall => List.forall_mem_map.mpr hall
  setPresets qs hp := by
    simp only [Consistent, consistent, ht, hp, Bool.or_eq_true, decide_eq_true_eq,
      List.all_eq_true] at hG
    exact hG.imp_right fun hall => List.forall_mem_map.mpr hall

theorem readInv_boot (cfg : Config) (saved : Saved) (model : String) (now : ℚ) :
    ReadInv cfg saved [(boot saved model now).shared.app.inForce]
      (boot saved model now).shared.app.inForce
      ((boot saved model now).pool.map Thread.readPhase) where
  now := List.mem_singleton_self _
  bodies b p ks h := by simp [boot, Thread.readPhase, WorkerPc.readPhase] at h
  keywords b ks h := by simp [boot, Thread.readPhase, WorkerPc.readPhase] at h
  memory := .inl (.inl ⟨rfl, rfl⟩)
  prompt p h := by simp [boot, Thread.readPhase, WorkerPc.readPhase] at h
  pair p ts h := by simp [boot, Thread.readPhase, WorkerPc.readPhase] at h
  labels p ts ls h := by simp [boot, Thread.readPhase, WorkerPc.readPhase] at h
  holding snap h := by simp [boot, Thread.readPhase, WorkerPc.readPhase] at h

/-- In a run in which every read and write of the settings is `Consistent`, the values an
    inference uses were in memory together at one moment of the run, and its prompt and keywords
    were restored together or set by one request. -/
theorem snapshot_consistent (cfg : Config) (saved : Saved) (model : String) (now : ℚ)
    (c : Conf Shared Thread) (past : List (Conf Shared Thread))
    (h : Trace (analyzer cfg).step Consistent (boot saved model now) (c :: past))
    (t : Thread) (ht : t ∈ c.pool) (snap : Snapshot) (hsnap : t.readPhase = .holding snap) :
    ∃ a ∈ c :: past, ∃ time frames,
      snap = resolved cfg time frames a.shared.app.inferencePrompt a.shared.app.triggerKeywords
        a.shared.app.labelGroups a.shared.app.presets ∧
      Installed cfg saved (c.pool.map Thread.readPhase) a.shared.app.inferencePrompt
        a.shared.app.triggerKeywords := by
  let views : List (Conf Shared Thread) → List InForce := List.map fun a => a.shared.app.inForce
  have hinv : ReadInv cfg saved (views (c :: past)) c.shared.app.inForce
      (c.pool.map Thread.readPhase) := by
    refine h.invariant (K := fun c past => ReadInv cfg saved (views (c :: past))
      c.shared.app.inForce (c.pool.map Thread.readPhase)) (readInv_boot cfg saved model now) ?_
    intro a l e b hi hG hs
    refine (read_refines cfg).step_still
      (K := fun m ps => ReadInv cfg saved (m :: views (a :: l)) m ps)
      hi.idle hi.idle.enter (fun i k t m' p' he ht hr => ?_) hs
    subst he
    exact hi.step hr (hG.context ht)
  obtain ⟨time, frames, m, hm, hinst, rfl⟩ :=
    hinv.holding snap (List.mem_map.mpr ⟨t, ht, hsnap⟩)
  obtain ⟨a, ha, rfl⟩ := List.mem_map.mp hm
  exact ⟨a, ha, time, frames, rfl, hinst⟩

/-- Boot with a frame, and the worker up to its reads of the settings. -/
def sampleInferring : List (Event Request Choice Env) :=
  goes 0 13 ++ .enter (.frame 0 7) :: goes 3 4 ++ goes 1 5

def samplePrompt : Request := .prompt ⟨pyStr "Look for smoke.", pyStr "smoke"⟩

set_option maxRecDepth 4000 in
/-- A prompt set before the worker reads it. -/
theorem snapshot_consistent_prompted :
    ∃ c past snap, Trace (analyzer sampleConfig).step Consistent (boot sampleSaved "vlm" 100)
        (c :: past) ∧
      snap.prompt = pyStr "Look for smoke." ∧ snap.triggers = [pyStr "smoke"] ∧
      ∃ a ∈ c :: past, ∃ time frames, snap = resolved sampleConfig time frames
        a.shared.app.inferencePrompt a.shared.app.triggerKeywords a.shared.app.labelGroups
        a.shared.app.presets := by
  let c := exec (guardedStep (analyzer sampleConfig).step Consistent) (boot sampleSaved "vlm" 100)
    (sampleInferring ++ .enter samplePrompt :: goes 4 3 ++ goes 1 4)
  let snap : Snapshot := ⟨⟨[7], 100, 0⟩, pyStr "Look for smoke.", [pyStr "smoke"], [], pyStr "default"⟩
  have hrun : Steps (analyzer sampleConfig).step Consistent (boot sampleSaved "vlm" 100) c :=
    Steps.execGuarded (by decide)
  obtain ⟨past, htrace⟩ := hrun.trace
  have hmem : .worker 0 0 (.setPreset snap) ∈ c.pool := by decide
  obtain ⟨a, ha, time, frames, heq, -⟩ :=
    snapshot_consistent sampleConfig sampleSaved "vlm" 100 c past htrace _ hmem snap rfl
  exact ⟨c, past, snap, htrace, rfl, rfl, a, ha, time, frames, heq⟩

set_option maxRecDepth 4000 in
/-- A prompt set between the worker's read of the prompt and its read of the keywords: the old
    prompt is matched against the new keywords. -/
theorem snapshot_mixed :
    ∃ c last failures snap,
      Steps (analyzer sampleConfig).step free (boot sampleSaved "vlm" 100) c ∧
      c.pool[1]? = some (.worker last failures (.setPreset snap)) ∧
      snap.prompt = sampleSaved.prompt ∧ snap.triggers = [pyStr "smoke"] ∧
      ¬ Installed sampleConfig sampleSaved (c.pool.map Thread.readPhase) snap.prompt
        snap.triggers := by
  let c := exec (analyzer sampleConfig).step (boot sampleSaved "vlm" 100)
    (sampleInferring ++ goes 1 1 ++ .enter samplePrompt :: goes 4 3 ++ goes 1 3)
  let snap : Snapshot := ⟨⟨[7], 100, 0⟩, pyStr "Describe the scene.", [pyStr "smoke"], [], pyStr "default"⟩
  have hphases : c.pool.map Thread.readPhase =
      [.quiet, .holding snap, .quiet, .quiet, .installed ⟨pyStr "Look for smoke.", pyStr "smoke"⟩] := by
    decide
  refine ⟨c, 0, 0, snap, Steps.exec (by decide), by decide, rfl, rfl, ?_⟩
  rw [hphases]
  rintro (⟨-, hrestored⟩ | ⟨b, hb, hprompt, -⟩)
  · exact absurd hrestored (by decide)
  · obtain rfl : b = ⟨pyStr "Look for smoke.", pyStr "smoke"⟩ := by simpa using hb
    exact absurd hprompt (by decide)

end Babycat.Analyzer
