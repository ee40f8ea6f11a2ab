/-
  Babycat.Analyzer.Persist

  The settings file and the settings in memory (FR-014).

  `persist_settings` gets five values under five acquisitions of the state lock
  and writes the file under another lock, so a slow writer can replace a newer
  file.  `Fresh` is bookkeeping the code does not have: which of the values that
  a handler got no setter has changed since.  `InTime` is the guard of the runs
  in which a handler writes fresh values, and the write neither fails nor
  raises, or another handler is still to write.  In these runs the file equals
  the memory whenever no handler is in progress (`file_current`).
-/

import Babycat.Analyzer.Steps
import Babycat.Conc.Pending

namespace Babycat.Analyzer

open Babycat.Conc
open Babycat.Text (PyStr pyStr strip)

/-- The thread is a handler that is still to write the settings file. -/
def Thread.willSave : Thread → Bool
  | .prompt b .validate => strip b.prompt != []
  | .prompt _ (.setPrompt _ _) | .prompt _ (.setTriggers _) | .prompt _ (.persist _) => true
  | .presets b .validate =>
      match validatePresetsBody b with
      | .setLabels _ _ => true
      | _ => false
  | .presets _ (.setLabels _ _) | .presets _ (.setPresets _) | .presets _ (.persist _) => true
  | .start .setActive | .start (.persist _) => true
  | .stop .setActive | .stop (.persist _) => true
  | _ => false

/-- The call of `persist_settings` that the thread is in. -/
def Thread.persisting : Thread → Option PersistPc
  | .prompt _ (.persist pc) | .presets _ (.persist pc) => some pc
  | .start (.persist pc) | .stop (.persist pc) => some pc
  | _ => none

/-! ## Getters and setters -/

/-- The values that are persisted, each with a getter and setters of its own. -/
inductive Setting
  | prompt
  | keywords
  | labels
  | presets
  | active
  deriving DecidableEq

def Setting.all : List Setting := [.prompt, .keywords, .labels, .presets, .active]

/-- Two combinations of settings have the same value. -/
def Setting.Same (a b : Saved) : Setting → Prop
  | .prompt => a.prompt = b.prompt
  | .keywords => a.keywords = b.keywords
  | .labels => a.labels = b.labels
  | .presets => a.presets = b.presets
  | .active => a.analysisActive = b.analysisActive

theorem Setting.Same.refl (f : Setting) (a : Saved) : f.Same a a := by cases f <;> rfl

/-- The value that the next step gets. -/
def PersistPc.gets : PersistPc → Option Setting
  | .prompt => some .prompt
  | .triggers _ => some .keywords
  | .labels _ _ => some .labels
  | .presets _ _ _ => some .presets
  | .active _ _ _ _ => some .active
  | .write _ => none

/-- The value that the next step of the thread changes. -/
def Thread.changes (s : Shared) : Thread → Option Setting
  | .prompt _ (.setPrompt p _) => if p = s.app.inferencePrompt then none else some .prompt
  | .prompt _ (.setTriggers ks) => if ks = s.app.triggerKeywords then none else some .keywords
  | .presets _ (.setLabels (some ls) _) =>
      if ls = s.app.labelGroups then none else some .labels
  | .presets _ (.setPresets (some ps)) => if ps = s.app.presets then none else some .presets
  | .start .setActive => if s.app.analysisActive then none else some .active
  | .stop .setActive => if s.app.analysisActive then some .active else none
  | _ => none

/-- For each thread, the values it got that no setter has changed since. -/
abbrev Fresh := ℕ → Setting → Bool

/-- What a step of thread `i` does to the bookkeeping. -/
def recordGets (i : ℕ) (s : Shared) (t : Thread) (fresh : Fresh) : Fresh :=
  match t.persisting.bind PersistPc.gets with
  | some f => Function.update fresh i (Function.update (fresh i) f true)
  | none =>
      match t.changes s with
      | some f => fun j => Function.update (fresh j) f false
      | none => fresh

/-- The analyzer with the bookkeeping. -/
def getting (cfg : Config) : Prog (Shared × Fresh) Thread Request Choice Env :=
  (analyzer cfg).observed recordGets

/-- The process when its HTTP server starts. -/
def bootGetting (saved : Saved) (model : String) (now : ℚ) : Conf (Shared × Fresh) Thread :=
  ⟨((boot saved model now).shared, fun _ _ => false), (boot saved model now).pool⟩

/-- A handler writes values that no setter has changed since it got them, and the write neither
    fails nor raises; or another handler is still to write. -/
def inTime (c : Conf (Shared × Fresh) Thread) : Event Request Choice Env → Bool
  | .sched i k =>
      match c.pool[i]?.bind Thread.persisting with
      | some (.write saved) =>
          (decide (k ≠ .ioError) && saved.encodable && Setting.all.all (c.shared.2 i)) ||
            (c.pool.eraseIdx i).any Thread.willSave
      | _ => true
  | _ => true

def InTime (c : Conf (Shared × Fresh) Thread) (e : Event Request Choice Env) : Prop :=
  inTime c e = true

instance (c : Conf (Shared × Fresh) Thread) (e : Event Request Choice Env) :
    Decidable (InTime c e) :=
  inferInstanceAs (Decidable (_ = true))

/-! ## What a step does to the settings -/

/-- The steps, as far as the settings are concerned. -/
inductive SaveStep (s : Shared) (k : Choice) (t : Thread) (s' : Shared) (t' : Thread) : Prop
  | keep (h : SettingsSame s s') (hw : t.willSave = true → t'.willSave = true)
      (hp : t.persisting = none) (hp' : ∀ pc, t'.persisting = some pc → pc = .prompt)
  | set (hfile : s'.file = s.file)
      (hmemory : ∀ f, t.changes s ≠ some f → f.Same s'.app.settings s.app.settings)
      (hw : t'.willSave = true) (hp : t.persisting = none)
      (hp' : ∀ pc, t'.persisting = some pc → pc = .prompt)
  | get (pc pc' : PersistPc) (hp : t.persisting = some pc) (hp' : t'.persisting = some pc')
      (h : s' = s) (hrun : (persistNext s k pc).2 = .running pc') (hw : t'.willSave = true)
  | write (saved : Saved) (hp : t.persisting = some (.write saved)) (hp' : t'.persisting = none)
      (hmemory : s'.app.settings = s.app.settings)
      (hfile : k ≠ .ioError → saved.encodable = true → s'.file = saved)

/-- The write is the last step of `persist_settings`. -/
theorem persistNext_write {s : Shared} {k : Choice} {saved : Saved} {pc : PersistPc} :
    (persistNext s k (.write saved)).2 ≠ .running pc := by
  rw [persistNext]
  split
  · exact PersistOutcome.noConfusion
  · split <;> exact PersistOutcome.noConfusion

section Save

variable {cfg : Config} {i : ℕ} {s s' : Shared} {k : Choice} {t t' : Thread}

/-- A setter that changes nothing sets the value there is. -/
theorem eq_of_unchanged {α : Type} [DecidableEq α] {a b : α} {f : Setting}
    (h : (if a = b then none else some f) ≠ some f) : a = b :=
  by_contra fun hne => h (if_neg hne)

/-- `persist_settings`, in whatever handler `wrap` it runs: it gets a value, or writes and is
    over. -/
theorem persistNext_save (wrap : PersistPc → Thread) (hsave : ∀ pc, (wrap pc).willSave = true)
    (hpersist : ∀ pc, (wrap pc).persisting = some pc) (pc : PersistPc)
    (hrun : ∀ pc', (persistNext s k pc).2 = .running pc' → t' = wrap pc')
    (hover : (∀ pc', (persistNext s k pc).2 ≠ .running pc') → t'.persisting = none) :
    SaveStep s k (wrap pc) (persistNext s k pc).1 t' := by
  cases pc with
  | write saved =>
      refine .write saved (hpersist _) (hover fun _ => persistNext_write) ?_ fun hk he => ?_
      · obtain ⟨file, hfile⟩ := persistNext_file s k (.write saved)
        rw [hfile]
      · rw [persistNext, if_neg hk, if_pos he]
  | _ =>
      rw [hrun _ rfl]
      exact .get _ _ (hpersist _) (hpersist _) rfl rfl (hsave _)

theorem promptNext_save {b : PromptIn} {pc pc' : PromptPc}
    (h : promptNext cfg s k b pc = some (s', pc')) :
    SaveStep s k (.prompt b pc) s' (.prompt b pc') := by
  cases pc with
  | validate =>
      cases h
      refine .keep (SettingsSame.refl _) (fun hw => ?_) rfl fun pc hp => ?_
      · have hne : strip b.prompt ≠ [] := by simpa [Thread.willSave] using hw
        rw [if_neg hne]
        rfl
      · split at hp <;> cases hp
  | setPrompt p ks =>
      cases h
      refine .set rfl (fun f hf => ?_) rfl rfl fun pc hp => by cases hp
      cases f with
      | prompt => exact eq_of_unchanged hf
      | _ => rfl
  | setTriggers ks =>
      cases h
      refine .set rfl (fun f hf => ?_) rfl rfl fun pc hp => by cases hp; rfl
      cases f with
      | keywords => exact eq_of_unchanged hf
      | _ => rfl
  | persist pc =>
      cases h
      refine persistNext_save (fun pc => .prompt b (.persist pc)) (fun _ => rfl) (fun _ => rfl) pc
        (fun pc' hp => by rw [hp]) fun hover => ?_
      cases hp : (persistNext s k pc).2 with
      | running pc' => exact absurd hp (hover pc')
      | _ => rfl
  | finished r => cases h

theorem presetsNext_save {b : PresetsIn} {pc pc' : PresetsPc}
    (h : presetsNext s k b pc = some (s', pc')) :
    SaveStep s k (.presets b pc) s' (.presets b pc') := by
  cases pc with
  | validate =>
      cases h
      refine .keep (SettingsSame.refl _) (fun hw => ?_) rfl fun pc hp => ?_
      · simp only [Thread.willSave] at hw
        split at hw
        · rename_i hv
          rw [hv]
          rfl
        · cases hw
      · rw [validatePresetsBody] at hp
        split at hp <;> cases hp
  | setLabels labels presets =>
      cases h
      cases labels with
      | none => exact .set rfl (fun f _ => Setting.Same.refl f _) rfl rfl fun pc hp => by cases hp
      | some ls =>
          refine .set rfl (fun f hf => ?_) rfl rfl fun pc hp => by cases hp
          cases f with
          | labels => exact eq_of_unchanged hf
          | _ => rfl
  | setPresets presets =>
      cases h
      cases presets with
      | none =>
          exact .set rfl (fun f _ => Setting.Same.refl f _) rfl rfl fun pc hp => by cases hp; rfl
      | some ps =>
          refine .set rfl (fun f hf => ?_) rfl rfl fun pc hp => by cases hp; rfl
          cases f with
          | presets => exact eq_of_unchanged hf
          | _ => rfl
  | persist pc =>
      cases h
      refine persistNext_save (fun pc => .presets b (.persist pc)) (fun _ => rfl) (fun _ => rfl) pc
        (fun pc' hp => by rw [hp]) fun hover => ?_
      cases hp : (persistNext s k pc).2 with
      | running pc' => exact absurd hp (hover pc')
      | _ => rfl
  | readLabels | readPresets ls =>
      cases h
      exact .keep (SettingsSame.refl _) (fun hw => by cases hw) rfl fun pc hp => by cases hp
  | finished r => cases h

theorem startHandlerNext_save {pc pc' : StartHandlerPc}
    (h : startHandlerNext i s k pc = some (s', pc')) :
    SaveStep s k (.start pc) s' (.start pc') := by
  cases pc with
  | setActive =>
      cases h
      refine .set rfl (fun f hf => ?_) rfl rfl fun pc hp => by cases hp; rfl
      cases f with
      | active =>
          show _ = s.app.analysisActive
          cases hactive : s.app.analysisActive with
          | true => rfl
          | false => exact absurd (by rw [Thread.changes, hactive]; rfl) hf
      | _ => rfl
  | persist pc =>
      cases h
      refine persistNext_save (fun pc => .start (.persist pc)) (fun _ => rfl) (fun _ => rfl) pc
        (fun pc' hp => by rw [hp]) fun hover => ?_
      cases hp : (persistNext s k pc).2 with
      | running pc' => exact absurd hp (hover pc')
      | _ => rfl
  | pipeline pc =>
      obtain ⟨⟨a, o⟩, ha, heq⟩ := Option.map_eq_some_iff.mp h
      cases heq
      refine .keep (startNext_same ha).2 (fun hw => by cases hw) rfl fun pc hp => ?_
      rcases o with pc' | ⟨_ | cause⟩ <;> cases hp
  | callback =>
      cases h
      refine .keep ⟨rfl, rfl⟩ (fun hw => by cases hw) rfl fun pc hp => ?_
      split at hp <;> cases hp
  | failed cause =>
      cases h
      exact .keep ⟨rfl, rfl⟩ (fun hw => by cases hw) rfl fun pc hp => by cases hp
  | finished r => cases h

theorem stopHandlerNext_save {pc pc' : StopHandlerPc}
    (h : stopHandlerNext i s k pc = some (s', pc')) :
    SaveStep s k (.stop pc) s' (.stop pc') := by
  cases pc with
  | setActive =>
      cases h
      refine .set rfl (fun f hf => ?_) rfl rfl fun pc hp => by cases hp; rfl
      cases f with
      | active =>
          show _ = s.app.analysisActive
          cases hactive : s.app.analysisActive with
          | true => exact absurd (by rw [Thread.changes, hactive]; rfl) hf
          | false => rfl
      | _ => rfl
  | persist pc =>
      cases h
      refine persistNext_save (fun pc => .stop (.persist pc)) (fun _ => rfl) (fun _ => rfl) pc
        (fun pc' hp => by rw [hp]) fun hover => ?_
      cases hp : (persistNext s k pc).2 with
      | running pc' => exact absurd hp (hover pc')
      | _ => rfl
  | check =>
      obtain ⟨a, ha, heq⟩ := Option.map_eq_some_iff.mp h
      obtain ⟨-, rfl⟩ := lockPipeline_some ha
      split at heq <;>
        (cases heq; exact .keep ⟨rfl, rfl⟩ (fun hw => by cases hw) rfl fun pc hp => by cases hp)
  | teardown old =>
      cases old with
      | none =>
          cases h
          exact .keep (SettingsSame.refl _) (fun hw => by cases hw) rfl fun pc hp => by cases hp
      | some p =>
          obtain ⟨a, ha, heq⟩ := Option.map_eq_some_iff.mp h
          cases heq
          exact .keep (teardown_same ha).2 (fun hw => by cases hw) rfl fun pc hp => by cases hp
  | detach | mark =>
      cases h
      exact .keep ⟨rfl, rfl⟩ (fun hw => by cases hw) rfl fun pc hp => by cases hp
  | finished => cases h

/-- The worker writes no setting. -/
theorem workerNext_settings {last last' : ℚ} {failures failures' : ℕ} {pc pc' : WorkerPc}
    (h : workerNext cfg s k last failures pc = some (s', last', failures', pc')) :
    SettingsSame s s' := by
  cases pc with
  | notStarted | get =>
      simp only [workerNext] at h
      split at h <;> (cases h; try exact ⟨rfl, rfl⟩)
  | infer inf =>
      simp only [workerNext] at h
      split at h <;> (cases h; try exact ⟨rfl, rfl⟩)
  | exited => cases h
  | _ => cases h; exact ⟨rfl, rfl⟩

theorem next_save (hn : next cfg i s t k = some (s', t')) : SaveStep s k t s' t' := by
  cases t with
  | boot pc =>
      obtain ⟨pc', hstep, rfl⟩ := next_boot hn
      exact .keep (bootNext_same hstep).2 (fun hw => by cases hw) rfl fun pc hp => by cases hp
  | worker last failures pc =>
      obtain ⟨last', failures', pc', hstep, rfl⟩ := next_worker hn
      exact .keep (workerNext_settings hstep) (fun hw => by cases hw) rfl fun pc hp => by cases hp
  | watchdog timeout pc =>
      obtain ⟨timeout', pc', hstep, rfl⟩ := next_watchdog hn
      exact .keep (watchdogNext_same hstep).2 (fun hw => by cases hw) rfl fun pc hp => by cases hp
  | prompt b pc =>
      obtain ⟨pc', hstep, rfl⟩ := next_prompt hn
      exact promptNext_save hstep
  | presets b pc =>
      obtain ⟨pc', hstep, rfl⟩ := next_presets hn
      exact presetsNext_save hstep
  | start pc =>
      obtain ⟨pc', hstep, rfl⟩ := next_start hn
      exact startHandlerNext_save hstep
  | stop pc =>
      obtain ⟨pc', hstep, rfl⟩ := next_stop hn
      exact stopHandlerNext_save hstep
  | frame p img pc =>
      obtain ⟨pc', hstep, rfl⟩ := next_frame hn
      exact .keep (frameNext_same hstep).2 (fun hw => by cases hw) rfl fun pc hp => by cases hp

theorem env_settings {x : Env} (hx : env s x = some s') : SettingsSame s s' := by
  obtain ⟨now, outbox, hist, rfl⟩ := env_frame hx
  exact ⟨rfl, rfl⟩

end Save

/-! ## What is fresh is in memory -/

/-- The settings that the call is going to write if the rest of the values is as in `m`. -/
def PersistPc.values (m : Saved) : PersistPc → Saved
  | .prompt => m
  | .triggers p => { m with prompt := p }
  | .labels p ks => { m with prompt := p, keywords := ks }
  | .presets p ks ls => { m with prompt := p, keywords := ks, labels := ls }
  | .active p ks ls ps => { m with prompt := p, keywords := ks, labels := ls, presets := ps }
  | .write saved => saved

/-- What the thread got and no setter has changed since is in memory. -/
def GotFresh (i : ℕ) (s : Shared × Fresh) (t : Thread) : Prop :=
  ∀ pc, t.persisting = some pc → ∀ f, s.2 i f = true →
    f.Same (pc.values s.1.app.settings) s.1.app.settings

section Fresh

variable {i j : ℕ} {s : Shared} {t : Thread} {fresh : Fresh} {k : Choice} {f : Setting}

/-- A step of another thread makes nothing fresh, and what stays so it does not change. -/
theorem recordGets_other (hne : j ≠ i) (h : recordGets i s t fresh j f = true) :
    fresh j f = true ∧ (t.persisting = none → t.changes s ≠ some f) := by
  rw [recordGets] at h
  cases hget : t.persisting.bind PersistPc.gets with
  | some g =>
      rw [hget] at h
      simp only [Function.update_of_ne hne] at h
      refine ⟨h, fun hp => ?_⟩
      rw [hp] at hget
      cases hget
  | none =>
      rw [hget] at h
      cases hc : t.changes s with
      | none =>
          rw [hc] at h
          exact ⟨h, fun _ => nofun⟩
      | some g =>
          simp only [hc] at h
          by_cases hfg : f = g
          · rw [hfg, Function.update_self] at h
            cases h
          · rw [Function.update_of_ne hfg] at h
            exact ⟨h, fun _ heq => hfg (Option.some.inj heq).symm⟩

/-- A getter adds the value of this moment to what the call has. -/
theorem values_running {pc pc' : PersistPc} (hrun : (persistNext s k pc).2 = .running pc')
    (hf : pc.gets ≠ some f → f.Same (pc.values s.app.settings) s.app.settings) :
    f.Same (pc'.values s.app.settings) s.app.settings := by
  cases pc with
  | write saved => exact absurd hrun persistNext_write
  | _ =>
      cases hrun
      cases f <;> first | rfl | exact hf (by rw [PersistPc.gets]; decide)

/-- A value that a step leaves alone agrees as before. -/
theorem values_same {pc : PersistPc} {m m' : Saved} (hm : f.Same m' m)
    (h : f.Same (pc.values m) m) : f.Same (pc.values m') m' := by
  cases pc with
  | prompt => exact Setting.Same.refl f m'
  | _ =>
      cases f
      all_goals first
        | exact h.trans hm.symm
        | exact rfl

theorem eq_of_all_same {a b : Saved} (h : ∀ f : Setting, f.Same a b) : a = b := by
  obtain ⟨p, ks, ls, ps, active⟩ := a
  obtain ⟨p', ks', ls', ps', active'⟩ := b
  obtain rfl : p = p' := h .prompt
  obtain rfl : ks = ks' := h .keywords
  obtain rfl : ls = ls' := h .labels
  obtain rfl : ps = ps' := h .presets
  obtain rfl : active = active' := h .active
  rfl

end Fresh

theorem fresh_outline (cfg : Config)
    (G : Conf (Shared × Fresh) Thread → Event Request Choice Env → Prop) :
    OwickiGries (getting cfg) G (fun _ => True) GotFresh where
  enter i s r _ pc hp f _ := by cases r <;> cases hp
  own c i k t s' t' hc _ ht hn := by
    obtain ⟨hnext, hfresh⟩ := Prog.observed_next hn
    refine ⟨trivial, fun pc hp f hf => ?_⟩
    cases next_save hnext with
    | keep _ _ _ hp' | set _ _ _ _ hp' =>
        rw [hp' pc hp]
        exact Setting.Same.refl f _
    | get pc₀ pc' hp₀ hp' hsame hrun _ =>
        obtain rfl : pc' = pc := Option.some.inj (hp'.symm.trans hp)
        rw [hsame]
        refine values_running hrun fun hne => hc.2 i t ht pc₀ hp₀ f ?_
        -- the getter of another value leaves this one as fresh as it was
        rw [hfresh, recordGets, hp₀] at hf
        cases hg : pc₀.gets with
        | none =>
            cases pc₀ with
            | write saved => exact absurd hrun persistNext_write
            | _ => cases hg
        | some g =>
            simp only [Option.bind_some, hg, Function.update_self] at hf
            rwa [Function.update_of_ne fun h => hne (hg.trans (congrArg some h.symm))] at hf
    | write _ _ hp' =>
        rw [hp'] at hp
        cases hp
  others c i k t s' t' j v hc _ ht hn hne hv pc hp f hf := by
    obtain ⟨hnext, hfresh⟩ := Prog.observed_next hn
    rw [hfresh] at hf
    obtain ⟨hold, hchange⟩ := recordGets_other hne hf
    refine values_same ?_ (hc.2 j v hv pc hp f hold)
    cases next_save hnext with
    | keep h => rw [h.memory]; exact Setting.Same.refl f _
    | set _ hmemory _ hnone => exact hmemory f (hchange hnone)
    | get _ _ _ _ hsame => rw [hsame]; exact Setting.Same.refl f _
    | write _ _ _ hmemory => rw [hmemory]; exact Setting.Same.refl f _
  env c x s' hc _ hx := by
    obtain ⟨henv, hfresh⟩ := Prog.observed_env hx
    refine ⟨trivial, fun j v hv pc hp f hf => ?_⟩
    rw [(env_settings henv).memory]
    rw [hfresh] at hf
    exact hc.2 j v hv pc hp f hf

/-! ## The runs in which every write is in time -/

/-- The file holds the settings in memory, or a handler is still to write it. -/
def FileCurrent (c : Conf (Shared × Fresh) Thread) : Prop :=
  c.shared.1.file = c.shared.1.app.settings ∨ ∃ t ∈ c.pool, t.willSave = true

theorem fileCurrent_step (cfg : Config) (c : Conf (Shared × Fresh) Thread)
    (e : Event Request Choice Env) (c' : Conf (Shared × Fresh) Thread)
    (hgot : Annotated (fun _ => True) GotFresh c) (h : FileCurrent c) (hG : InTime c e)
    (hs : (getting cfg).step c e = some c') : FileCurrent c' := by
  have howed : Owed (fun s => s.1.file = s.1.app.settings) Thread.willSave c := h
  refine howed.step hs (fun i k t s' t' he ht hn => ?_) fun x s' _ hx hfile => ?_
  · subst he
    obtain ⟨hnext, -⟩ := Prog.observed_next hn
    cases next_save hnext with
    | keep hsame hw =>
        cases hsave : t.willSave with
        | true => exact .inl (hw hsave)
        | false =>
            refine .inr (.inr (.inr ⟨hsave, fun hfile => ?_⟩))
            show s'.1.file = s'.1.app.settings
            rw [hsame.file, hsame.memory]
            exact hfile
    | set _ _ hw | get _ _ _ _ _ _ hw => exact .inl hw
    | write saved hp _ hmemory hfile =>
        simp only [InTime, inTime, ht, Option.bind_some, hp, Bool.or_eq_true, Bool.and_eq_true,
          decide_eq_true_eq, List.all_eq_true] at hG
        rcases hG with ⟨⟨hk, he⟩, hfresh⟩ | hothers
        · -- what the handler got is what is in memory
          refine .inr (.inl ?_)
          show s'.1.file = s'.1.app.settings
          rw [hfile hk he, hmemory]
          refine eq_of_all_same fun f => hgot.2 i t ht _ hp f (hfresh f ?_)
          cases f <;> decide
        · -- another handler is still to write
          exact .inr (.inr (.inl hothers))
  · have hsame := env_settings (Prog.observed_env hx).1
    show s'.1.file = s'.1.app.settings
    rw [hsame.file, hsame.memory]
    exact hfile

/-- The thread is a settings or analysis request that has not been answered. -/
def Thread.handling : Thread → Bool
  | .prompt _ (.finished _) | .presets _ (.finished _) | .start (.finished _) => false
  | .stop .finished => false
  | .prompt _ _ | .presets _ _ | .start _ | .stop _ => true
  | _ => false

theorem handling_of_willSave {t : Thread} (h : t.willSave = true) : t.handling = true := by
  cases t with
  | prompt b pc | presets b pc | start pc | stop pc => cases pc <;> first | rfl | cases h
  | _ => cases h

/-- Whenever no handler is in progress the file holds the settings in memory, and a restart
    restores them. -/
theorem file_current (cfg : Config) (saved : Saved) (model : String) (now : ℚ)
    (c : Conf (Shared × Fresh) Thread)
    (h : Steps (getting cfg).step InTime (bootGetting saved model now) c)
    (hquiet : ∀ t ∈ c.pool, t.handling = false) :
    c.shared.1.file = c.shared.1.app.settings ∧
      (boot c.shared.1.file model c.shared.1.now).shared.app.settings =
        c.shared.1.app.settings := by
  have hboot : Annotated (fun _ => True) GotFresh (bootGetting saved model now) :=
    ⟨trivial, fun i t _ pc _ f hf => by cases hf⟩
  have hfile : c.shared.1.file = c.shared.1.app.settings := by
    have howed : Owed (fun s => s.1.file = s.1.app.settings) Thread.willSave c :=
      h.invariant_under (fresh_outline cfg InTime).step (fileCurrent_step cfg) hboot (.inl rfl)
    refine howed.settled fun t ht => ?_
    cases hw : t.willSave with
    | false => rfl
    | true => exact absurd (handling_of_willSave hw) (by simp [hquiet t ht])
  exact ⟨hfile, hfile⟩

/-! ## Executions -/

def askPrompt (text : String) : Event Request Choice Env :=
  .enter (.prompt ⟨pyStr text, pyStr "Fire, smoke"⟩)

/-- Two `/prompt` requests, the second between the first one's setters and its reads. -/
def overlapping : List (Event Request Choice Env) :=
  askPrompt "Look for fire." :: goes 3 3 ++ askPrompt "Look for smoke." :: goes 4 2 ++
    goes 3 6 ++ goes 4 7

/-- The first request has read its five values when the second one runs to its end. -/
def overtaken : List (Event Request Choice Env) :=
  askPrompt "Look for fire." :: goes 3 8 ++ askPrompt "Look for smoke." :: goes 4 9 ++ goes 3 1

abbrev overlappingState : Conf (Shared × Fresh) Thread :=
  exec (guardedStep (getting sampleConfig).step InTime) (bootGetting sampleSaved "vlm" 100)
    overlapping

set_option maxRecDepth 4000 in
theorem file_current_overlapping :
    overlappingState.shared.1.app.inferencePrompt = pyStr "Look for smoke." ∧
    overlappingState.shared.1.file = overlappingState.shared.1.app.settings ∧
    (boot overlappingState.shared.1.file "vlm" overlappingState.shared.1.now).shared.app.settings =
      overlappingState.shared.1.app.settings :=
  ⟨by decide, file_current sampleConfig sampleSaved "vlm" 100 overlappingState
    (Steps.execGuarded (by decide)) (by decide)⟩

set_option maxRecDepth 4000 in
/-- A slow writer replaces the newer file: both handlers have answered, and a restart brings
    back the older prompt. -/
theorem file_overtaken :
    ∃ c, Steps (analyzer sampleConfig).step free (boot sampleSaved "vlm" 100) c ∧
      (∀ t ∈ c.pool, t.handling = false) ∧
      c.shared.app.inferencePrompt = pyStr "Look for smoke." ∧
      c.shared.file.prompt = pyStr "Look for fire." :=
  ⟨exec (analyzer sampleConfig).step (boot sampleSaved "vlm" 100) overtaken,
    Steps.exec (by decide), by decide⟩

end Babycat.Analyzer
