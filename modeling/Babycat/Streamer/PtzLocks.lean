/-
  Babycat.Streamer.PtzLocks

  What the steps of `camera.py` and of the `/ptz` handlers do to the applied
  slot and to the presets and the patrol in memory, and what a thread knows
  while it holds the lock of the profile files.
-/

import Babycat.Streamer.Ptz

namespace Babycat.Streamer

open Babycat.Conc
open Babycat.Recorder (Payload)

-- ============================================================================
-- Steps of `camera.py`
-- ============================================================================

section Retarget

variable (s : PtzState) (target : Option (Option String))

@[simp] theorem retarget_camera : (s.retarget target).camera = s.camera := by
  cases target with
  | none => rfl
  | some ip => cases ip <;> rfl

@[simp] theorem retarget_loop : (s.retarget target).loop = s.loop := by
  cases target with
  | none => rfl
  | some ip => cases ip <;> rfl

@[simp] theorem retarget_poll : (s.retarget target).poll = s.poll := by
  cases target with
  | none => rfl
  | some ip => cases ip <;> rfl

@[simp] theorem retarget_reported : (s.retarget target).reported = s.reported := by
  cases target with
  | none => rfl
  | some ip => cases ip <;> rfl

theorem retarget_current : (s.retarget target).current = s.current ∨
    (s.retarget target).current = none := by
  cases target with
  | none => exact .inl rfl
  | some ip =>
      cases ip with
      | none => exact .inr rfl
      | some ip => exact .inl rfl

end Retarget

/-- What a start that has written the slot is to load. -/
def StreamerThread.loads : StreamerThread → Option Payload
  | .start (.releaseConfig data) | .start (.presets data) => some data
  | _ => none

/-- A start that writes the slot or loads the presets. -/
def StreamerThread.movesPresets : StreamerThread → Bool
  | .start (.write _) | .start (.presets _) => true
  | _ => false

/-- What a step of `camera.py` does to the slot, the presets and the patrol. -/
inductive SlotStep (cfg : StreamerConfig) (s s' : Companion) (t t' : StreamerThread) : Prop
  | keep (applied : s'.applied = s.applied) (presets : s'.presets = s.presets)
      (patrol : s'.patrol = s.patrol) (loads : t'.loads = t.loads)
      (plain : t.movesPresets = false)
  | promote (a : Applied) (ht : t = .start (.write a)) (ht' : t' = .start (.releaseConfig a.presets))
      (hs : s' = { s with applied := a })
  | load (data : Payload) (ht : t = .start (.presets data)) (ht' : t' = .start (.release .ok))
      (hs : s' = { s with presets := loadPresets cfg data })
  | stop (a : Applied) (ht : t = .stop (.write a)) (ht' : t' = .stop .releaseConfig)
      (hs : s' = { s with applied := a })

section Camera

variable {cfg : StreamerConfig} {i : ℕ} {s s' : Companion} {k : CameraChoice}
variable {t t' : StreamerThread}

theorem SlotStep.same (h : s'.applied = s.applied ∧ s'.presets = s.presets ∧ s'.patrol = s.patrol)
    (loads : t'.loads = t.loads) (plain : t.movesPresets = false) : SlotStep cfg s s' t t' :=
  .keep h.1 h.2.1 h.2.2 loads plain

theorem patchSource_slot {source : String} {ok : Bool}
    (h : patchSource s k source = some (s', ok)) :
    s'.applied = s.applied ∧ s'.presets = s.presets ∧ s'.patrol = s.patrol ∧
      s'.configLock = s.configLock := by
  obtain ⟨_, rfl⟩ := patchSource_only h
  exact ⟨rfl, rfl, rfl, rfl⟩

theorem streamerNext_slot (h : streamerNext cfg i s t k = some (s', t')) :
    SlotStep cfg s s' t t' := by
  cases next_handler h with
  | register config pc pc' hb =>
      have hloads : (StreamerThread.register config pc').loads =
          (StreamerThread.register config pc).loads := rfl
      cases pc with
      | acquire p =>
          simp only [registerNext] at hb
          split at hb <;> cases hb
          exact .same ⟨rfl, rfl, rfl⟩ hloads rfl
      | returned o => cases hb
      | _ =>
          cases hb
          exact .same ⟨rfl, rfl, rfl⟩ hloads rfl
  | start pc pc' hb =>
      cases pc with
      | acquire | acquireConfig a =>
          simp only [startNext] at hb
          split at hb <;> cases hb
          exact .same ⟨rfl, rfl, rfl⟩ rfl rfl
      | registered =>
          cases hb
          refine .same ⟨rfl, rfl, rfl⟩ ?_ rfl
          split
          · rfl
          · split <;> rfl
      | patch p a =>
          obtain ⟨ok, hpatch, rfl⟩ := startNext_patch hb
          obtain ⟨happlied, hpresets, hpatrol, -⟩ := patchSource_slot hpatch
          exact .same ⟨happlied, hpresets, hpatrol⟩ (by cases ok <;> rfl) rfl
      | write a =>
          cases hb
          exact .promote a rfl rfl rfl
      | presets data =>
          cases hb
          exact .load data rfl rfl rfl
      | returned o => cases hb
      | _ =>
          cases hb
          exact .same ⟨rfl, rfl, rfl⟩ rfl rfl
  | stop pc pc' hb =>
      cases pc with
      | acquire | acquireConfig =>
          simp only [stopNext] at hb
          split at hb <;> cases hb
          exact .same ⟨rfl, rfl, rfl⟩ rfl rfl
      | write a =>
          cases hb
          exact .stop a rfl rfl rfl
      | patch =>
          obtain ⟨⟨b, ok⟩, hpatch, heq⟩ := Option.map_eq_some_iff.mp hb
          cases heq
          obtain ⟨happlied, hpresets, hpatrol, -⟩ := patchSource_slot hpatch
          exact .same ⟨happlied, hpresets, hpatrol⟩ rfl rfl
      | returned o => cases hb
      | _ =>
          cases hb
          exact .same ⟨rfl, rfl, rfl⟩ rfl rfl
  | restore pc pc' hb =>
      cases pc with
      | spawned =>
          simp only [restoreNext] at hb
          split at hb
          · cases hb
          · split at hb <;> cases hb <;> exact .same ⟨rfl, rfl, rfl⟩ rfl rfl
      | acquire =>
          simp only [restoreNext] at hb
          split at hb <;> cases hb
          exact .same ⟨rfl, rfl, rfl⟩ rfl rfl
      | patch p =>
          obtain ⟨ok, hpatch, rfl⟩ := restoreNext_patch hb
          obtain ⟨happlied, hpresets, hpatrol, -⟩ := patchSource_slot hpatch
          exact .same ⟨happlied, hpresets, hpatrol⟩ rfl rfl
      | returned => cases hb
      | _ =>
          cases hb
          exact .same ⟨rfl, rfl, rfl⟩ rfl rfl

theorem childNext_slot {e : ChildEvent} (h : childNext s e = some s') :
    s'.applied = s.applied ∧ s'.presets = s.presets ∧ s'.patrol = s.patrol ∧
      s'.configLock = s.configLock := by
  cases e <;> simp only [childNext] at h <;> split at h <;> cases h <;> exact ⟨rfl, rfl, rfl, rfl⟩

/-- The thread holds the lock of the profile files. -/
def StreamerThread.insideConfig : StreamerThread → Bool
  | .register _ (.merge _) | .register _ (.write _) | .register _ .release => true
  | .start (.write _) | .start (.releaseConfig _) => true
  | .stop .read | .stop (.write _) | .stop .releaseConfig => true
  | _ => false

/-- A step of `camera.py` outside the lock of the files takes it or leaves it alone. -/
theorem streamerNext_outsideConfig (h : streamerNext cfg i s t k = some (s', t'))
    (hout : t.insideConfig = false) :
    (s'.configLock = s.configLock ∧ t'.insideConfig = false) ∨
      (s.configLock = none ∧ s'.configLock = some i ∧ t'.insideConfig = true) := by
  cases next_handler h with
  | register config pc pc' hb =>
      cases pc with
      | read =>
          cases hb
          refine .inl ⟨rfl, ?_⟩
          split <;> rfl
      | acquire p =>
          simp only [registerNext] at hb
          split at hb <;> cases hb
          exact .inr ⟨‹_›, rfl, rfl⟩
      | returned o => cases hb
      | _ => cases hout
  | start pc pc' hb =>
      cases pc with
      | acquire =>
          simp only [startNext] at hb
          split at hb <;> cases hb
          exact .inl ⟨rfl, rfl⟩
      | acquireConfig a =>
          simp only [startNext] at hb
          split at hb <;> cases hb
          exact .inr ⟨‹_›, rfl, rfl⟩
      | registered =>
          cases hb
          refine .inl ⟨rfl, ?_⟩
          split
          · rfl
          · split <;> rfl
      | patch p a =>
          obtain ⟨ok, hpatch, rfl⟩ := startNext_patch hb
          exact .inl ⟨(patchSource_slot hpatch).2.2.2, by cases ok <;> rfl⟩
      | write a | releaseConfig presets => cases hout
      | returned o => cases hb
      | _ =>
          cases hb
          exact .inl ⟨rfl, rfl⟩
  | stop pc pc' hb =>
      cases pc with
      | acquire =>
          simp only [stopNext] at hb
          split at hb <;> cases hb
          exact .inl ⟨rfl, rfl⟩
      | acquireConfig =>
          simp only [stopNext] at hb
          split at hb <;> cases hb
          exact .inr ⟨‹_›, rfl, rfl⟩
      | patch =>
          obtain ⟨⟨b, ok⟩, hpatch, heq⟩ := Option.map_eq_some_iff.mp hb
          cases heq
          exact .inl ⟨(patchSource_slot hpatch).2.2.2, rfl⟩
      | clear | release o =>
          cases hb
          exact .inl ⟨rfl, rfl⟩
      | returned o => cases hb
      | _ => cases hout
  | restore pc pc' hb =>
      cases pc with
      | spawned =>
          simp only [restoreNext] at hb
          split at hb
          · cases hb
          · split at hb <;> cases hb <;> exact .inl ⟨rfl, rfl⟩
      | acquire =>
          simp only [restoreNext] at hb
          split at hb <;> cases hb
          exact .inl ⟨rfl, rfl⟩
      | patch p =>
          obtain ⟨ok, hpatch, rfl⟩ := restoreNext_patch hb
          exact .inl ⟨(patchSource_slot hpatch).2.2.2, rfl⟩
      | returned => cases hb
      | _ =>
          cases hb
          exact .inl ⟨rfl, rfl⟩

/-- Inside it, the step keeps the lock or gives it back. -/
theorem streamerNext_withinConfig (h : streamerNext cfg i s t k = some (s', t'))
    (hin : t.insideConfig = true) :
    (s'.configLock = s.configLock ∧ t'.insideConfig = true) ∨
      (s'.configLock = none ∧ t'.insideConfig = false) := by
  cases next_handler h with
  | register config pc pc' hb =>
      cases pc with
      | merge p | write d =>
          cases hb
          exact .inl ⟨rfl, rfl⟩
      | release =>
          cases hb
          exact .inr ⟨rfl, rfl⟩
      | _ => cases hin
  | start pc pc' hb =>
      cases pc with
      | write a =>
          cases hb
          exact .inl ⟨rfl, rfl⟩
      | releaseConfig presets =>
          cases hb
          exact .inr ⟨rfl, rfl⟩
      | _ => cases hin
  | stop pc pc' hb =>
      cases pc with
      | read | write a =>
          cases hb
          exact .inl ⟨rfl, rfl⟩
      | releaseConfig =>
          cases hb
          exact .inr ⟨rfl, rfl⟩
      | _ => cases hin
  | restore pc pc' hb => cases hin

end Camera

-- ============================================================================
-- The lock of the files
-- ============================================================================

/-- A step of a thread is a step of its handler. -/
inductive PtzStep (cfg : StreamerConfig) (i : ℕ) (s : PtzState) (k : CameraChoice)
    (s' : PtzState) : PtzThread → PtzThread → Prop
  | camera (t t' : StreamerThread) (camera : Companion)
      (h : streamerNext cfg i s.camera t k = some (camera, t'))
      (hs : s' = { s with camera := camera }.retarget (retargets cfg.repr t)) :
      PtzStep cfg i s k s' (.camera t) (.camera t')
  | save (slot : ℤ) (pc pc' : SavePc) (h : saveNext slot i s k pc = some (s', pc')) :
      PtzStep cfg i s k s' (.save slot pc) (.save slot pc')
  | patrol (enabled : Bool) (interval : Option ℤ) (pc pc' : PatrolPc)
      (h : patrolNext enabled interval i s k pc = some (s', pc')) :
      PtzStep cfg i s k s' (.patrol enabled interval pc) (.patrol enabled interval pc')

def SavePc.insideConfig : SavePc → Bool
  | .merge _ | .write _ _ | .release _ => true
  | _ => false

def PatrolPc.insideConfig : PatrolPc → Bool
  | .merge _ | .write _ _ | .release _ => true
  | _ => false

def PtzThread.insideConfig : PtzThread → Bool
  | .camera t => t.insideConfig
  | .save _ pc => pc.insideConfig
  | .patrol _ _ pc => pc.insideConfig

/-- What a thread knows of the slot while it holds the lock of the files. -/
def ConfigHeld (_ : ℕ) (s : PtzState) : PtzThread → Prop
  | .camera (.stop (.write a)) => a = s.camera.applied.stopped
  | .save _ (.write m a) => a = { s.camera.applied with presets := dumpPresets m }
  | .patrol _ _ (.write p a) => a = { s.camera.applied with patrol := p }
  | _ => True

/-- Two patrol mappings with the same setting. -/
def SamePatrol (p q : Payload) : Prop :=
  p.get "enabled" = q.get "enabled" ∧ p.get "interval_s" = q.get "interval_s"

section Locks

variable {cfg : StreamerConfig} {i : ℕ} {s s' : PtzState} {k : CameraChoice}
variable {t t' : PtzThread}

theorem ptzNext_step (h : ptzNext cfg i s t k = some (s', t')) : PtzStep cfg i s k s' t t' := by
  cases t with
  | camera t =>
      obtain ⟨r, hr, heq⟩ := Option.map_eq_some_iff.mp h
      cases heq
      exact .camera t r.2 r.1 hr rfl
  | save slot pc =>
      obtain ⟨r, hr, heq⟩ := Option.map_eq_some_iff.mp h
      cases heq
      exact .save slot pc r.2 hr
  | patrol enabled interval pc =>
      obtain ⟨r, hr, heq⟩ := Option.map_eq_some_iff.mp h
      cases heq
      exact .patrol enabled interval pc r.2 hr

/-- A save outside the lock of the files takes it or leaves lock and slot alone. -/
theorem saveNext_outsideConfig {slot : ℤ} {pc pc' : SavePc}
    (h : saveNext slot i s k pc = some (s', pc')) (hout : pc.insideConfig = false) :
    s'.camera.applied = s.camera.applied ∧
      ((s'.camera.configLock = s.camera.configLock ∧ pc'.insideConfig = false) ∨
        (s.camera.configLock = none ∧ s'.camera.configLock = some i ∧
          ∃ m, pc' = .merge m)) := by
  cases pc with
  | enter =>
      simp only [saveNext] at h
      split at h <;> cases h
      exact ⟨rfl, .inl ⟨rfl, rfl⟩⟩
  | read =>
      cases h
      refine ⟨rfl, .inl ⟨rfl, ?_⟩⟩
      split
      · split <;> rfl
      · rfl
  | acquire m =>
      simp only [saveNext] at h
      split at h <;> cases h
      exact ⟨rfl, .inr ⟨‹_›, rfl, m, rfl⟩⟩
  | store p | finish o =>
      cases h
      exact ⟨rfl, .inl ⟨rfl, rfl⟩⟩
  | answered o => cases h
  | _ => cases hout

theorem saveNext_withinConfig {slot : ℤ} {pc pc' : SavePc}
    (h : saveNext slot i s k pc = some (s', pc')) (hin : pc.insideConfig = true) :
    ((s'.camera.configLock = s.camera.configLock ∧ pc'.insideConfig = true) ∨
      (s'.camera.configLock = none ∧ pc'.insideConfig = false)) ∧
      ∀ m a, pc' = .write m a → s' = s ∧ a = { s.camera.applied with presets := dumpPresets m } := by
  cases pc with
  | merge m =>
      cases h
      refine ⟨.inl ⟨rfl, rfl⟩, fun _ _ heq => ?_⟩
      cases heq
      exact ⟨rfl, rfl⟩
  | write m a =>
      simp only [saveNext] at h
      split at h <;> cases h <;> exact ⟨.inl ⟨rfl, rfl⟩, fun _ _ heq => by cases heq⟩
  | release o =>
      cases h
      exact ⟨.inr ⟨rfl, rfl⟩, fun _ _ heq => by cases heq⟩
  | _ => cases hin

/-- A patrol request outside the lock of the files takes it or leaves lock and slot alone. -/
theorem patrolNext_outsideConfig {enabled : Bool} {interval : Option ℤ} {pc pc' : PatrolPc}
    (h : patrolNext enabled interval i s k pc = some (s', pc')) (hout : pc.insideConfig = false) :
    s'.camera.applied = s.camera.applied ∧
      ((s'.camera.configLock = s.camera.configLock ∧ pc'.insideConfig = false) ∨
        (s.camera.configLock = none ∧ s'.camera.configLock = some i ∧
          ∃ p, pc' = .merge p)) := by
  cases pc with
  | enter =>
      simp only [patrolNext] at h
      split at h <;> cases h
      exact ⟨rfl, .inl ⟨rfl, rfl⟩⟩
  | set =>
      cases h
      refine ⟨rfl, .inl ⟨rfl, ?_⟩⟩
      split <;> rfl
  | acquire p =>
      simp only [patrolNext] at h
      split at h <;> cases h
      exact ⟨rfl, .inr ⟨‹_›, rfl, p, rfl⟩⟩
  | home | point slot | read | finish o =>
      cases h
      exact ⟨rfl, .inl ⟨rfl, rfl⟩⟩
  | answered o => cases h
  | _ => cases hout

theorem patrolNext_withinConfig {enabled : Bool} {interval : Option ℤ} {pc pc' : PatrolPc}
    (h : patrolNext enabled interval i s k pc = some (s', pc')) (hin : pc.insideConfig = true) :
    ((s'.camera.configLock = s.camera.configLock ∧ pc'.insideConfig = true) ∨
      (s'.camera.configLock = none ∧ pc'.insideConfig = false)) ∧
      ∀ p a, pc' = .write p a → s' = s ∧ a = { s.camera.applied with patrol := p } := by
  cases pc with
  | merge p =>
      cases h
      refine ⟨.inl ⟨rfl, rfl⟩, fun _ _ heq => ?_⟩
      cases heq
      exact ⟨rfl, rfl⟩
  | write p a =>
      simp only [patrolNext] at h
      split at h <;> cases h <;> exact ⟨.inl ⟨rfl, rfl⟩, fun _ _ heq => by cases heq⟩
  | release o =>
      cases h
      exact ⟨.inr ⟨rfl, rfl⟩, fun _ _ heq => by cases heq⟩
  | _ => cases hin

theorem ptzEnv_config {e : PtzEnv} (h : ptzEnv cfg s e = some s') :
    s'.camera.applied = s.camera.applied ∧ s'.camera.presets = s.camera.presets ∧
      s'.camera.configLock = s.camera.configLock ∧ s'.loop = s.loop := by
  cases e with
  | child e =>
      obtain ⟨camera, hcamera, rfl⟩ := Option.map_eq_some_iff.mp h
      obtain ⟨happlied, hpresets, -, hlock⟩ := childNext_slot hcamera
      exact ⟨happlied, hpresets, hlock, rfl⟩
  | patrolAt slot =>
      cases h
      exact ⟨rfl, rfl, rfl, rfl⟩
  | ask | answer pan tilt | fail | store =>
      simp only [ptzEnv] at h
      split at h <;> cases h
      exact ⟨rfl, rfl, rfl, rfl⟩

theorem config_mutex (cfg : StreamerConfig) :
    Mutex (ptz cfg) (fun s => s.camera.configLock) PtzThread.insideConfig where
  enter r := by
    cases r with
    | camera r => cases r <;> rfl
    | _ => rfl
  outside h hout := by
    cases ptzNext_step h with
    | camera t t' camera hc hs =>
        subst hs
        simp only [retarget_camera]
        exact streamerNext_outsideConfig hc hout
    | save slot pc pc' hc =>
        rcases (saveNext_outsideConfig hc hout).2 with hsame | ⟨hfree, hlock, m, rfl⟩
        · exact .inl hsame
        · exact .inr ⟨hfree, hlock, rfl⟩
    | patrol enabled interval pc pc' hc =>
        rcases (patrolNext_outsideConfig hc hout).2 with hsame | ⟨hfree, hlock, p, rfl⟩
        · exact .inl hsame
        · exact .inr ⟨hfree, hlock, rfl⟩
  within h hin := by
    cases ptzNext_step h with
    | camera t t' camera hc hs =>
        subst hs
        simp only [retarget_camera]
        exact streamerNext_withinConfig hc hin
    | save slot pc pc' hc => exact (saveNext_withinConfig hc hin).1
    | patrol enabled interval pc pc' hc => exact (patrolNext_withinConfig hc hin).1
  env h := (ptzEnv_config h).2.2.1

/-- Outside the lock of the files a step leaves the slot alone. -/
theorem ptzNext_applied (h : ptzNext cfg i s t k = some (s', t')) (hout : t.insideConfig = false) :
    s'.camera.applied = s.camera.applied := by
  cases ptzNext_step h with
  | camera t t' camera hc hs =>
      subst hs
      rw [retarget_camera]
      cases streamerNext_slot hc with
      | keep happlied => exact happlied
      | promote a ht | stop a ht =>
          subst ht
          cases hout
      | load data ht ht' hs =>
          subst hs
          rfl
  | save slot pc pc' hc => exact (saveNext_outsideConfig hc hout).1
  | patrol enabled interval pc pc' hc => exact (patrolNext_outsideConfig hc hout).1

/-- What a thread knows after a step depends on the step before: it has just read the slot. -/
theorem ptzNext_configHeld (h : ptzNext cfg i s t k = some (s', t')) : ConfigHeld i s' t' := by
  cases ptzNext_step h with
  | camera t t' camera hc hs =>
      subst hs
      cases next_handler hc with
      | stop pc pc' hb =>
          cases pc with
          | acquire | acquireConfig =>
              simp only [stopNext] at hb
              split at hb <;> cases hb
              trivial
          | patch =>
              obtain ⟨r, -, heq⟩ := Option.map_eq_some_iff.mp hb
              cases heq
              trivial
          | returned o => cases hb
          | _ =>
              cases hb
              trivial
      | register config pc pc' hb | start pc pc' hb | restore pc pc' hb => trivial
  | save slot pc pc' hc =>
      cases hin : pc.insideConfig with
      | false =>
          rcases (saveNext_outsideConfig hc hin).2 with ⟨-, hout⟩ | ⟨-, -, m, rfl⟩
          · cases pc' <;> trivial
          · trivial
      | true =>
          have hwrite := (saveNext_withinConfig hc hin).2
          cases pc' with
          | write m a =>
              obtain ⟨rfl, ha⟩ := hwrite m a rfl
              exact ha
          | _ => trivial
  | patrol enabled interval pc pc' hc =>
      cases hin : pc.insideConfig with
      | false =>
          rcases (patrolNext_outsideConfig hc hin).2 with ⟨-, hout⟩ | ⟨-, -, p, rfl⟩
          · cases pc' <;> trivial
          · trivial
      | true =>
          have hwrite := (patrolNext_withinConfig hc hin).2
          cases pc' with
          | write p a =>
              obtain ⟨rfl, ha⟩ := hwrite p a rfl
              exact ha
          | _ => trivial

theorem ConfigHeld.of_applied {j : ℕ} (h : ConfigHeld j s t)
    (happlied : s'.camera.applied = s.camera.applied) : ConfigHeld j s' t := by
  unfold ConfigHeld at h ⊢
  rw [happlied]
  exact h

/-- The proof outline of the lock of the files. -/
theorem config_outline (cfg : StreamerConfig)
    (G : Conf PtzState PtzThread → Event PtzRequest CameraChoice PtzEnv → Prop) :
    OwickiGries (ptz cfg) G (fun _ => True)
      (Mutex.Holds (fun s => s.camera.configLock) PtzThread.insideConfig ConfigHeld) := by
  refine (config_mutex cfg).owickiGries
    (Q := fun s s' => s'.camera.applied = s.camera.applied) ?_ ?_ ?_ (fun _ _ _ _ => trivial) ?_
  · intro c x s' _ hx
    exact (ptzEnv_config hx).1
  · intro c i k t s' t' _ _ _ hn hout
    exact ⟨ptzNext_applied hn hout, fun _ => ptzNext_configHeld hn⟩
  · intro c i k t s' t' _ _ _ _ hn _
    exact ⟨trivial, fun _ => ptzNext_configHeld hn⟩
  · intro i s s' t happlied _ _ hheld
    exact hheld.of_applied happlied

end Locks

end Babycat.Streamer
