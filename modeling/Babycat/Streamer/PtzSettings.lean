/-
  Babycat.Streamer.PtzSettings

  The PTZ settings in memory and in the applied slot (FR-018, FR-052).

  A `/ptz` handler changes the memory and then merges into the slot, under the
  lock of the files; a start reads the slot at its beginning, waits for MediaMTX
  and overwrites the slot as a whole, before it loads the presets it has kept.
  `Crossings` is bookkeeping the code does not have: which starts and requests
  another one has crossed between their two ends.  `Settles` is the guard of the
  runs in which none of them writes or loads what it has from before a crossing,
  and no write fails; these leave slot and memory equal.
-/

import Babycat.Conc.Pending
import Babycat.Streamer.PtzValues
import Babycat.Streamer.SourceFlag

namespace Babycat.Streamer

open Babycat.Conc
open Babycat.Recorder (Json Payload PyFloat)

-- ============================================================================
-- Who is still to save
-- ============================================================================

/-- The handler has changed the patrol and is to save it. -/
def PatrolPc.unsaved : PatrolPc → Bool
  | .home | .point _ | .read | .acquire _ | .merge _ | .write _ _ => true
  | _ => false

/-- The presets that a save has taken from memory and is to write. -/
def SavePc.snapshot : SavePc → Option Presets
  | .acquire m | .merge m | .write m _ => some m
  | _ => none

def PtzThread.toSavePatrol : PtzThread → Bool
  | .patrol _ _ pc => pc.unsaved
  | _ => false

def PtzThread.snapshot : PtzThread → Option Presets
  | .save _ pc => pc.snapshot
  | _ => none

/-- What a start that has written the slot is to load. -/
def PtzThread.loads : PtzThread → Option Payload
  | .camera t => t.loads
  | _ => none

/-- A start that has written the slot and is to load the presets. -/
def PtzThread.toLoad (t : PtzThread) : Bool := t.loads.isSome

/-- The thread is still to bring presets from the memory to the slot, or back. -/
def PtzThread.toSavePresets (t : PtzThread) : Bool := t.snapshot.isSome || t.toLoad

/-- The patrol that a start has read from the slot, or is to write to it. -/
def PtzThread.readPatrol : PtzThread → Option Payload
  | .camera (.start (.patch _ a)) | .camera (.start (.configure _ a)) => some a.patrol
  | .camera (.start (.collect _ a)) => some a.patrol
  | .camera (.start (.acquireConfig a)) | .camera (.start (.write a)) => some a.patrol
  | _ => none

/-- A restart loads the patrol setting that is in memory. -/
def PatrolAgrees (cfg : StreamerConfig) (s : PtzState) : Prop :=
  patrolSetting cfg s.camera.applied.patrol = patrolSetting cfg s.camera.patrol

/-- The patrol setting in memory is that of `p`. -/
def SettingIs (cfg : StreamerConfig) (p : Payload) (s : PtzState) : Prop :=
  patrolSetting cfg p = patrolSetting cfg s.camera.patrol

def SamePresets (m m' : Presets) : Prop :=
  ∀ slot ∈ ([1, 2, 3, 4] : List ℤ), m.lookup slot = m'.lookup slot

/-- A restart loads the presets that are in memory. -/
def PresetsAgree (cfg : StreamerConfig) (s : PtzState) : Prop :=
  SamePresets (loadPresets cfg s.camera.applied.presets) s.camera.presets

-- ============================================================================
-- Crossings
-- ============================================================================

/-- Which starts and requests, by their threads, another one has crossed. -/
structure Crossings where
  /-- A patrol request has set or saved the patrol since this start read the slot. -/
  patrol : ℕ → Bool
  /-- A save-preset request has written the slot since this start did. -/
  saved : ℕ → Bool
  /-- A start has loaded presets since this save-preset request changed the memory. -/
  loaded : ℕ → Bool

/-- What a step of thread `i` does to the bookkeeping. -/
def recordCrossings (i : ℕ) (t : PtzThread) (k : CameraChoice) (x : Crossings) : Crossings :=
  match t with
  | .camera (.start (.applied _)) => { x with patrol := Function.update x.patrol i false }
  | .camera (.start (.write _)) => { x with saved := Function.update x.saved i false }
  | .camera (.start (.presets _)) => { x with loaded := fun _ => true }
  | .save _ (.store _) => { x with loaded := Function.update x.loaded i false }
  | .save _ (.write _ _) => if k = .refused then x else { x with saved := fun _ => true }
  | .patrol _ _ .set | .patrol _ _ (.write _ _) => { x with patrol := fun _ => true }
  | _ => x

/-- The companion process with the bookkeeping. -/
def crossing (cfg : StreamerConfig) :
    Prog (PtzState × Crossings) PtzThread PtzRequest CameraChoice PtzEnv :=
  (ptz cfg).recorded (fun i _ t k x => recordCrossings i t k x) fun _ _ x => x

/-- The start of the process, before anything has crossed. -/
def crossingStart (cfg : StreamerConfig) (registered : Option Payload) (applied : Applied) :
    Conf (PtzState × Crossings) PtzThread where
  shared := ((ptzStart cfg registered applied []).shared,
    { patrol := fun _ => false, saved := fun _ => false, loaded := fun _ => false })
  pool := []

/-- A start writes the slot when no patrol request has crossed it since it read the slot, or while
    one is still to save; it loads its presets when no save has written the slot since it did.  A
    save writes its presets when no start has loaded any since it changed the memory.  The writes
    do not fail, but that of a save while a start is still to load. -/
def settles (c : Conf (PtzState × Crossings) PtzThread) :
    Event PtzRequest CameraChoice PtzEnv → Bool
  | .sched i k =>
      let crossings := c.shared.2
      let others := c.pool.eraseIdx i
      match c.pool[i]? with
      | some (.camera (.start (.write _))) =>
          !crossings.patrol i || others.any PtzThread.toSavePatrol
      | some (.camera (.start (.presets _))) => !crossings.saved i
      | some (.save _ (.write _ _)) =>
          if k = .refused then others.any PtzThread.toLoad else !crossings.loaded i
      | some (.patrol _ _ (.write _ _)) => k != .refused
      | _ => true
  | _ => true

def Settles (c : Conf (PtzState × Crossings) PtzThread)
    (e : Event PtzRequest CameraChoice PtzEnv) : Prop :=
  settles c e = true

instance (c : Conf (PtzState × Crossings) PtzThread)
    (e : Event PtzRequest CameraChoice PtzEnv) : Decidable (Settles c e) :=
  inferInstanceAs (Decidable (_ = true))

section Record

variable {i j : ℕ} {t : PtzThread} {k : CameraChoice} {x : Crossings}

/-- Only the read of the slot begins a stretch without a crossing of the patrol. -/
theorem patrol_uncrossed (h : (recordCrossings i t k x).patrol j = false) :
    x.patrol j = false ∨ (j = i ∧ ∃ p, t = .camera (.start (.applied p))) := by
  unfold recordCrossings at h
  split at h
  · by_cases hji : j = i
    · exact .inr ⟨hji, _, rfl⟩
    · exact .inl ((Function.update_of_ne hji _ _).symm.trans h)
  · exact .inl h
  · exact .inl h
  · exact .inl h
  · split at h <;> exact .inl h
  · cases h
  · cases h
  · exact .inl h

/-- Only the write of the slot begins a stretch without a save. -/
theorem saved_uncrossed (h : (recordCrossings i t k x).saved j = false) :
    x.saved j = false ∨ (j = i ∧ ∃ a, t = .camera (.start (.write a))) := by
  unfold recordCrossings at h
  split at h
  · exact .inl h
  · by_cases hji : j = i
    · exact .inr ⟨hji, _, rfl⟩
    · exact .inl ((Function.update_of_ne hji _ _).symm.trans h)
  · exact .inl h
  · exact .inl h
  · split at h
    · exact .inl h
    · cases h
  · exact .inl h
  · exact .inl h
  · exact .inl h

/-- Only the change of the memory begins a stretch without a load. -/
theorem loaded_uncrossed (h : (recordCrossings i t k x).loaded j = false) :
    x.loaded j = false ∨ (j = i ∧ ∃ slot p, t = .save slot (.store p)) := by
  unfold recordCrossings at h
  split at h
  · exact .inl h
  · exact .inl h
  · cases h
  · by_cases hji : j = i
    · exact .inr ⟨hji, _, _, rfl⟩
    · exact .inl ((Function.update_of_ne hji _ _).symm.trans h)
  · split at h <;> exact .inl h
  · exact .inl h
  · exact .inl h
  · exact .inl h

end Record

-- ============================================================================
-- The event loop
-- ============================================================================

/-- The handler runs on the event loop. -/
def PtzThread.onLoop : PtzThread → Bool
  | .camera _ => false
  | .save _ .enter | .save _ (.answered _) => false
  | .patrol _ _ .enter | .patrol _ _ (.answered _) => false
  | _ => true

/-- What a patrol request knows while it runs: nobody else changes the setting. -/
def LoopHeld (_ : ℕ) (s : PtzState) : PtzThread → Prop
  | .patrol _ _ (.acquire p) | .patrol _ _ (.merge p) | .patrol _ _ (.write p _) =>
      SamePatrol p s.camera.patrol
  | _ => True

section Loop

variable {cfg : StreamerConfig} {i : ℕ} {s s' : PtzState} {k : CameraChoice}
variable {t t' : PtzThread}

theorem SamePatrol.refl (p : Payload) : SamePatrol p p := ⟨rfl, rfl⟩

theorem SamePatrol.trans {p q r : Payload} (h : SamePatrol p q) (h' : SamePatrol q r) :
    SamePatrol p r :=
  ⟨h.1.trans h'.1, h.2.trans h'.2⟩

theorem SamePatrol.symm {p q : Payload} (h : SamePatrol p q) : SamePatrol q p :=
  ⟨h.1.symm, h.2.symm⟩

/-- A save leaves the patrol alone, and runs on the event loop from its beginning to its end. -/
theorem saveNext_loop {slot : ℤ} {pc pc' : SavePc} (h : saveNext slot i s k pc = some (s', pc')) :
    s'.camera.patrol = s.camera.patrol ∧
      ((s.loop = none ∧ s'.loop = some i ∧ (PtzThread.save slot pc).onLoop = false ∧
          (PtzThread.save slot pc').onLoop = true) ∨
        (s'.loop = s.loop ∧ (PtzThread.save slot pc).onLoop = true ∧
          (PtzThread.save slot pc').onLoop = true) ∨
        (s'.loop = none ∧ (PtzThread.save slot pc).onLoop = true ∧
          (PtzThread.save slot pc').onLoop = false)) := by
  cases pc with
  | enter =>
      simp only [saveNext] at h
      split at h <;> cases h
      exact ⟨rfl, .inl ⟨‹_›, rfl, rfl, rfl⟩⟩
  | read =>
      cases h
      refine ⟨rfl, .inr (.inl ⟨rfl, rfl, ?_⟩)⟩
      split
      · split <;> rfl
      · rfl
  | acquire m | write m a =>
      simp only [saveNext] at h
      split at h <;> cases h <;> exact ⟨rfl, .inr (.inl ⟨rfl, rfl, rfl⟩)⟩
  | store p | merge m | release o =>
      cases h
      exact ⟨rfl, .inr (.inl ⟨rfl, rfl, rfl⟩)⟩
  | finish o =>
      cases h
      exact ⟨rfl, .inr (.inr ⟨rfl, rfl, rfl⟩)⟩
  | answered o => cases h

theorem patrolNext_loop {enabled : Bool} {interval : Option ℤ} {pc pc' : PatrolPc}
    (h : patrolNext enabled interval i s k pc = some (s', pc')) :
    (s.loop = none ∧ s'.loop = some i ∧ pc = .enter ∧ pc' = .set ∧
        s'.camera.patrol = s.camera.patrol) ∨
      (s'.loop = s.loop ∧ (PtzThread.patrol enabled interval pc).onLoop = true ∧
        (PtzThread.patrol enabled interval pc').onLoop = true ∧
        (LoopHeld i s (.patrol enabled interval pc) →
          LoopHeld i s' (.patrol enabled interval pc'))) ∨
      (s'.loop = none ∧ (PtzThread.patrol enabled interval pc).onLoop = true ∧
        ∃ o, pc' = .answered o) := by
  cases pc with
  | enter =>
      simp only [patrolNext] at h
      split at h <;> cases h
      exact .inl ⟨‹_›, rfl, rfl, rfl, rfl⟩
  | set =>
      cases h
      refine .inr (.inl ⟨rfl, rfl, ?_, fun _ => ?_⟩) <;> split <;> trivial
  | read =>
      cases h
      exact .inr (.inl ⟨rfl, rfl, rfl, fun _ => SamePatrol.refl _⟩)
  | acquire p =>
      simp only [patrolNext] at h
      split at h <;> cases h
      exact .inr (.inl ⟨rfl, rfl, rfl, fun hheld => hheld⟩)
  | merge p =>
      cases h
      exact .inr (.inl ⟨rfl, rfl, rfl, fun hheld => hheld⟩)
  | write p a =>
      simp only [patrolNext] at h
      split at h <;> cases h <;> exact .inr (.inl ⟨rfl, rfl, rfl, fun _ => trivial⟩)
  | home | point slot | release o =>
      cases h
      exact .inr (.inl ⟨rfl, rfl, rfl, fun _ => trivial⟩)
  | finish o =>
      cases h
      exact .inr (.inr ⟨rfl, rfl, o, rfl⟩)
  | answered o => cases h

theorem streamerNext_patrol {t t' : StreamerThread} {camera camera' : Companion}
    (h : streamerNext cfg i camera t k = some (camera', t')) : camera'.patrol = camera.patrol := by
  cases streamerNext_slot h with
  | keep _ _ hpatrol => exact hpatrol
  | promote a ht ht' hs | stop a ht ht' hs | load data ht ht' hs =>
      subst hs
      rfl

theorem ptzEnv_patrol {e : PtzEnv} (h : ptzEnv cfg s e = some s') :
    SamePatrol s'.camera.patrol s.camera.patrol := by
  cases e with
  | child e =>
      obtain ⟨camera, hcamera, rfl⟩ := Option.map_eq_some_iff.mp h
      obtain ⟨-, -, hpatrol, -⟩ := childNext_slot hcamera
      rw [hpatrol]
      exact .refl _
  | patrolAt slot =>
      cases h
      exact setPatrolSlot_same _ _
  | ask | answer pan tilt | fail | store =>
      simp only [ptzEnv] at h
      split at h <;> cases h
      exact .refl _

theorem loop_mutex (cfg : StreamerConfig) : Mutex (ptz cfg) PtzState.loop PtzThread.onLoop where
  enter r := by cases r <;> rfl
  outside h hout := by
    cases ptzNext_step h with
    | camera t t' camera hc hs =>
        subst hs
        exact .inl ⟨retarget_loop _ _, rfl⟩
    | save slot pc pc' hc =>
        rcases (saveNext_loop hc).2 with ⟨hfree, hlock, -, hin⟩ | ⟨-, hin, -⟩ | ⟨-, hin, -⟩
        · exact .inr ⟨hfree, hlock, hin⟩
        · rw [hin] at hout
          cases hout
        · rw [hin] at hout
          cases hout
    | patrol enabled interval pc pc' hc =>
        rcases patrolNext_loop hc with ⟨hfree, hlock, -, rfl, -⟩ | ⟨-, hin, -⟩ | ⟨-, hin, -⟩
        · exact .inr ⟨hfree, hlock, rfl⟩
        · rw [hin] at hout
          cases hout
        · rw [hin] at hout
          cases hout
  within h hin := by
    cases ptzNext_step h with
    | camera t t' camera hc hs => cases hin
    | save slot pc pc' hc =>
        rcases (saveNext_loop hc).2 with ⟨-, -, hout, -⟩ | ⟨hlock, -, hin'⟩ | ⟨hlock, -, hout⟩
        · rw [hout] at hin
          cases hin
        · exact .inl ⟨hlock, hin'⟩
        · exact .inr ⟨hlock, hout⟩
    | patrol enabled interval pc pc' hc =>
        rcases patrolNext_loop hc with ⟨-, -, rfl, -⟩ | ⟨hlock, -, hin', -⟩ | ⟨hlock, -, o, rfl⟩
        · cases hin
        · exact .inl ⟨hlock, hin'⟩
        · exact .inr ⟨hlock, rfl⟩
  env h := (ptzEnv_config h).2.2.2

theorem LoopHeld.of_same {j : ℕ} (h : LoopHeld j s t)
    (hsame : SamePatrol s'.camera.patrol s.camera.patrol) : LoopHeld j s' t := by
  cases t with
  | patrol enabled interval pc =>
      cases pc with
      | acquire p | merge p | write p a => exact SamePatrol.trans h hsame.symm
      | _ => trivial
  | _ => trivial

/-- The proof outline of the event loop. -/
theorem loop_outline (cfg : StreamerConfig)
    (G : Conf PtzState PtzThread → Event PtzRequest CameraChoice PtzEnv → Prop) :
    OwickiGries (ptz cfg) G (fun _ => True)
      (Mutex.Holds PtzState.loop PtzThread.onLoop LoopHeld) := by
  refine (loop_mutex cfg).owickiGries
    (Q := fun s s' => SamePatrol s'.camera.patrol s.camera.patrol) ?_ ?_ ?_
    (fun _ _ _ _ => trivial) ?_
  · intro c x s' _ hx
    exact ptzEnv_patrol hx
  · intro c i k t s' t' _ _ _ hn hout
    cases ptzNext_step hn with
    | camera t t' camera hc hs =>
        subst hs
        rw [retarget_camera, streamerNext_patrol hc]
        exact ⟨.refl _, fun _ => trivial⟩
    | save slot pc pc' hc =>
        rw [(saveNext_loop hc).1]
        exact ⟨.refl _, fun _ => trivial⟩
    | patrol enabled interval pc pc' hc =>
        rcases patrolNext_loop hc with ⟨-, -, -, rfl, hpatrol⟩ | ⟨-, hin, -⟩ | ⟨-, hin, -⟩
        · rw [hpatrol]
          exact ⟨.refl _, fun _ => trivial⟩
        · rw [hin] at hout
          cases hout
        · rw [hin] at hout
          cases hout
  · intro c i k t s' t' _ hB _ _ hn hin
    refine ⟨trivial, fun _ => ?_⟩
    cases ptzNext_step hn with
    | camera t t' camera hc hs => trivial
    | save slot pc pc' hc => trivial
    | patrol enabled interval pc pc' hc =>
        rcases patrolNext_loop hc with ⟨-, -, -, rfl, -⟩ | ⟨-, -, -, hheld⟩ | ⟨-, -, o, rfl⟩
        · trivial
        · exact hheld hB
        · trivial
  · intro i s s' t hsame _ _ hheld
    exact hheld.of_same hsame

end Loop

-- ============================================================================
-- The runtime lock
-- ============================================================================

def PtzThread.insideRuntime : PtzThread → Bool
  | .camera t => t.inside
  | _ => false

section Runtime

variable {cfg : StreamerConfig} {i : ℕ} {s s' : PtzState} {k : CameraChoice}

/-- A save leaves the runtime lock and the polls alone. -/
theorem saveNext_frame {slot : ℤ} {pc pc' : SavePc} (h : saveNext slot i s k pc = some (s', pc')) :
    s'.camera.runtimeLock = s.camera.runtimeLock ∧ s'.reported = s.reported ∧ s'.poll = s.poll ∧
      s'.current = s.current := by
  cases pc with
  | enter | acquire m | write m a =>
      simp only [saveNext] at h
      split at h <;> cases h <;> exact ⟨rfl, rfl, rfl, rfl⟩
  | answered o => cases h
  | _ =>
      cases h
      exact ⟨rfl, rfl, rfl, rfl⟩

theorem patrolNext_frame {enabled : Bool} {interval : Option ℤ} {pc pc' : PatrolPc}
    (h : patrolNext enabled interval i s k pc = some (s', pc')) :
    s'.camera.runtimeLock = s.camera.runtimeLock ∧ s'.reported = s.reported ∧ s'.poll = s.poll ∧
      s'.current = s.current := by
  cases pc with
  | enter | acquire p | write p a =>
      simp only [patrolNext] at h
      split at h <;> cases h <;> exact ⟨rfl, rfl, rfl, rfl⟩
  | answered o => cases h
  | _ =>
      cases h
      exact ⟨rfl, rfl, rfl, rfl⟩

theorem ptzEnv_runtimeLock {e : PtzEnv} (h : ptzEnv cfg s e = some s') :
    s'.camera.runtimeLock = s.camera.runtimeLock := by
  cases e with
  | child e =>
      obtain ⟨camera, hcamera, rfl⟩ := Option.map_eq_some_iff.mp h
      exact childNext_runtimeLock hcamera
  | patrolAt slot =>
      cases h
      rfl
  | ask | answer pan tilt | fail | store =>
      simp only [ptzEnv] at h
      split at h <;> cases h
      rfl

theorem runtime_mutex (cfg : StreamerConfig) :
    Mutex (ptz cfg) (fun s => s.camera.runtimeLock) PtzThread.insideRuntime where
  enter r := by
    cases r with
    | camera r => cases r <;> rfl
    | _ => rfl
  outside h hout := by
    cases ptzNext_step h with
    | camera t t' camera hc hs =>
        subst hs
        simp only [retarget_camera]
        obtain ⟨-, hsame | ⟨hfree, hlock, hin, -⟩⟩ := next_outside hc hout
        · exact .inl hsame
        · exact .inr ⟨hfree, hlock, hin⟩
    | save slot pc pc' hc => exact .inl ⟨(saveNext_frame hc).1, rfl⟩
    | patrol enabled interval pc pc' hc => exact .inl ⟨(patrolNext_frame hc).1, rfl⟩
  within h hin := by
    cases ptzNext_step h with
    | camera t t' camera hc hs =>
        subst hs
        simp only [retarget_camera]
        exact next_within hc hin
    | save slot pc pc' hc | patrol enabled interval pc pc' hc => cases hin
  env h := ptzEnv_runtimeLock h

end Runtime

/-- Whoever is in a critical section holds its lock, and knows what it protects. -/
structure LocksHeld (c : Conf PtzState PtzThread) : Prop where
  config : Annotated (fun _ => True) (Mutex.Holds (fun s => s.camera.configLock)
    PtzThread.insideConfig ConfigHeld) c
  loop : Annotated (fun _ => True) (Mutex.Holds PtzState.loop PtzThread.onLoop LoopHeld) c
  runtime : Annotated (fun _ => True) (Mutex.Holds (fun s => s.camera.runtimeLock)
    PtzThread.insideRuntime fun _ _ _ => True) c

section Held

variable {cfg : StreamerConfig} {c c' : Conf PtzState PtzThread} {i j : ℕ} {t v : PtzThread}

theorem LocksHeld.step {e : Event PtzRequest CameraChoice PtzEnv} (h : LocksHeld c)
    (hs : (ptz cfg).step c e = some c') : LocksHeld c' where
  config := (config_outline cfg free).step c e c' h.config trivial hs
  loop := (loop_outline cfg free).step c e c' h.loop trivial hs
  runtime := ((runtime_mutex cfg).held (G := free)).step c e c' h.runtime trivial hs

theorem locksHeld_start (cfg : StreamerConfig) (registered : Option Payload) (applied : Applied)
    (reported : List (String × Position)) :
    LocksHeld (ptzStart cfg registered applied reported) where
  config := ⟨trivial, fun i t ht => by cases ht⟩
  loop := ⟨trivial, fun i t ht => by cases ht⟩
  runtime := ⟨trivial, fun i t ht => by cases ht⟩

/-- One `/ptz` handler runs on the event loop. -/
theorem LocksHeld.loop_alone (h : LocksHeld c) (ht : c.pool[i]? = some t)
    (hv : c.pool[j]? = some v) (hin : t.onLoop = true) (hin' : v.onLoop = true) : i = j :=
  Option.some.inj ((h.loop.2 i t ht hin).1.symm.trans (h.loop.2 j v hv hin').1)

theorem LocksHeld.runtime_alone (h : LocksHeld c) (ht : c.pool[i]? = some t)
    (hv : c.pool[j]? = some v) (hin : t.insideRuntime = true) (hin' : v.insideRuntime = true) :
    i = j :=
  Option.some.inj ((h.runtime.2 i t ht hin).1.symm.trans (h.runtime.2 j v hv hin').1)

theorem onLoop_of_snapshot {m : Presets} (h : t.snapshot = some m) : t.onLoop = true := by
  cases t with
  | save slot pc => cases pc <;> first | rfl | cases h
  | _ => cases h

theorem insideRuntime_of_loads {data : Payload} (h : t.loads = some data) :
    t.insideRuntime = true := by
  cases t with
  | camera t =>
      cases t with
      | start pc => cases pc <;> first | rfl | cases h
      | _ => cases h
  | _ => cases h

end Held

-- ============================================================================
-- What a step does to the settings
-- ============================================================================

section Steps

variable {cfg : StreamerConfig} {i : ℕ} {s s' : PtzState} {k : CameraChoice}
variable {t t' : PtzThread}

/-- A save leaves the stored patrol alone. -/
theorem saveNext_patrol {slot : ℤ} {pc pc' : SavePc}
    (h : saveNext slot i s k pc = some (s', pc'))
    (hheld : pc.insideConfig = true → ConfigHeld i s (.save slot pc)) :
    s'.camera.applied.patrol = s.camera.applied.patrol := by
  cases hin : pc.insideConfig with
  | false => rw [(saveNext_outsideConfig h hin).1]
  | true =>
      cases pc with
      | write m a =>
          have ha : a = { s.camera.applied with presets := dumpPresets m } := hheld rfl
          simp only [saveNext] at h
          split at h <;> cases h
          · rfl
          · rw [ha]
      | merge m | release o =>
          cases h
          rfl
      | _ => cases hin

/-- A patrol request leaves the presets alone, in memory and in the slot. -/
theorem patrolNext_presets {enabled : Bool} {interval : Option ℤ} {pc pc' : PatrolPc}
    (h : patrolNext enabled interval i s k pc = some (s', pc'))
    (hheld : pc.insideConfig = true → ConfigHeld i s (.patrol enabled interval pc)) :
    s'.camera.applied.presets = s.camera.applied.presets ∧
      s'.camera.presets = s.camera.presets := by
  cases pc with
  | write p a =>
      have ha : a = { s.camera.applied with patrol := p } := hheld rfl
      simp only [patrolNext] at h
      split at h <;> cases h
      · exact ⟨rfl, rfl⟩
      · rw [ha]
        exact ⟨rfl, rfl⟩
  | enter | acquire p =>
      simp only [patrolNext] at h
      split at h <;> cases h
      exact ⟨rfl, rfl⟩
  | answered o => cases h
  | _ =>
      cases h
      exact ⟨rfl, rfl⟩

/-- The thread writes presets to the slot, or changes those in memory. -/
def PtzThread.movesPresets : PtzThread → Bool
  | .camera t => t.movesPresets
  | .save _ (.store _) | .save _ (.write _ _) => true
  | _ => false

/-- What a step does to the presets, in the slot and in memory. -/
inductive PresetsStep (cfg : StreamerConfig) (k : CameraChoice) (s s' : PtzState) :
    PtzThread → PtzThread → Prop
  | keep (t t' : PtzThread) (slot : s'.camera.applied.presets = s.camera.applied.presets)
      (memory : s'.camera.presets = s.camera.presets) (loads : t'.loads = t.loads)
      (snapshot : t'.snapshot = t.snapshot) (plain : t.movesPresets = false) :
      PresetsStep cfg k s s' t t'
  | promote (a : Applied) (applied : s'.camera.applied = a)
      (memory : s'.camera.presets = s.camera.presets) :
      PresetsStep cfg k s s' (.camera (.start (.write a)))
        (.camera (.start (.releaseConfig a.presets)))
  | load (data : Payload) (slot : s'.camera.applied.presets = s.camera.applied.presets)
      (memory : s'.camera.presets = loadPresets cfg data) :
      PresetsStep cfg k s s' (.camera (.start (.presets data))) (.camera (.start (.release .ok)))
  | store (n : ℤ) (p : Position) (slot : s'.camera.applied.presets = s.camera.applied.presets)
      (memory : s'.camera.presets = setPreset s.camera.presets n p) :
      PresetsStep cfg k s s' (.save n (.store p)) (.save n (.acquire s'.camera.presets))
  | write (n : ℤ) (m : Presets) (a : Applied) (o : PtzOutcome)
      (slot : s'.camera.applied.presets =
        if k = .refused then s.camera.applied.presets else dumpPresets m)
      (memory : s'.camera.presets = s.camera.presets) :
      PresetsStep cfg k s s' (.save n (.write m a)) (.save n (.release o))

theorem saveNext_presets {n : ℤ} {pc pc' : SavePc} (h : saveNext n i s k pc = some (s', pc'))
    (hheld : pc.insideConfig = true → ConfigHeld i s (.save n pc)) :
    PresetsStep cfg k s s' (.save n pc) (.save n pc') := by
  cases pc with
  | enter | acquire m =>
      simp only [saveNext] at h
      split at h <;> cases h
      exact .keep _ _ rfl rfl rfl rfl rfl
  | read =>
      cases h
      refine .keep _ _ rfl rfl rfl ?_ rfl
      split
      · split <;> rfl
      · rfl
  | store p =>
      cases h
      exact .store n p rfl rfl
  | write m a =>
      have ha : a = { s.camera.applied with presets := dumpPresets m } := hheld rfl
      simp only [saveNext] at h
      split at h <;> cases h
      · exact .write n m a _ (if_pos ‹_›).symm rfl
      · refine .write n m a _ ?_ rfl
        rw [if_neg ‹_›, ha]
  | merge m | release o | finish o =>
      cases h
      exact .keep _ _ rfl rfl rfl rfl rfl
  | answered o => cases h

theorem ptzNext_presets (h : ptzNext cfg i s t k = some (s', t'))
    (hheld : t.insideConfig = true → ConfigHeld i s t) : PresetsStep cfg k s s' t t' := by
  cases ptzNext_step h with
  | camera t t' camera hc hs =>
      have hcamera : s'.camera = camera := by rw [hs, retarget_camera]
      cases streamerNext_slot hc with
      | keep happlied hpresets _ hloads hplain =>
          exact .keep _ _ (by rw [hcamera, happlied]) (by rw [hcamera, hpresets]) hloads rfl
            hplain
      | promote a ht ht' heq =>
          subst ht ht' heq
          exact .promote a (by rw [hcamera]) (by rw [hcamera])
      | load data ht ht' heq =>
          subst ht ht' heq
          exact .load data (by rw [hcamera]) (by rw [hcamera])
      | stop a ht ht' heq =>
          subst ht ht' heq
          have ha : a = s.camera.applied.stopped := hheld rfl
          exact .keep _ _ (by rw [hcamera, ha]; rfl) (by rw [hcamera]) rfl rfl rfl
  | save n pc pc' hc => exact saveNext_presets hc hheld
  | patrol enabled interval pc pc' hc =>
      obtain ⟨hslot, hmemory⟩ := patrolNext_presets hc hheld
      exact .keep _ _ hslot hmemory rfl rfl rfl

/-- What a step does to the patrol setting, in the slot and in memory. -/
inductive PatrolStep (k : CameraChoice) (s s' : PtzState) : PtzThread → PtzThread → Prop
  | keep (t t' : PtzThread) (slot : s'.camera.applied.patrol = s.camera.applied.patrol)
      (memory : SamePatrol s'.camera.patrol s.camera.patrol)
      (todo : t.toSavePatrol = true → t'.toSavePatrol = true) : PatrolStep k s s' t t'
  | promote (a : Applied) (slot : s'.camera.applied.patrol = a.patrol)
      (memory : s'.camera.patrol = s.camera.patrol) :
      PatrolStep k s s' (.camera (.start (.write a))) (.camera (.start (.releaseConfig a.presets)))
  | set (enabled : Bool) (interval : Option ℤ) (pc' : PatrolPc) (todo : pc'.unsaved = true) :
      PatrolStep k s s' (.patrol enabled interval .set) (.patrol enabled interval pc')
  | write (enabled : Bool) (interval : Option ℤ) (p : Payload) (a : Applied) (o : PtzOutcome)
      (slot : k ≠ .refused → s'.camera.applied.patrol = p)
      (memory : s'.camera.patrol = s.camera.patrol) :
      PatrolStep k s s' (.patrol enabled interval (.write p a))
        (.patrol enabled interval (.release o))

theorem patrolNext_patrol {enabled : Bool} {interval : Option ℤ} {pc pc' : PatrolPc}
    (h : patrolNext enabled interval i s k pc = some (s', pc'))
    (hheld : pc.insideConfig = true → ConfigHeld i s (.patrol enabled interval pc)) :
    PatrolStep k s s' (.patrol enabled interval pc) (.patrol enabled interval pc') := by
  cases pc with
  | enter | acquire p =>
      simp only [patrolNext] at h
      split at h <;> cases h
      exact .keep _ _ rfl (.refl _) fun htodo => htodo
  | set =>
      cases h
      refine .set _ _ _ ?_
      split <;> rfl
  | point slot =>
      cases h
      exact .keep _ _ rfl (setPatrolSlot_same _ _) fun htodo => htodo
  | home | read | merge p | release o | finish o =>
      cases h
      exact .keep _ _ rfl (.refl _) fun htodo => htodo
  | write p a =>
      have ha : a = { s.camera.applied with patrol := p } := hheld rfl
      simp only [patrolNext] at h
      split at h <;> cases h
      · exact .write _ _ p a _ (fun hwrites => absurd ‹_› hwrites) rfl
      · exact .write _ _ p a _ (fun _ => by rw [ha]) rfl
  | answered o => cases h

theorem ptzNext_patrol (h : ptzNext cfg i s t k = some (s', t'))
    (hheld : t.insideConfig = true → ConfigHeld i s t) : PatrolStep k s s' t t' := by
  cases ptzNext_step h with
  | camera t t' camera hc hs =>
      have hcamera : s'.camera = camera := by rw [hs, retarget_camera]
      have hpatrol : s'.camera.patrol = s.camera.patrol := by
        rw [hcamera, streamerNext_patrol hc]
      have hsame : SamePatrol s'.camera.patrol s.camera.patrol := by
        rw [hpatrol]
        exact .refl _
      cases streamerNext_slot hc with
      | keep happlied =>
          exact .keep _ _ (by rw [hcamera, happlied]) hsame fun htodo => by cases htodo
      | promote a ht ht' heq =>
          subst ht ht' heq
          exact .promote a (by rw [hcamera]) hpatrol
      | load data ht ht' heq =>
          subst heq
          exact .keep _ _ (by rw [hcamera]) hsame fun htodo => by cases htodo
      | stop a ht ht' heq =>
          subst ht ht' heq
          have ha : a = s.camera.applied.stopped := hheld rfl
          exact .keep _ _ (by rw [hcamera, ha]; rfl) hsame fun htodo => by cases htodo
  | save n pc pc' hc =>
      refine .keep _ _ (saveNext_patrol hc hheld) ?_ fun htodo => by cases htodo
      rw [(saveNext_loop hc).1]
      exact .refl _
  | patrol enabled interval pc pc' hc => exact patrolNext_patrol hc hheld

/-- Where the patrol comes from that a start is to write: from the slot, and from the memory when
    the slot has none. -/
theorem ptzNext_readPatrol {p : Payload} (h : ptzNext cfg i s t k = some (s', t'))
    (hread : t'.readPatrol = some p) :
    ∃ q, (t.readPatrol = some q ∨
        (q = s.camera.applied.patrol ∧ ∃ profile, t = .camera (.start (.applied profile)))) ∧
      (p = q ∨ p = s.camera.patrol) := by
  cases ptzNext_step h with
  | save n pc pc' hc | patrol enabled interval pc pc' hc => cases hread
  | camera t t' camera hc hs =>
      cases next_handler hc with
      | register config pc pc' hb | stop pc pc' hb | restore pc pc' hb => cases hread
      | start pc pc' hb =>
          cases pc with
          | acquire =>
              simp only [startNext] at hb
              split at hb <;> cases hb
              cases hread
          | registered =>
              cases hb
              split at hread
              · cases hread
              · split at hread <;> cases hread
          | applied profile =>
              cases hb
              exact ⟨p, .inr ⟨(Option.some.inj hread).symm, profile, rfl⟩, .inl rfl⟩
          | patch profile a =>
              obtain ⟨ok, -, rfl⟩ := startNext_patch hb
              cases ok with
              | true => exact ⟨p, .inl hread, .inl rfl⟩
              | false => cases hread
          | configure profile a =>
              cases hb
              exact ⟨p, .inl hread, .inl rfl⟩
          | collect profile a =>
              cases hb
              refine ⟨a.patrol, .inl rfl, ?_⟩
              obtain rfl : (promote s.camera a profile).patrol = p := Option.some.inj hread
              simp only [promote]
              split
              · exact .inr rfl
              · exact .inl rfl
          | acquireConfig a =>
              simp only [startNext] at hb
              split at hb <;> cases hb
              exact ⟨p, .inl hread, .inl rfl⟩
          | write a | releaseConfig presets | presets data | release o =>
              cases hb
              cases hread
          | returned o => cases hb

end Steps

-- ============================================================================
-- What has not been crossed
-- ============================================================================

/-- What a thread knows while no other has crossed it: the presets that a start is to load are in
    the slot, those that a save is to write are in memory. -/
structure Uncrossed (i : ℕ) (s : PtzState × Crossings) (t : PtzThread) : Prop where
  loads : ∀ data, t.loads = some data → s.2.saved i = false →
    s.1.camera.applied.presets = data
  snapshot : ∀ m, t.snapshot = some m → s.2.loaded i = false → s.1.camera.presets = m

section Uncrossed

variable {cfg : StreamerConfig} {c : Conf (PtzState × Crossings) PtzThread} {i j : ℕ}
variable {s s' : PtzState} {x : Crossings} {k : CameraChoice} {t t' v : PtzThread}

theorem uncrossed_own (h : Uncrossed i (s, x) t) (hstep : PresetsStep cfg k s s' t t') :
    Uncrossed i (s', recordCrossings i t k x) t' := by
  cases hstep with
  | keep t t' hslot hmemory hloads hsnapshot =>
      constructor
      · intro data ht' hsaved
        rw [hloads] at ht'
        rcases saved_uncrossed hsaved with hsaved | ⟨-, a, rfl⟩
        · exact hslot.trans (h.loads data ht' hsaved)
        · cases ht'
      · intro m ht' hloaded
        rw [hsnapshot] at ht'
        rcases loaded_uncrossed hloaded with hloaded | ⟨-, n, p, rfl⟩
        · exact hmemory.trans (h.snapshot m ht' hloaded)
        · cases ht'
  | promote a happlied hmemory =>
      refine ⟨fun data ht' _ => ?_, fun m ht' => (by cases ht')⟩
      rw [happlied]
      exact Option.some.inj ht'
  | load data | write n m a o =>
      exact ⟨fun _ ht' => (by cases ht'), fun _ ht' => (by cases ht')⟩
  | store n p hslot =>
      exact ⟨fun _ ht' => (by cases ht'), fun m ht' _ => Option.some.inj ht'⟩

/-- What another thread does crosses, or leaves slot and memory alone: it is not inside the same
    critical section. -/
theorem uncrossed_others (hlocks : LocksHeld c.base) (ht : c.pool[i]? = some t)
    (hv : c.pool[j]? = some v) (hne : j ≠ i) (h : Uncrossed j (c.shared.1, c.shared.2) v)
    (hstep : PresetsStep cfg k c.shared.1 s' t t') :
    Uncrossed j (s', recordCrossings i t k c.shared.2) v := by
  have hsaved : ∀ {x : Crossings}, (recordCrossings i t k x).saved j = false →
      x.saved j = false := fun hx => (saved_uncrossed hx).resolve_right fun hi => hne hi.1
  have hloaded : ∀ {x : Crossings}, (recordCrossings i t k x).loaded j = false →
      x.loaded j = false := fun hx => (loaded_uncrossed hx).resolve_right fun hi => hne hi.1
  cases hstep with
  | keep t t' hslot hmemory =>
      exact ⟨fun data hdata hx => hslot.trans (h.loads data hdata (hsaved hx)),
        fun m hm hx => hmemory.trans (h.snapshot m hm (hloaded hx))⟩
  | promote a happlied hmemory =>
      refine ⟨fun data hdata _ => ?_,
        fun m hm hx => hmemory.trans (h.snapshot m hm (hloaded hx))⟩
      exact absurd (hlocks.runtime_alone hv ht (insideRuntime_of_loads hdata) rfl) hne
  | load data hslot hmemory =>
      refine ⟨fun data hdata hx => hslot.trans (h.loads data hdata (hsaved hx)), ?_⟩
      intro m hm hx
      cases hx
  | store n p hslot =>
      refine ⟨fun data hdata hx => hslot.trans (h.loads data hdata (hsaved hx)), ?_⟩
      intro m hm _
      exact absurd (hlocks.loop_alone hv ht (onLoop_of_snapshot hm) rfl) hne
  | write n m a o hslot hmemory =>
      refine ⟨fun data hdata hx => ?_,
        fun m hm hx => hmemory.trans (h.snapshot m hm (hloaded hx))⟩
      by_cases hk : k = .refused
      · rw [hslot, if_pos hk]
        exact h.loads data hdata (hsaved hx)
      · simp only [recordCrossings, if_neg hk] at hx
        cases hx

/-- The proof outline of the presets, where the locks are held. -/
theorem uncrossed_outline (cfg : StreamerConfig) :
    OwickiGries (crossing cfg) (fun c _ => LocksHeld c.base) (fun _ => True) Uncrossed where
  enter i s r _ := by
    cases r with
    | camera r => cases r <;> exact ⟨fun _ h => (by cases h), fun _ h => (by cases h)⟩
    | save slot | patrol enabled interval =>
        exact ⟨fun _ h => (by cases h), fun _ h => (by cases h)⟩
  own c i k t s' t' hc hlocks ht hn := by
    obtain ⟨hn, hx⟩ := Prog.recorded_next hn
    refine ⟨trivial, ?_⟩
    rw [← Prod.mk.eta (p := s'), hx]
    exact uncrossed_own (hc.2 i t ht)
      (ptzNext_presets hn fun hin => (hlocks.config.2 i t ht hin).2)
  others c i k t s' t' j v hc hlocks ht hn hne hj := by
    obtain ⟨hn, hx⟩ := Prog.recorded_next hn
    rw [← Prod.mk.eta (p := s'), hx]
    exact uncrossed_others hlocks ht hj hne (hc.2 j v hj)
      (ptzNext_presets hn fun hin => (hlocks.config.2 i t ht hin).2)
  env c e s' hc _ he := by
    obtain ⟨he, hx⟩ := Prog.recorded_env he
    obtain ⟨happlied, hpresets, -⟩ := ptzEnv_config he
    refine ⟨trivial, fun j v hj => ?_⟩
    have hold := hc.2 j v hj
    constructor
    · intro data hdata hsaved
      rw [happlied]
      exact hold.loads data hdata (by rwa [hx] at hsaved)
    · intro m hm hloaded
      rw [hpresets]
      exact hold.snapshot m hm (by rwa [hx] at hloaded)

/-- What a start has read of the patrol is the setting in memory, while no patrol request has
    crossed it, or one is still to save. -/
def Started (cfg : StreamerConfig) (c : Conf (PtzState × Crossings) PtzThread) : Prop :=
  ∀ i t p, c.pool[i]? = some t → t.readPatrol = some p → c.shared.2.patrol i = false →
    Owed (SettingIs cfg p) PtzThread.toSavePatrol c.base

/-- A step that no start crosses leaves the setting in memory as it is. -/
theorem setting_paysOff {p : Payload} (hstep : PatrolStep k c.shared.1 s' t t')
    (hfresh : (recordCrossings i t k c.shared.2).patrol j = false) :
    PaysOff (SettingIs cfg p) PtzThread.toSavePatrol c.base i t s' t' := by
  cases hstep with
  | keep t t' _ hmemory htodo =>
      cases hold : t.toSavePatrol with
      | true => exact .inl (htodo hold)
      | false =>
          refine .inr (.inr (.inr ⟨hold, fun hp => ?_⟩))
          rw [SettingIs, hmemory.setting]
          exact hp
  | promote a _ hmemory =>
      refine .inr (.inr (.inr ⟨rfl, fun hp => ?_⟩))
      rw [SettingIs, hmemory]
      exact hp
  | set enabled interval pc' | write enabled interval q a o => cases hfresh

theorem started_step {c' : Conf (PtzState × Crossings) PtzThread}
    {e : Event PtzRequest CameraChoice PtzEnv} (hlocks : LocksHeld c.base)
    (h : Started cfg c) (howed : Owed (PatrolAgrees cfg) PtzThread.toSavePatrol c.base)
    (hs : (crossing cfg).step c e = some c') : Started cfg c' := by
  intro j v p hj hread hfresh
  have hbase := Prog.recorded_step hs
  -- it holds before the step, of the thread as it was or of what it reads
  have hold : Owed (SettingIs cfg p) PtzThread.toSavePatrol c.base := by
    rcases Prog.step_cases hs with ⟨r, rfl, rfl⟩ | ⟨i, k, t, s', t', rfl, ht, hn, rfl⟩ |
        ⟨e, s', rfl, he, rfl⟩
    · rcases getElem?_append_cases hj with hj | ⟨-, rfl⟩
      · exact h j v p hj hread hfresh
      · cases r with
        | camera r => cases r <;> cases hread
        | save slot | patrol enabled interval => cases hread
    · obtain ⟨hn, hx⟩ := Prog.recorded_next hn
      simp only [hx] at hfresh
      rcases getElem?_set_cases ht hj with ⟨rfl, rfl⟩ | ⟨hne, hj⟩
      · obtain ⟨q, hq, hp⟩ := ptzNext_readPatrol hn hread
        have hqowed : Owed (SettingIs cfg q) PtzThread.toSavePatrol c.base := by
          rcases hq with hq | ⟨rfl, profile, rfl⟩
          · rcases patrol_uncrossed hfresh with hfresh | ⟨-, profile, rfl⟩
            · exact h j t q ht hq hfresh
            · cases hq
          · exact howed
        rcases hp with rfl | rfl
        · exact hqowed
        · exact .inl rfl
      · refine h j v p hj hread ((patrol_uncrossed hfresh).resolve_right ?_)
        exact fun hi => hne hi.1
    · rw [(Prog.recorded_env he).2] at hfresh
      exact h j v p hj hread hfresh
  refine hold.step hbase ?_ ?_
  · rintro i k t s' t' rfl ht hn
    refine setting_paysOff (j := j) (ptzNext_patrol hn fun hin => (hlocks.config.2 i t ht hin).2) ?_
    rcases Prog.step_cases hs with ⟨r, he, -⟩ | ⟨i', k', u, s'', u', he, hu, hn', rfl⟩ |
        ⟨x, s'', he, -⟩
    · cases he
    · cases he
      obtain rfl : u = t := Option.some.inj (hu.symm.trans ht)
      rwa [(Prog.recorded_next hn').2] at hfresh
    · cases he
  · rintro x s' rfl hx hp
    rw [SettingIs, (ptzEnv_patrol hx).setting]
    exact hp

end Uncrossed

-- ============================================================================
-- Slot and memory agree
-- ============================================================================

section Agree

variable {cfg : StreamerConfig} {c : Conf (PtzState × Crossings) PtzThread} {i : ℕ}
variable {s' : PtzState} {k : CameraChoice} {t t' : PtzThread}

theorem patrol_paysOff (hG : Settles c (.sched i k)) (ht : c.pool[i]? = some t)
    (hlocks : LocksHeld c.base) (hstarted : Started cfg c)
    (hstep : PatrolStep k c.shared.1 s' t t') :
    PaysOff (PatrolAgrees cfg) PtzThread.toSavePatrol c.base i t s' t' := by
  cases hstep with
  | keep t t' hslot hmemory htodo =>
      cases hold : t.toSavePatrol with
      | true => exact .inl (htodo hold)
      | false =>
          refine .inr (.inr (.inr ⟨hold, fun hagrees => ?_⟩))
          rw [PatrolAgrees, hslot, hmemory.setting]
          exact hagrees
  | promote a hslot hmemory =>
      simp only [Settles, settles, ht, Bool.or_eq_true, Bool.not_eq_true'] at hG
      rcases hG with hcrossed | hother
      · refine (hstarted i _ a.patrol ht rfl hcrossed).paysOff ht rfl fun hread => ?_
        rw [PatrolAgrees, hslot, hmemory]
        exact hread
      · exact .inr (.inr (.inl hother))
  | set enabled interval pc' htodo => exact .inl htodo
  | write enabled interval p a o hslot hmemory =>
      simp only [Settles, settles, ht, bne_iff_ne] at hG
      have hp : SamePatrol p c.shared.1.camera.patrol := (hlocks.loop.2 i _ ht rfl).2
      refine .inr (.inl ?_)
      rw [PatrolAgrees, hslot hG, hmemory]
      exact hp.setting

theorem presets_paysOff (hcfg : LawfulStreamer cfg) (hG : Settles c (.sched i k))
    (ht : c.pool[i]? = some t) (hcarries : CarriesOk cfg i c.shared.1 t)
    (huncrossed : Uncrossed i c.shared t) (hstep : PresetsStep cfg k c.shared.1 s' t t') :
    PaysOff (PresetsAgree cfg) PtzThread.toSavePresets c.base i t s' t' := by
  cases hstep with
  | keep t t' hslot hmemory hloads hsnapshot =>
      have hsame : t'.toSavePresets = t.toSavePresets := by
        rw [PtzThread.toSavePresets, PtzThread.toLoad, hloads, hsnapshot]
        rfl
      cases hold : t.toSavePresets with
      | true => exact .inl (hsame.trans hold)
      | false =>
          refine .inr (.inr (.inr ⟨hold, fun hagrees => ?_⟩))
          rw [PresetsAgree, hslot, hmemory]
          exact hagrees
  | promote a | store n p => exact .inl rfl
  | load data hslot hmemory =>
      simp only [Settles, settles, ht, Bool.not_eq_true'] at hG
      refine .inr (.inl fun slot _ => ?_)
      rw [hslot, hmemory, huncrossed.loads data rfl hG]
  | write n m a o hslot hmemory =>
      simp only [Settles, settles, ht] at hG
      by_cases hk : k = .refused
      · rw [if_pos hk] at hG
        obtain ⟨v, hv, hload⟩ := List.any_eq_true.mp hG
        refine .inr (.inr (.inl (List.any_eq_true.mpr ⟨v, hv, ?_⟩)))
        rw [PtzThread.toSavePresets, hload, Bool.or_true]
      · rw [if_neg hk, Bool.not_eq_true'] at hG
        refine .inr (.inl fun slot _ => ?_)
        rw [hslot, if_neg hk, hmemory, huncrossed.snapshot m rfl hG]
        exact loadPresets_dump hcfg hcarries slot

end Agree

-- ============================================================================
-- Runs
-- ============================================================================

/-- What every run that `Settles` allows keeps. -/
structure SettingsInv (cfg : StreamerConfig) (c : Conf (PtzState × Crossings) PtzThread) :
    Prop where
  locks : LocksHeld c.base
  values : Annotated (PtzInv cfg) (CarriesOk cfg) c.base
  uncrossed : Annotated (fun _ => True) Uncrossed c
  started : Started cfg c
  patrol : Owed (PatrolAgrees cfg) PtzThread.toSavePatrol c.base
  presets : Owed (PresetsAgree cfg) PtzThread.toSavePresets c.base

section Runs

variable {cfg : StreamerConfig}

theorem settingsInv_step (hcfg : LawfulStreamer cfg) (c : Conf (PtzState × Crossings) PtzThread)
    (e : Event PtzRequest CameraChoice PtzEnv) (c' : Conf (PtzState × Crossings) PtzThread)
    (h : SettingsInv cfg c) (hG : Settles c e) (hs : (crossing cfg).step c e = some c') :
    SettingsInv cfg c' := by
  have hbase := Prog.recorded_step hs
  have hconfig : ∀ i t, c.pool[i]? = some t → t.insideConfig = true →
      ConfigHeld i c.shared.1 t := fun i t ht hin => (h.locks.config.2 i t ht hin).2
  refine ⟨h.locks.step hbase, ?_, ?_, started_step h.locks h.started h.patrol hs, ?_, ?_⟩
  · exact (values_outline hcfg free).step c.base e c'.base h.values trivial hbase
  · exact (uncrossed_outline cfg).step c e c' h.uncrossed h.locks hs
  · refine h.patrol.step hbase ?_ ?_
    · rintro i k t s' t' rfl ht hn
      exact patrol_paysOff hG ht h.locks h.started (ptzNext_patrol hn (hconfig i t ht))
    · rintro x s' rfl hx hagrees
      rw [PatrolAgrees, (ptzEnv_config hx).1, (ptzEnv_patrol hx).setting]
      exact hagrees
  · refine h.presets.step hbase ?_ ?_
    · rintro i k t s' t' rfl ht hn
      exact presets_paysOff hcfg hG ht (h.values.2 i t ht) (h.uncrossed.2 i t ht)
        (ptzNext_presets hn (hconfig i t ht))
    · rintro x s' rfl hx hagrees
      rw [PresetsAgree, (ptzEnv_config hx).1, (ptzEnv_config hx).2.1]
      exact hagrees

theorem settingsInv_start (hcfg : LawfulStreamer cfg) (registered : Option Payload)
    (applied : Applied) : SettingsInv cfg (crossingStart cfg registered applied) where
  locks := locksHeld_start cfg registered applied []
  values := ptzInv_start hcfg registered applied []
  uncrossed := ⟨trivial, fun i t ht => by cases ht⟩
  started := fun i t p ht => by cases ht
  patrol := .inl (loadPatrol_canonical cfg applied.patrol).1.symm
  presets := .inl fun _ _ => rfl

/-- A request that has not been answered. -/
def PtzThread.inProgress : PtzThread → Bool
  | .camera (.register _ (.returned _)) | .camera (.start (.returned _)) => false
  | .camera (.stop (.returned _)) | .camera (.restore _) => false
  | .save _ (.answered _) | .patrol _ _ (.answered _) => false
  | _ => true

theorem answered_saved {t : PtzThread} (h : t.inProgress = false) :
    t.toSavePatrol = false ∧ t.toSavePresets = false := by
  cases t with
  | camera t =>
      cases t with
      | start pc => cases pc <;> first | exact ⟨rfl, rfl⟩ | cases h
      | _ => exact ⟨rfl, rfl⟩
  | save slot pc => cases pc <;> first | exact ⟨rfl, rfl⟩ | cases h
  | patrol enabled interval pc => cases pc <;> first | exact ⟨rfl, rfl⟩ | cases h

/-- The applied slot holds the settings that are in memory. -/
structure SettingsSaved (cfg : StreamerConfig) (s : PtzState) : Prop where
  enabled : s.camera.patrol.get "enabled" =
    .bool (patrolSetting cfg s.camera.applied.patrol).1
  interval : s.camera.patrol.get "interval_s" =
    .int (patrolSetting cfg s.camera.applied.patrol).2
  presets : ∀ slot : ℤ, (loadPresets cfg s.camera.applied.presets).lookup slot =
    s.camera.presets.lookup slot

theorem PresetsOk.lookup_outside {m : Presets} (h : PresetsOk cfg m) {slot : ℤ}
    (hslot : slot ∉ [1, 2, 3, 4]) : m.lookup slot = none := by
  rw [List.lookup_eq_none_iff]
  intro x hx
  rw [bne_iff_ne]
  rintro rfl
  exact hslot (h.entry x hx).1

/-- In a run in which no start and no save-preset request writes or loads what another has crossed,
    and no write fails, the applied slot holds the settings in memory whenever no request is in
    progress, and a restart loads them. -/
theorem settings_saved (hcfg : LawfulStreamer cfg) {registered : Option Payload} {applied : Applied}
    {c : Conf (PtzState × Crossings) PtzThread}
    (h : Steps (crossing cfg).step Settles (crossingStart cfg registered applied) c)
    (hidle : ∀ t ∈ c.pool, t.inProgress = false) :
    SettingsSaved cfg c.shared.1 ∧
      SamePatrol (ptzStart cfg registered c.shared.1.camera.applied []).shared.camera.patrol
        c.shared.1.camera.patrol ∧
      ∀ slot : ℤ, (ptzStart cfg registered c.shared.1.camera.applied
        []).shared.camera.presets.lookup slot = c.shared.1.camera.presets.lookup slot := by
  have hinv := h.invariant (settingsInv_step hcfg) (settingsInv_start hcfg registered applied)
  have hpatrol : PatrolAgrees cfg c.shared.1 :=
    hinv.patrol.settled fun t ht => (answered_saved (hidle t ht)).1
  have hpresets : PresetsAgree cfg c.shared.1 :=
    hinv.presets.settled fun t ht => (answered_saved (hidle t ht)).2
  have hvalues : PtzInv cfg c.shared.1 := hinv.values.1
  have hsaved : SettingsSaved cfg c.shared.1 := by
    refine ⟨?_, ?_, fun slot => ?_⟩
    · rw [hpatrol]
      exact hvalues.patrol.1
    · rw [hpatrol]
      exact hvalues.patrol.2
    · by_cases hslot : slot ∈ ([1, 2, 3, 4] : List ℤ)
      · exact hpresets slot hslot
      · rw [(loadPresets_ok hcfg).lookup_outside hslot,
          hvalues.presets.lookup_outside hslot]
  exact ⟨hsaved, ⟨hsaved.enabled.symm, hsaved.interval.symm⟩, hsaved.presets⟩

end Runs

-- ============================================================================
-- Executions
-- ============================================================================

/-- `int` on the texts of the slots. -/
def slotOf (s : String) : Option ℤ := [1, 2, 3, 4].find? fun slot : ℤ => toString slot == s

def samplePtzConfig : StreamerConfig := { sampleStreamer with toInt := slotOf }

theorem samplePtzConfig_lawful : LawfulStreamer samplePtzConfig where
  toInt_slot := by decide
  toFloat_float _ := rfl
  round3_round3 _ := rfl

def goesPtz (i n : ℕ) : List (Event PtzRequest CameraChoice PtzEnv) :=
  List.replicate n (.sched i .go)

/-- A start as thread `i`, up to its patch. -/
def ptzStartUpTo (i : ℕ) : List (Event PtzRequest CameraChoice PtzEnv) :=
  .enter (.camera .start) :: goesPtz i 3

/-- The patch of a start, and the rest of it. -/
def ptzStartRest (i : ℕ) : List (Event PtzRequest CameraChoice PtzEnv) :=
  .sched i .patched :: goesPtz i 7

def pollAt (pan tilt : ℚ) : List (Event PtzRequest CameraChoice PtzEnv) :=
  [.env .ask, .env (.answer (.finite pan) (.finite tilt)), .env .store]

/-- A start, a preset and a patrol setting, one after the other. -/
def settingsInTurn : List (Event PtzRequest CameraChoice PtzEnv) :=
  .env (.child .popen) :: ptzStartUpTo 0 ++ ptzStartRest 0 ++ pollAt (1 / 2) (1 / 4) ++
    .enter (.save 1) :: goesPtz 1 8 ++ .enter (.patrol true (some 3)) :: goesPtz 2 8

/-- A patrol setting that is saved while a start waits for MediaMTX. -/
def patrolDuringStart : List (Event PtzRequest CameraChoice PtzEnv) :=
  .env (.child .popen) :: .enter (.patrol false (some 60)) :: goesPtz 0 8 ++ ptzStartUpTo 1 ++
    .enter (.patrol true none) :: goesPtz 2 8 ++ ptzStartRest 1

def samplePtz : Conf PtzState PtzThread :=
  ptzStart samplePtzConfig (some (cameraAt "192.0.2.7")) neverStarted []

def sampleCrossing : Conf (PtzState × Crossings) PtzThread :=
  crossingStart samplePtzConfig (some (cameraAt "192.0.2.7")) neverStarted

/-- The patrol setting in memory, the saved one, the number of presets in memory, and whether no
    request is in progress. -/
def settingsSummary (c : Conf PtzState PtzThread) : (Bool × ℤ) × (Bool × ℤ) × ℕ × Bool :=
  (patrolSetting samplePtzConfig c.shared.camera.patrol,
    patrolSetting samplePtzConfig c.shared.camera.applied.patrol,
    c.shared.camera.presets.length, c.pool.all fun t => !t.inProgress)

theorem idle_of_all {pool : List PtzThread}
    (h : (pool.all fun t => !t.inProgress) = true) : ∀ t ∈ pool, t.inProgress = false :=
  fun t ht => by simpa using List.all_eq_true.mp h t ht

theorem settings_saved_inTurn :
    ∃ c : Conf (PtzState × Crossings) PtzThread, c.shared.1.camera.presets.length = 1 ∧
      SettingsSaved samplePtzConfig c.shared.1 ∧
      SamePatrol (ptzStart samplePtzConfig (some (cameraAt "192.0.2.7")) c.shared.1.camera.applied
        []).shared.camera.patrol c.shared.1.camera.patrol ∧
      ∀ slot : ℤ, (ptzStart samplePtzConfig (some (cameraAt "192.0.2.7"))
        c.shared.1.camera.applied []).shared.camera.presets.lookup slot =
          c.shared.1.camera.presets.lookup slot := by
  have hrun : (run (guardedStep (crossing samplePtzConfig).step Settles) sampleCrossing
      settingsInTurn).map (fun c => settingsSummary c.base) =
        some ((true, 5), (true, 5), 1, true) := by
    with_unfolding_all decide
  obtain ⟨c, hc, hsummary⟩ := Option.map_eq_some_iff.mp hrun
  simp only [settingsSummary, Prod.mk.injEq] at hsummary
  obtain ⟨-, -, hpresets, hidle⟩ := hsummary
  exact ⟨c, hpresets, settings_saved samplePtzConfig_lawful (Steps.of_runGuarded hc)
    (idle_of_all hidle)⟩

/-- The start writes the patrol setting that it has read before the request. -/
theorem patrol_lost_in_start :
    ¬ ∀ c : Conf PtzState PtzThread, Steps (ptz samplePtzConfig).step free samplePtz c →
      (∀ t ∈ c.pool, t.inProgress = false) → SettingsSaved samplePtzConfig c.shared := by
  intro hclaim
  have hrun : (run (ptz samplePtzConfig).step samplePtz patrolDuringStart).map settingsSummary =
      some ((true, 60), (false, 60), 0, true) := by
    decide
  obtain ⟨c, hc, hsummary⟩ := Option.map_eq_some_iff.mp hrun
  simp only [settingsSummary, Prod.mk.injEq] at hsummary
  obtain ⟨hmemory, hsaved, -, hidle⟩ := hsummary
  have henabled := (hclaim c (Steps.of_run hc) (idle_of_all hidle)).enabled
  rw [patrolSetting, Prod.mk.injEq, henabled, hsaved] at hmemory
  exact absurd hmemory.1 (by decide)

end Babycat.Streamer
