/-
  Babycat.Streamer.PresetOrigin

  The camera that a preset belongs to (SDD 4.2).

  The presets in memory and in the applied slot are positions of the camera
  whose ip the applied profile has.  A start of another camera drops them; but
  the position that a save takes was polled at any time before, and stays when
  the camera is switched without a stop, and a save that has taken its snapshot
  writes it after the switch.  `Origins` is bookkeeping the code does not have:
  what dates from before the last switch.  `SavesFresh` is the guard of the runs
  in which no save uses any of that.
-/

import Babycat.Streamer.PtzSettings

namespace Babycat.Streamer

open Babycat.Conc
open Babycat.Recorder (Json Payload PyFloat)

-- ============================================================================
-- Whose position it is
-- ============================================================================

/-- The camera with this ip has reported the position. -/
def reportedBy (reported : List (String × Position)) (ip : Option String) (p : Position) : Bool :=
  ip.any fun ip => decide ((ip, p) ∈ reported)

def Applied.ip (a : Applied) : Option String := a.profile.map Profile.ip

/-- The applied camera has reported the position. -/
def PtzState.owns (s : PtzState) (p : Position) : Bool :=
  reportedBy s.reported s.camera.applied.ip p

/-- Every preset that a restart loads is a position of the applied camera. -/
def SlotOwned (cfg : StreamerConfig) (s : PtzState) : Prop :=
  ∀ x ∈ loadPresets cfg s.camera.applied.presets, s.owns x.2 = true

/-- Every preset in memory is a position of the applied camera. -/
def MemoryOwned (s : PtzState) : Prop := ∀ x ∈ s.camera.presets, s.owns x.2 = true

instance (s : PtzState) : Decidable (MemoryOwned s) :=
  inferInstanceAs (Decidable (∀ x ∈ s.camera.presets, s.owns x.2 = true))

-- ============================================================================
-- Switches
-- ============================================================================

/-- What dates from after the last start that has switched the camera. -/
structure Origins where
  /-- The poll in flight was sent to the applied camera, and the camera is the same since. -/
  poll : Bool
  /-- The same of the poll that brought `_current`. -/
  current : Bool
  /-- The presets in memory were loaded, or there was none, when the camera was switched or
      after. -/
  memory : Bool
  /-- What `current` says, of the position that this save has read. -/
  position : ℕ → Bool
  /-- What `memory` says, of the presets that this save has taken. -/
  snapshot : ℕ → Bool

/-- What a step of thread `i` does to the bookkeeping.  A start switches the camera when it writes
    the slot. -/
def recordOrigins (i : ℕ) (s : PtzState) (t : PtzThread) (x : Origins) : Origins :=
  match t with
  | .camera (.start (.write a)) =>
      if a.ip = s.camera.applied.ip then x
      else
        { poll := false
          current := false
          memory := s.camera.presets.isEmpty
          position := fun _ => false
          snapshot := fun _ => false }
  | .camera (.start (.presets _)) => { x with memory := true }
  | .save _ .read => { x with position := Function.update x.position i x.current }
  | .save _ (.store _) => { x with snapshot := Function.update x.snapshot i x.memory }
  | _ => x

/-- What a step of the poll does to it. -/
def recordPolls (s : PtzState) (e : PtzEnv) (x : Origins) : Origins :=
  match e with
  | .ask => { x with poll := decide (s.targetIp = s.camera.applied.ip) }
  | .store => { x with current := x.poll }
  | _ => x

/-- The companion process with the bookkeeping. -/
def switching (cfg : StreamerConfig) :
    Prog (PtzState × Origins) PtzThread PtzRequest CameraChoice PtzEnv :=
  (ptz cfg).recorded (fun i s t _ x => recordOrigins i s t x) recordPolls

/-- The start of the process: nothing is polled, and the presets in memory are those of the slot. -/
def switchingStart (cfg : StreamerConfig) (registered : Option Payload) (applied : Applied)
    (reported : List (String × Position)) : Conf (PtzState × Origins) PtzThread where
  shared := ((ptzStart cfg registered applied reported).shared,
    { poll := false
      current := false
      memory := true
      position := fun _ => false
      snapshot := fun _ => false })
  pool := []

/-- Between the poll whose position a save stores and the store, and between the store and the
    write of the slot, no start switches the camera; and when the store is made, the presets in
    memory are not those from before a switch. -/
def savesFresh (c : Conf (PtzState × Origins) PtzThread) :
    Event PtzRequest CameraChoice PtzEnv → Bool
  | .sched i k =>
      match c.pool[i]? with
      | some (.save _ (.store _)) => c.shared.2.position i
      | some (.save _ (.write _ _)) => k == .refused || c.shared.2.snapshot i
      | _ => true
  | _ => true

def SavesFresh (c : Conf (PtzState × Origins) PtzThread)
    (e : Event PtzRequest CameraChoice PtzEnv) : Prop :=
  savesFresh c e = true

/-- A start that switches the camera finds no presets in memory. -/
def switchesEmpty (c : Conf (PtzState × Origins) PtzThread) :
    Event PtzRequest CameraChoice PtzEnv → Bool
  | .sched i _ =>
      match c.pool[i]? with
      | some (.camera (.start (.write a))) =>
          decide (a.ip = c.shared.1.camera.applied.ip) || c.shared.1.camera.presets.isEmpty
      | _ => true
  | _ => true

def FreshThroughout (c : Conf (PtzState × Origins) PtzThread)
    (e : Event PtzRequest CameraChoice PtzEnv) : Prop :=
  (savesFresh c e && switchesEmpty c e) = true

instance (c : Conf (PtzState × Origins) PtzThread)
    (e : Event PtzRequest CameraChoice PtzEnv) : Decidable (FreshThroughout c e) :=
  inferInstanceAs (Decidable (_ = true))

-- ============================================================================
-- What a thread carries
-- ============================================================================

/-- What a start knows of the presets that it keeps. -/
def StartKnows (cfg : StreamerConfig) (s : PtzState) : PtzThread → Prop
  | .camera (.start (.patch p a)) | .camera (.start (.configure p a))
  | .camera (.start (.collect p a)) =>
      ∀ x ∈ loadPresets cfg (keptPresets a p), reportedBy s.reported (some p.ip) x.2 = true
  | .camera (.start (.acquireConfig a)) | .camera (.start (.write a)) =>
      ∀ x ∈ loadPresets cfg a.presets, reportedBy s.reported a.ip x.2 = true
  | .camera (.start (.releaseConfig data)) | .camera (.start (.presets data)) =>
      ∀ x ∈ loadPresets cfg data, s.owns x.2 = true
  | _ => True

/-- What a save knows of the position and of the presets that it carries. -/
def SaveKnows (i : ℕ) (s : PtzState × Origins) : PtzThread → Prop
  | .save _ (.store p) => s.2.position i = true → s.1.owns p = true
  | .save _ (.acquire m) | .save _ (.merge m) | .save _ (.write m _) =>
      s.2.snapshot i = true → ∀ x ∈ m, s.1.owns x.2 = true
  | _ => True

/-- What is so of the state that dates from after the last switch. -/
structure OriginsOk (s : PtzState × Origins) : Prop where
  asked : s.2.poll = true → ∀ ip, s.1.poll = .asked ip → s.1.camera.applied.ip = some ip
  answered : s.2.poll = true → ∀ p, s.1.poll = .answered p → s.1.owns p = true
  current : s.2.current = true → ∀ p, s.1.current = some p → s.1.owns p = true
  memory : s.2.memory = true → MemoryOwned s.1

/-- Nothing reported is forgotten, and the applied camera is the same. -/
structure Grows (s s' : PtzState) : Prop where
  reported : ∀ x ∈ s.reported, x ∈ s'.reported
  ip : s'.camera.applied.ip = s.camera.applied.ip

section Owned

variable {cfg : StreamerConfig} {i : ℕ} {s s' : PtzState} {x x' : Origins} {k : CameraChoice}
variable {t t' : PtzThread}

theorem reportedBy_mono {reported reported' : List (String × Position)} {ip : Option String}
    {p : Position} (hsub : ∀ x ∈ reported, x ∈ reported')
    (h : reportedBy reported ip p = true) : reportedBy reported' ip p = true := by
  cases ip with
  | none => cases h
  | some ip => exact decide_eq_true (hsub _ (of_decide_eq_true h))

theorem Grows.owns (h : Grows s s') {p : Position} (hp : s.owns p = true) : s'.owns p = true := by
  rw [PtzState.owns, h.ip]
  exact reportedBy_mono h.reported hp

theorem Grows.slotOwned (h : Grows s s') (hslot : SlotOwned cfg s)
    (hpresets : s'.camera.applied.presets = s.camera.applied.presets) : SlotOwned cfg s' := by
  intro x hx
  rw [hpresets] at hx
  exact h.owns (hslot x hx)

theorem Grows.memoryOwned (h : Grows s s') (hmemory : MemoryOwned s)
    (hpresets : s'.camera.presets = s.camera.presets) : MemoryOwned s' := by
  intro x hx
  rw [hpresets] at hx
  exact h.owns (hmemory x hx)

/-- What a start knows outlasts what the others do. -/
theorem StartKnows.of_grows (h : StartKnows cfg s t) (hgrows : Grows s s') :
    StartKnows cfg s' t := by
  cases t with
  | camera t =>
      cases t with
      | start pc =>
          cases pc with
          | patch p a | configure p a | collect p a | acquireConfig a | write a =>
              exact fun x hx => reportedBy_mono hgrows.reported (h x hx)
          | releaseConfig data | presets data => exact fun x hx => hgrows.owns (h x hx)
          | _ => trivial
      | _ => trivial
  | _ => trivial

/-- Outside the runtime lock a start knows nothing. -/
theorem startKnows_outside (h : t.insideRuntime = false) : StartKnows cfg s t := by
  cases t with
  | camera t =>
      cases t with
      | start pc => cases pc <;> trivial
      | _ => trivial
  | _ => trivial

/-- What a save knows outlasts what the others do; only a switch makes it old. -/
theorem SaveKnows.of_owns (h : SaveKnows i (s, x) t)
    (howns : ∀ p, s.owns p = true → s'.owns p = true)
    (hposition : x'.position i = true → x.position i = true)
    (hsnapshot : x'.snapshot i = true → x.snapshot i = true) : SaveKnows i (s', x') t := by
  cases t with
  | save n pc =>
      cases pc with
      | store p => exact fun hp => howns p (h (hposition hp))
      | acquire m | merge m | write m a =>
          exact fun hm y hy => howns _ (h (hsnapshot hm) y hy)
      | _ => trivial
  | _ => trivial

/-- A start keeps the presets of the camera that it starts. -/
theorem keptPresets_reported {a : Applied} {p : Profile}
    (h : ∀ x ∈ loadPresets cfg a.presets, reportedBy s.reported a.ip x.2 = true) :
    ∀ x ∈ loadPresets cfg (keptPresets a p), reportedBy s.reported (some p.ip) x.2 = true := by
  intro x hx
  rw [keptPresets] at hx
  split at hx
  · rename_i hip
    have hreported := h x hx
    rw [Applied.ip, hip] at hreported
    exact hreported
  · cases hx

theorem ptzEnv_grows {e : PtzEnv} (h : ptzEnv cfg s e = some s') : Grows s s' := by
  cases e with
  | child e =>
      obtain ⟨camera, hcamera, rfl⟩ := Option.map_eq_some_iff.mp h
      exact ⟨fun _ hx => hx, congrArg Applied.ip (childNext_slot hcamera).1⟩
  | patrolAt slot =>
      cases h
      exact ⟨fun _ hx => hx, rfl⟩
  | answer pan tilt =>
      simp only [ptzEnv] at h
      split at h <;> cases h
      exact ⟨fun _ hx => List.mem_cons_of_mem _ hx, rfl⟩
  | ask | fail | store =>
      simp only [ptzEnv] at h
      split at h <;> cases h
      exact ⟨fun _ hx => hx, rfl⟩

end Owned

-- ============================================================================
-- Steps
-- ============================================================================

section Steps

variable {cfg : StreamerConfig} {i j : ℕ} {s s' : PtzState} {x : Origins} {k : CameraChoice}
variable {t t' v : PtzThread}

/-- No thread reports a position or moves a poll; a stop forgets `_current`. -/
theorem ptzNext_polls (h : ptzNext cfg i s t k = some (s', t')) :
    s'.reported = s.reported ∧ s'.poll = s.poll ∧ (s'.current = s.current ∨ s'.current = none) := by
  cases ptzNext_step h with
  | camera t t' camera hc hs =>
      subst hs
      exact ⟨retarget_reported _ _, retarget_poll _ _, retarget_current _ _⟩
  | save n pc pc' hc =>
      obtain ⟨-, hreported, hpoll, hcurrent⟩ := saveNext_frame hc
      exact ⟨hreported, hpoll, .inl hcurrent⟩
  | patrol enabled interval pc pc' hc =>
      obtain ⟨-, hreported, hpoll, hcurrent⟩ := patrolNext_frame hc
      exact ⟨hreported, hpoll, .inl hcurrent⟩

/-- Only a start that writes the slot changes the applied camera. -/
theorem ptzNext_ip (h : ptzNext cfg i s t k = some (s', t'))
    (hheld : t.insideConfig = true → ConfigHeld i s t)
    (hwrite : ∀ a, t ≠ .camera (.start (.write a))) :
    s'.camera.applied.ip = s.camera.applied.ip := by
  cases hin : t.insideConfig with
  | false => rw [ptzNext_applied h hin]
  | true =>
      cases ptzNext_step h with
      | camera t t' camera hc hs =>
          rw [hs, retarget_camera]
          cases streamerNext_slot hc with
          | keep happlied => rw [happlied]
          | promote a ht => exact absurd (congrArg PtzThread.camera ht) (hwrite a)
          | load data _ _ heq => rw [heq]
          | stop a ht _ heq =>
              subst ht heq
              have ha : a = s.camera.applied.stopped := hheld rfl
              rw [ha]
              rfl
      | save n pc pc' hc =>
          cases pc with
          | write m a =>
              have ha : a = { s.camera.applied with presets := dumpPresets m } := hheld rfl
              simp only [saveNext] at hc
              split at hc <;> cases hc
              · rfl
              · rw [ha]
                rfl
          | merge m | release o =>
              cases hc
              rfl
          | _ => cases hin
      | patrol enabled interval pc pc' hc =>
          cases pc with
          | write p a =>
              have ha : a = { s.camera.applied with patrol := p } := hheld rfl
              simp only [patrolNext] at hc
              split at hc <;> cases hc
              · rfl
              · rw [ha]
                rfl
          | merge p | release o =>
              cases hc
              rfl
          | _ => cases hin

theorem ptzNext_grows (h : ptzNext cfg i s t k = some (s', t'))
    (hheld : t.insideConfig = true → ConfigHeld i s t)
    (hwrite : ∀ a, t ≠ .camera (.start (.write a))) : Grows s s' where
  reported := by
    rw [(ptzNext_polls h).1]
    exact fun _ hx => hx
  ip := ptzNext_ip h hheld hwrite

/-- A step that moves no presets changes the bookkeeping of one position at most. -/
theorem recordOrigins_plain (h : t.movesPresets = false) :
    recordOrigins i s t x = x ∨ ((∃ n, t = .save n .read) ∧
      recordOrigins i s t x = { x with position := Function.update x.position i x.current }) := by
  cases t with
  | camera t =>
      cases t with
      | start pc => cases pc <;> first | exact .inl rfl | cases h
      | _ => exact .inl rfl
  | save n pc =>
      cases pc with
      | read => exact .inr ⟨⟨n, rfl⟩, rfl⟩
      | store p | write m a => cases h
      | _ => exact .inl rfl
  | patrol enabled interval pc => exact .inl rfl

/-- A position is one from after the switch when it was before, or was read from one that is. -/
theorem position_fresh (h : (recordOrigins i s t x).position j = true) :
    x.position j = true ∨ (j = i ∧ (∃ n, t = .save n .read) ∧ x.current = true) := by
  unfold recordOrigins at h
  split at h
  · split at h
    · exact .inl h
    · cases h
  · exact .inl h
  · by_cases hji : j = i
    · subst hji
      exact .inr ⟨rfl, ⟨_, rfl⟩, (Function.update_self _ _ _).symm.trans h⟩
    · exact .inl ((Function.update_of_ne hji _ _).symm.trans h)
  · exact .inl h
  · exact .inl h

theorem snapshot_fresh (h : (recordOrigins i s t x).snapshot j = true) :
    x.snapshot j = true ∨ (j = i ∧ (∃ n p, t = .save n (.store p)) ∧ x.memory = true) := by
  unfold recordOrigins at h
  split at h
  · split at h
    · exact .inl h
    · cases h
  · exact .inl h
  · exact .inl h
  · by_cases hji : j = i
    · subst hji
      exact .inr ⟨rfl, ⟨_, _, rfl⟩, (Function.update_self _ _ _).symm.trans h⟩
    · exact .inl ((Function.update_of_ne hji _ _).symm.trans h)
  · exact .inl h

/-- Only a switch that finds presets in memory makes them old. -/
theorem memory_kept (h : x.memory = true)
    (hempty : ∀ a, t = .camera (.start (.write a)) →
      a.ip = s.camera.applied.ip ∨ s.camera.presets.isEmpty = true) :
    (recordOrigins i s t x).memory = true := by
  unfold recordOrigins
  split
  · rename_i a
    split
    · exact h
    · exact (hempty a rfl).resolve_left ‹_›
  · rfl
  · exact h
  · exact h
  · exact h

/-- A save keeps what it knows, when the position it stores is one of the applied camera. -/
theorem saveKnows_own (h : ptzNext cfg i s t k = some (s', t')) (hgrows : Grows s s')
    (hok : OriginsOk (s, x)) (hknows : SaveKnows i (s, x) t)
    (hstore : ∀ n p, t = .save n (.store p) → s.owns p = true) :
    SaveKnows i (s', recordOrigins i s t x) t' := by
  cases ptzNext_step h with
  | camera t t' camera hc hs => trivial
  | patrol enabled interval pc pc' hc => trivial
  | save n pc pc' hc =>
      cases pc with
      | enter =>
          simp only [saveNext] at hc
          split at hc <;> cases hc
          trivial
      | read =>
          cases hc
          split
          · split
            · rename_i p hp
              intro hposition
              exact hok.current ((Function.update_self _ _ _).symm.trans hposition) p hp
            · trivial
          · trivial
      | store p =>
          cases hc
          intro hsnapshot y hy
          have hmemory := hok.memory ((Function.update_self _ _ _).symm.trans hsnapshot)
          rcases mem_setPreset hy with rfl | hy
          · exact hgrows.owns (hstore n p rfl)
          · exact hgrows.owns (hmemory y hy)
      | acquire m =>
          simp only [saveNext] at hc
          split at hc <;> cases hc
          exact fun hsnapshot y hy => hknows hsnapshot y hy
      | merge m =>
          cases hc
          exact fun hsnapshot y hy => hknows hsnapshot y hy
      | write m a =>
          simp only [saveNext] at hc
          split at hc <;> cases hc <;> trivial
      | release o | finish o =>
          cases hc
          trivial
      | answered o => cases hc

/-- A start keeps what it knows: what it is to write and to load are positions of its camera. -/
theorem startKnows_own (h : ptzNext cfg i s t k = some (s', t'))
    (hgrows : (∀ a, t ≠ .camera (.start (.write a))) → Grows s s') (hslot : SlotOwned cfg s)
    (hknows : StartKnows cfg s t) : StartKnows cfg s' t' := by
  cases ptzNext_step h with
  | save n pc pc' hc | patrol enabled interval pc pc' hc => trivial
  | camera t t' camera hc hs =>
      cases next_handler hc with
      | register config pc pc' hb | stop pc pc' hb | restore pc pc' hb => trivial
      | start pc pc' hb =>
          cases pc with
          | write a =>
              cases hb
              intro y hy
              have howns := hknows y hy
              rwa [PtzState.owns, hs, retarget_camera, retarget_reported]
          | acquire =>
              simp only [startNext] at hb
              split at hb <;> cases hb
              trivial
          | registered =>
              cases hb
              split
              · trivial
              · split <;> trivial
          | applied p =>
              cases hb
              have hgrows : Grows s s' := hgrows fun a heq => by cases heq
              exact fun y hy => reportedBy_mono hgrows.reported (keptPresets_reported hslot y hy)
          | patch p a =>
              obtain ⟨ok, -, rfl⟩ := startNext_patch hb
              cases ok with
              | true => exact StartKnows.of_grows hknows (hgrows fun a heq => by cases heq)
              | false => trivial
          | configure p a | collect p a =>
              cases hb
              exact StartKnows.of_grows hknows (hgrows fun a heq => by cases heq)
          | acquireConfig a =>
              simp only [startNext] at hb
              split at hb <;> cases hb
              exact StartKnows.of_grows hknows (hgrows fun a heq => by cases heq)
          | releaseConfig data =>
              cases hb
              exact StartKnows.of_grows hknows (hgrows fun a heq => by cases heq)
          | presets data | release o =>
              cases hb
              trivial
          | returned o => cases hb

/-- Whatever a step does that does not switch the camera, what was so from after the last switch
    stays so. -/
theorem OriginsOk.of_grows {x' : Origins} (h : OriginsOk (s, x)) (hgrows : Grows s s')
    (hpolls : s'.poll = s.poll ∧ (s'.current = s.current ∨ s'.current = none))
    (hpoll : x'.poll = x.poll) (hcurrent : x'.current = x.current)
    (hmemory : x'.memory = true → MemoryOwned s') : OriginsOk (s', x') where
  asked hx ip hasked := by
    rw [hgrows.ip]
    exact h.asked (hpoll.symm.trans hx) ip (hpolls.1.symm.trans hasked)
  answered hx p hanswered :=
    hgrows.owns (h.answered (hpoll.symm.trans hx) p (hpolls.1.symm.trans hanswered))
  current hx p hp := by
    rcases hpolls.2 with hsame | hnone
    · exact hgrows.owns (h.current (hcurrent.symm.trans hx) p (hsame.symm.trans hp))
    · rw [hnone] at hp
      cases hp
  memory := hmemory

/-- After a switch nothing is known but of a memory that was empty. -/
theorem originsOk_switched (hpresets : s'.camera.presets = s.camera.presets) :
    OriginsOk (s',
      { poll := false
        current := false
        memory := s.camera.presets.isEmpty
        position := fun _ => false
        snapshot := fun _ => false }) where
  asked hx := by cases hx
  answered hx := by cases hx
  current hx := by cases hx
  memory hempty y hy := by
    have hnil : s'.camera.presets = [] := hpresets.trans (List.isEmpty_iff.mp hempty)
    rw [hnil] at hy
    cases hy

theorem originsOk_own (h : OriginsOk (s, x)) (hn : ptzNext cfg i s t k = some (s', t'))
    (hstep : PresetsStep cfg k s s' t t')
    (hgrows : (∀ a, t ≠ .camera (.start (.write a))) → Grows s s')
    (hstart : StartKnows cfg s t) (hstore : ∀ n p, t = .save n (.store p) → s.owns p = true) :
    OriginsOk (s', recordOrigins i s t x) := by
  have hpolls := (ptzNext_polls hn).2
  cases hstep with
  | keep t t' _ hmemory _ _ hplain =>
      have hgrows : Grows s s' := hgrows fun a ht => by rw [ht] at hplain; cases hplain
      rcases recordOrigins_plain (i := i) (s := s) (x := x) hplain with hx | ⟨-, hx⟩ <;> rw [hx]
      · exact h.of_grows hgrows hpolls rfl rfl fun hm => hgrows.memoryOwned (h.memory hm) hmemory
      · exact h.of_grows hgrows hpolls rfl rfl fun hm => hgrows.memoryOwned (h.memory hm) hmemory
  | promote a happlied hmemory =>
      simp only [recordOrigins]
      split
      · rename_i hip
        have hsame : Grows s s' :=
          ⟨by rw [(ptzNext_polls hn).1]; exact fun _ hy => hy, by rw [happlied, hip]⟩
        exact h.of_grows hsame hpolls rfl rfl fun hm => hsame.memoryOwned (h.memory hm) hmemory
      · exact originsOk_switched hmemory
  | load data _ hmemory =>
      have hgrows : Grows s s' := hgrows fun a ht => by cases ht
      refine h.of_grows hgrows hpolls rfl rfl fun _ y hy => ?_
      rw [hmemory] at hy
      exact hgrows.owns (hstart y hy)
  | store n p _ hmemory =>
      have hgrows : Grows s s' := hgrows fun a ht => by cases ht
      refine h.of_grows hgrows hpolls rfl rfl fun hm y hy => ?_
      rw [hmemory] at hy
      rcases mem_setPreset hy with rfl | hy
      · exact hgrows.owns (hstore n p rfl)
      · exact hgrows.owns (h.memory hm y hy)
  | write n m a o _ hmemory =>
      have hgrows : Grows s s' := hgrows fun a ht => by cases ht
      exact h.of_grows hgrows hpolls rfl rfl fun hm => hgrows.memoryOwned (h.memory hm) hmemory

/-- The slot keeps positions of the applied camera, when a save writes such positions. -/
theorem slotOwned_own (hcfg : LawfulStreamer cfg) (hslot : SlotOwned cfg s)
    (hn : ptzNext cfg i s t k = some (s', t')) (hstep : PresetsStep cfg k s s' t t')
    (hgrows : (∀ a, t ≠ .camera (.start (.write a))) → Grows s s') (hstart : StartKnows cfg s t)
    (hcarries : CarriesOk cfg i s t)
    (hwrite : k ≠ .refused → ∀ n m a, t = .save n (.write m a) → ∀ y ∈ m, s.owns y.2 = true) :
    SlotOwned cfg s' := by
  cases hstep with
  | keep t t' hsame _ _ _ hplain =>
      have hgrows : Grows s s' := hgrows fun a ht => by rw [ht] at hplain; cases hplain
      exact hgrows.slotOwned hslot hsame
  | promote a happlied =>
      intro y hy
      rw [happlied] at hy
      rw [PtzState.owns, happlied, (ptzNext_polls hn).1]
      exact hstart y hy
  | load data hsame | store n p hsame =>
      exact (hgrows fun a ht => by cases ht).slotOwned hslot hsame
  | write n m a o hslot' =>
      have hgrows : Grows s s' := hgrows fun a ht => by cases ht
      by_cases hk : k = .refused
      · exact hgrows.slotOwned hslot (by rw [hslot', if_pos hk])
      · intro y hy
        rw [hslot', if_neg hk] at hy
        exact hgrows.owns (hwrite hk n m a rfl y (mem_loadPresets_dump hcfg hcarries hy))

/-- What the poll does to what was so from after the last switch. -/
theorem originsOk_env {e : PtzEnv} (h : OriginsOk (s, x)) (he : ptzEnv cfg s e = some s') :
    OriginsOk (s', recordPolls s e x) := by
  have hgrows := ptzEnv_grows he
  have hmemory : x.memory = true → MemoryOwned s' :=
    fun hm => hgrows.memoryOwned (h.memory hm) (ptzEnv_config he).2.1
  cases e with
  | child e =>
      obtain ⟨camera, -, rfl⟩ := Option.map_eq_some_iff.mp he
      exact h.of_grows hgrows ⟨rfl, .inl rfl⟩ rfl rfl hmemory
  | patrolAt slot =>
      cases he
      exact h.of_grows hgrows ⟨rfl, .inl rfl⟩ rfl rfl hmemory
  | ask =>
      simp only [ptzEnv] at he
      split at he <;> cases he
      rename_i ip _ htarget
      refine ⟨fun hx ip' hasked => ?_, fun _ p hp => (by cases hp), h.current, hmemory⟩
      cases hasked
      exact (of_decide_eq_true hx).symm.trans htarget
  | answer pan tilt =>
      simp only [ptzEnv] at he
      split at he <;> cases he
      rename_i ip hasked
      refine ⟨fun _ ip' hp => (by cases hp), fun hx p hp => ?_,
        fun hx p hp => hgrows.owns (h.current hx p hp), hmemory⟩
      cases hp
      rw [PtzState.owns, h.asked hx ip hasked]
      exact decide_eq_true List.mem_cons_self
  | fail =>
      simp only [ptzEnv] at he
      split at he <;> cases he
      exact ⟨fun _ ip hp => (by cases hp), fun _ p hp => (by cases hp), h.current, hmemory⟩
  | store =>
      simp only [ptzEnv] at he
      split at he <;> cases he
      rename_i q hanswered
      refine ⟨fun _ ip hp => (by cases hp), fun _ p hp => (by cases hp), fun hx p hp => ?_, hmemory⟩
      cases hp
      exact h.answered hx q hanswered

end Steps

-- ============================================================================
-- Runs
-- ============================================================================

/-- The locks are held, and the values are in range. -/
structure PtzKnown (cfg : StreamerConfig) (c : Conf PtzState PtzThread) : Prop where
  locks : LocksHeld c
  values : Annotated (PtzInv cfg) (CarriesOk cfg) c

/-- What is so of the shared state. -/
structure OwnedState (cfg : StreamerConfig) (s : PtzState × Origins) : Prop where
  slot : SlotOwned cfg s.1
  origins : OriginsOk s

/-- What is so of a thread. -/
structure OwnedThread (cfg : StreamerConfig) (i : ℕ) (s : PtzState × Origins) (t : PtzThread) :
    Prop where
  start : StartKnows cfg s.1 t
  save : SaveKnows i s t

section Runs

variable {cfg : StreamerConfig} {c c' : Conf (PtzState × Origins) PtzThread} {i j : ℕ}
variable {s' : PtzState} {k : CameraChoice} {t t' v : PtzThread}
variable {e : Event PtzRequest CameraChoice PtzEnv}

theorem savesFresh_store (hG : SavesFresh c (.sched i k)) (ht : c.pool[i]? = some t)
    (hsave : SaveKnows i c.shared t) :
    ∀ n p, t = .save n (.store p) → c.shared.1.owns p = true := by
  rintro n p rfl
  simp only [SavesFresh, savesFresh, ht] at hG
  exact hsave hG

theorem savesFresh_write (hG : SavesFresh c (.sched i k)) (ht : c.pool[i]? = some t)
    (hsave : SaveKnows i c.shared t) :
    k ≠ .refused → ∀ n m a, t = .save n (.write m a) → ∀ y ∈ m, c.shared.1.owns y.2 = true := by
  rintro hk n m a rfl
  simp only [SavesFresh, savesFresh, ht, Bool.or_eq_true, beq_iff_eq] at hG
  exact hsave (hG.resolve_left hk)

/-- Another thread leaves what a thread knows, or switches the camera; then no start is between its
    two ends, and everything a save knows is old. -/
theorem ownedThread_others (hlocks : LocksHeld c.base) (ht : c.pool[i]? = some t)
    (hv : c.pool[j]? = some v) (hne : j ≠ i) (hn : ptzNext cfg i c.shared.1 t k = some (s', t'))
    (h : OwnedThread cfg j c.shared v) :
    OwnedThread cfg j (s', recordOrigins i c.shared.1 t c.shared.2) v := by
  have hheld : t.insideConfig = true → ConfigHeld i c.shared.1 t :=
    fun hin => (hlocks.config.2 i t ht hin).2
  have hposition : ∀ {x : Origins}, (recordOrigins i c.shared.1 t x).position j = true →
      x.position j = true := fun hx => (position_fresh hx).resolve_right fun hi => hne hi.1
  have hsnapshot : ∀ {x : Origins}, (recordOrigins i c.shared.1 t x).snapshot j = true →
      x.snapshot j = true := fun hx => (snapshot_fresh hx).resolve_right fun hi => hne hi.1
  by_cases hwrite : ∃ a, t = .camera (.start (.write a))
  · obtain ⟨a, rfl⟩ := hwrite
    have hout : v.insideRuntime = false := by
      cases hin : v.insideRuntime with
      | false => rfl
      | true => exact absurd (hlocks.runtime_alone hv ht hin rfl) hne
    refine ⟨startKnows_outside hout, ?_⟩
    have happlied : s'.camera.applied = a := by
      cases ptzNext_presets hn hheld with
      | keep t t' _ _ _ _ hplain => cases hplain
      | promote a happlied => exact happlied
    by_cases hip : a.ip = c.shared.1.camera.applied.ip
    · refine h.save.of_owns (fun p hp => ?_) hposition hsnapshot
      rw [PtzState.owns, happlied, hip, (ptzNext_polls hn).1]
      exact hp
    · rw [recordOrigins, if_neg hip]
      cases v with
      | save n pc => cases pc <;> first | trivial | exact fun hx => by cases hx
      | _ => trivial
  · have hgrows := ptzNext_grows hn hheld fun a ha => hwrite ⟨a, ha⟩
    exact ⟨h.start.of_grows hgrows, h.save.of_owns (fun p => hgrows.owns) hposition hsnapshot⟩

/-- The proof outline of the presets, where the writers of the slot are known. -/
theorem owned_outline (hcfg : LawfulStreamer cfg) :
    OwickiGries (switching cfg) (fun c e => SavesFresh c e ∧ PtzKnown cfg c.base)
      (OwnedState cfg) (OwnedThread cfg) where
  enter i s r _ := by
    cases r with
    | camera r => cases r <;> exact ⟨trivial, trivial⟩
    | save n | patrol enabled interval => exact ⟨trivial, trivial⟩
  own c i k t s' t' hc hG ht hn := by
    obtain ⟨hfresh, hknown⟩ := hG
    obtain ⟨hn, hx⟩ := Prog.recorded_next hn
    have hn : ptzNext cfg i c.shared.1 t k = some (s'.1, t') := hn
    have hheld : t.insideConfig = true → ConfigHeld i c.shared.1 t :=
      fun hin => (hknown.locks.config.2 i t ht hin).2
    have hgrows := ptzNext_grows hn hheld
    have hstep := ptzNext_presets hn hheld
    have hthread := hc.2 i t ht
    have hstore := savesFresh_store hfresh ht hthread.save
    rw [← Prod.mk.eta (p := s'), hx]
    refine ⟨⟨?_, ?_⟩, ⟨startKnows_own hn hgrows hc.1.slot hthread.start, ?_⟩⟩
    · exact slotOwned_own hcfg hc.1.slot hn hstep hgrows hthread.start (hknown.values.2 i t ht)
        (savesFresh_write hfresh ht hthread.save)
    · exact originsOk_own hc.1.origins hn hstep hgrows hthread.start hstore
    · by_cases hwrite : ∃ a, t = .camera (.start (.write a))
      · obtain ⟨a, rfl⟩ := hwrite
        cases ptzNext_step hn with
        | camera t t' camera hcam hs => trivial
      · exact saveKnows_own hn (hgrows fun a ha => hwrite ⟨a, ha⟩) hc.1.origins hthread.save hstore
  others c i k t s' t' j v hc hG ht hn hne hj := by
    obtain ⟨hn, hx⟩ := Prog.recorded_next hn
    rw [← Prod.mk.eta (p := s'), hx]
    exact ownedThread_others hG.2.locks ht hj hne hn (hc.2 j v hj)
  env c e s' hc _ he := by
    obtain ⟨he, hx⟩ := Prog.recorded_env he
    have hgrows := ptzEnv_grows he
    rw [← Prod.mk.eta (p := s'), hx]
    refine ⟨⟨?_, originsOk_env hc.1.origins he⟩, fun j v hj => ?_⟩
    · exact hgrows.slotOwned hc.1.slot (by rw [(ptzEnv_config he).1])
    · have hold := hc.2 j v hj
      refine ⟨hold.start.of_grows hgrows, hold.save.of_owns (fun p => hgrows.owns) ?_ ?_⟩
      · exact fun hx => by cases e <;> exact hx
      · exact fun hx => by cases e <;> exact hx

/-- What every run that `SavesFresh` allows keeps. -/
structure OwnedInv (cfg : StreamerConfig) (c : Conf (PtzState × Origins) PtzThread) : Prop where
  known : PtzKnown cfg c.base
  owned : Annotated (OwnedState cfg) (OwnedThread cfg) c

theorem OwnedInv.step (hcfg : LawfulStreamer cfg) (h : OwnedInv cfg c) (hG : SavesFresh c e)
    (hs : (switching cfg).step c e = some c') : OwnedInv cfg c' := by
  have hbase := Prog.recorded_step hs
  refine ⟨⟨h.known.locks.step hbase, ?_⟩, ?_⟩
  · exact (values_outline hcfg free).step c.base e c'.base h.known.values trivial hbase
  · exact (owned_outline hcfg).step c e c' h.owned ⟨hG, h.known⟩ hs

theorem ownedInv_start (hcfg : LawfulStreamer cfg) {registered : Option Payload} {applied : Applied}
    {reported : List (String × Position)}
    (hslot : SlotOwned cfg (ptzStart cfg registered applied reported).shared) :
    OwnedInv cfg (switchingStart cfg registered applied reported) where
  known := ⟨locksHeld_start cfg registered applied reported,
    ptzInv_start hcfg registered applied reported⟩
  owned := by
    refine ⟨⟨hslot, ?_⟩, fun i t ht => by cases ht⟩
    exact ⟨fun hx => (by cases hx), fun hx => (by cases hx), fun hx => (by cases hx),
      fun _ => hslot⟩

/-- A step keeps the memory fresh, or a start is to load it. -/
theorem memory_paysOff (hstep : PresetsStep cfg k c.shared.1 s' t t') :
    PaysOff (fun s => s.2.memory = true) PtzThread.toLoad c i t
      (s', recordOrigins i c.shared.1 t c.shared.2) t' := by
  cases hstep with
  | keep t t' _ _ hloads _ hplain =>
      have hmemory : (recordOrigins i c.shared.1 t c.shared.2).memory = c.shared.2.memory := by
        rcases recordOrigins_plain (i := i) (s := c.shared.1) (x := c.shared.2) hplain
          with hx | ⟨-, hx⟩ <;> rw [hx]
      cases hold : t.toLoad with
      | true => exact .inl (by rw [PtzThread.toLoad, hloads]; exact hold)
      | false => exact .inr (.inr (.inr ⟨hold, fun hm => hmemory.trans hm⟩))
  | promote a => exact .inl rfl
  | load data => exact .inr (.inl rfl)
  | store n p | write n m a o => exact .inr (.inr (.inr ⟨rfl, fun hm => hm⟩))

/-- The presets in memory date from after the last switch, or a start is to load them. -/
theorem memory_owed (hlocks : LocksHeld c.base)
    (h : Owed (fun s => s.2.memory = true) PtzThread.toLoad c)
    (hs : (switching cfg).step c e = some c') :
    Owed (fun s => s.2.memory = true) PtzThread.toLoad c' := by
  refine h.step hs ?_ ?_
  · rintro i k t s' t' rfl ht hn
    obtain ⟨hn, hx⟩ := Prog.recorded_next hn
    rw [← Prod.mk.eta (p := s'), hx]
    exact memory_paysOff (ptzNext_presets hn fun hin => (hlocks.config.2 i t ht hin).2)
  · rintro x s' rfl he hm
    rw [(Prog.recorded_env he).2]
    cases x <;> exact hm

/-- Where every switch finds an empty memory, no presets in memory date from before one. -/
theorem memory_fresh (hG : FreshThroughout c e) (h : c.shared.2.memory = true)
    (hs : (switching cfg).step c e = some c') : c'.shared.2.memory = true := by
  have hempty : switchesEmpty c e = true := (Bool.and_eq_true_iff.mp hG).2
  rcases Prog.step_cases hs with ⟨r, rfl, rfl⟩ | ⟨i, k, t, s', t', rfl, ht, hn, rfl⟩ |
      ⟨x, s', rfl, he, rfl⟩
  · exact h
  · show s'.2.memory = true
    rw [(Prog.recorded_next hn).2]
    refine memory_kept h ?_
    rintro a rfl
    simpa only [switchesEmpty, ht, Bool.or_eq_true, decide_eq_true_eq] using hempty
  · show s'.2.memory = true
    rw [(Prog.recorded_env he).2]
    cases x <;> exact h

/-- In a run in which every save takes a position that was polled from the applied camera, and the
    camera is not switched from the poll on to the end of the save, nor a save made between a
    switch and the load of the presets, the applied slot holds positions of the applied camera in
    every state, and so does the memory, but while a start that has written the slot is to load the
    presets; there it does as well when every start that switches the camera finds no presets in
    memory. -/
theorem presets_of_camera (hcfg : LawfulStreamer cfg) {registered : Option Payload}
    {applied : Applied} {reported : List (String × Position)}
    (hslot : SlotOwned cfg (ptzStart cfg registered applied reported).shared)
    (h : Steps (switching cfg).step SavesFresh
      (switchingStart cfg registered applied reported) c) :
    SlotOwned cfg c.shared.1 ∧
      ((∀ t ∈ c.pool, t.toLoad = false) → MemoryOwned c.shared.1) ∧
      (Steps (switching cfg).step FreshThroughout
        (switchingStart cfg registered applied reported) c → MemoryOwned c.shared.1) := by
  have hstart := ownedInv_start hcfg hslot
  have hinv : OwnedInv cfg c := h.invariant (fun _ _ _ hi hG hs => hi.step hcfg hG hs) hstart
  refine ⟨hinv.owned.1.slot, fun hloaded => hinv.owned.1.origins.memory ?_,
    fun hclean => hinv.owned.1.origins.memory ?_⟩
  · have howed : Owed (fun s => s.2.memory = true) PtzThread.toLoad c :=
      h.invariant_under (J := OwnedInv cfg) (fun _ _ _ hi hG hs => hi.step hcfg hG hs)
        (fun _ _ _ hi hk _ hs => memory_owed hi.known.locks hk hs) hstart (.inl rfl)
    exact howed.settled hloaded
  · exact hclean.invariant (K := fun c => c.shared.2.memory = true)
      (fun _ _ _ hk hG hs => memory_fresh hG hk hs) rfl

end Runs

-- ============================================================================
-- Executions
-- ============================================================================

/-- A start, a preset, and a restart of the same camera. -/
def presetKept : List (Event PtzRequest CameraChoice PtzEnv) :=
  .env (.child .popen) :: ptzStartUpTo 0 ++ ptzStartRest 0 ++ pollAt (1 / 2) (1 / 4) ++
    .enter (.save 1) :: goesPtz 1 8 ++ ptzStartUpTo 2 ++ ptzStartRest 2

/-- A start, the registration and start of another camera, and a preset before the next poll. -/
def presetAfterSwitch : List (Event PtzRequest CameraChoice PtzEnv) :=
  .env (.child .popen) :: ptzStartUpTo 0 ++ ptzStartRest 0 ++ pollAt (1 / 2) (1 / 4) ++
    .enter (.camera (.register (cameraAt "192.0.2.8"))) :: goesPtz 1 5 ++ ptzStartUpTo 2 ++
    ptzStartRest 2 ++ .enter (.save 1) :: goesPtz 3 8

def sampleSwitching : Conf (PtzState × Origins) PtzThread :=
  switchingStart samplePtzConfig (some (cameraAt "192.0.2.7")) neverStarted []

theorem presets_of_camera_kept :
    ∃ c : Conf (PtzState × Origins) PtzThread, c.shared.1.camera.presets.length = 1 ∧
      SlotOwned samplePtzConfig c.shared.1 ∧
      ((∀ t ∈ c.pool, t.toLoad = false) → MemoryOwned c.shared.1) ∧
      (Steps (switching samplePtzConfig).step FreshThroughout sampleSwitching c →
        MemoryOwned c.shared.1) := by
  have hrun : (run (guardedStep (switching samplePtzConfig).step FreshThroughout) sampleSwitching
      presetKept).map (fun c => c.shared.1.camera.presets.length) = some 1 := by
    with_unfolding_all decide
  obtain ⟨c, hc, hpresets⟩ := Option.map_eq_some_iff.mp hrun
  have hclean : Steps (switching samplePtzConfig).step FreshThroughout sampleSwitching c :=
    Steps.of_runGuarded hc
  have hsaves : Steps (switching samplePtzConfig).step SavesFresh sampleSwitching c :=
    Relation.ReflTransGen.mono (fun _ _ ⟨e, hG, hs⟩ => ⟨e, (Bool.and_eq_true_iff.mp hG).1, hs⟩)
      _ _ hclean
  exact ⟨c, hpresets,
    presets_of_camera samplePtzConfig_lawful (fun x hx => by cases hx) hsaves⟩

/-- The position of the camera before is saved as a preset of the camera after. -/
theorem preset_of_previous_camera :
    ¬ ∀ c : Conf PtzState PtzThread, Steps (ptz samplePtzConfig).step free samplePtz c →
      SlotOwned samplePtzConfig c.shared ∧ MemoryOwned c.shared := by
  intro hclaim
  have hrun : (run (ptz samplePtzConfig).step samplePtz presetAfterSwitch).map
      (fun c => decide (MemoryOwned c.shared)) = some false := by
    decide
  obtain ⟨c, hc, hmemory⟩ := Option.map_eq_some_iff.mp hrun
  exact of_decide_eq_false hmemory (hclaim c (Steps.of_run hc)).2

end Babycat.Streamer
