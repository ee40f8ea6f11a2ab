/-
  Babycat.Streamer.PtzValues

  The PTZ values in memory and what is stored of them.

  The presets are a finite map: `loadPresets` sets one preset after the other
  and gives back what `dumpPresets` has stored.  The patrol is a mapping whose
  setting is what `load_patrol` makes of it.  `PtzInv` says that all values in
  memory are of the kind that a restart reproduces.
-/

import Babycat.Streamer.PtzLocks

namespace Babycat.Streamer

open Babycat.Conc
open Babycat.Recorder (Json Payload PyFloat)

/-- What Python's conversions do with the values that the process itself has stored. -/
structure LawfulStreamer (cfg : StreamerConfig) : Prop where
  toInt_slot : ∀ slot ∈ [1, 2, 3, 4], cfg.toInt (toString slot) = some slot
  toFloat_float : ∀ x, cfg.toFloat (.float x) = some x
  round3_round3 : ∀ x, cfg.round3 (cfg.round3 x) = cfg.round3 x

def Rounded (cfg : StreamerConfig) (p : Position) : Prop :=
  cfg.round3 p.1 = p.1 ∧ cfg.round3 p.2 = p.2

structure PresetsOk (cfg : StreamerConfig) (m : Presets) : Prop where
  nodup : (m.map Prod.fst).Nodup
  entry : ∀ x ∈ m, x.1 ∈ [1, 2, 3, 4] ∧ Rounded cfg x.2

-- ============================================================================
-- Setting one preset
-- ============================================================================

section Set

variable {m : Presets} {slot : ℤ} {p : Position}

theorem lookup_filter_ne (m : Presets) (slot j : ℤ) :
    (m.filter fun other => other.1 != slot).lookup j = if j = slot then none else m.lookup j := by
  induction m with
  | nil => simp
  | cons x rest ih =>
      by_cases hx : x.1 = slot
      · rw [List.filter_cons_of_neg (by simp [hx]), ih]
        by_cases hj : j = slot
        · rw [if_pos hj, if_pos hj]
        · rw [if_neg hj, if_neg hj, List.lookup_cons, beq_eq_false_iff_ne.mpr (hx ▸ hj)]
      · rw [List.filter_cons_of_pos (by simp [hx]), List.lookup_cons, List.lookup_cons, ih]
        by_cases hj : j = x.1
        · simp only [hj, beq_self_eq_true, if_neg hx]
        · rw [beq_eq_false_iff_ne.mpr hj]

theorem lookup_setPreset (m : Presets) (slot : ℤ) (p : Position) (j : ℤ) :
    (setPreset m slot p).lookup j = if j = slot then some p else m.lookup j := by
  rw [setPreset, List.lookup_cons, lookup_filter_ne]
  by_cases hj : j = slot
  · simp only [hj, beq_self_eq_true, if_true]
  · rw [beq_eq_false_iff_ne.mpr hj, if_neg hj, if_neg hj]

theorem mem_setPreset {x : ℤ × Position} (h : x ∈ setPreset m slot p) :
    x = (slot, p) ∨ x ∈ m := by
  rcases List.mem_cons.mp h with rfl | hmem
  · exact .inl rfl
  · exact .inr (List.mem_filter.mp hmem).1

theorem PresetsOk.set {cfg : StreamerConfig} (h : PresetsOk cfg m) (hslot : slot ∈ [1, 2, 3, 4])
    (hp : Rounded cfg p) : PresetsOk cfg (setPreset m slot p) where
  nodup := by
    rw [setPreset, List.map_cons, List.nodup_cons]
    constructor
    · intro hmem
      obtain ⟨x, hx, heq⟩ := List.mem_map.mp hmem
      have hne := (List.mem_filter.mp hx).2
      rw [heq, bne_self_eq_false] at hne
      cases hne
    · exact h.nodup.sublist (List.filter_sublist.map Prod.fst)
  entry x hx := by
    rcases mem_setPreset hx with rfl | hmem
    · exact ⟨hslot, hp⟩
    · exact h.entry x hmem

end Set

-- ============================================================================
-- Loading
-- ============================================================================

/-- What one stored item adds. -/
def loadItem (cfg : StreamerConfig) (loaded : Presets) (item : String × Json) : Presets :=
  match loadPreset cfg item.1 item.2 with
  | some preset => setPreset loaded preset.1 preset.2
  | none => loaded

theorem loadPresets_eq (cfg : StreamerConfig) (data : Payload) :
    loadPresets cfg data = data.foldl (loadItem cfg) [] := rfl

section Load

variable {cfg : StreamerConfig} {data : Payload} {m : Presets}

/-- What a load makes of an item is in range and rounded. -/
theorem loadPreset_ok (hcfg : LawfulStreamer cfg) {key : String} {value : Json}
    {preset : ℤ × Position} (h : loadPreset cfg key value = some preset) :
    preset.1 ∈ [1, 2, 3, 4] ∧ Rounded cfg preset.2 := by
  simp only [loadPreset] at h
  split at h
  · split at h
    · rename_i hslot
      split at h
      · cases h
        exact ⟨hslot, hcfg.round3_round3 _, hcfg.round3_round3 _⟩
      · cases h
    · cases h
  · cases h

theorem foldl_loadItem_ok (hcfg : LawfulStreamer cfg) {loaded : Presets}
    (h : PresetsOk cfg loaded) : PresetsOk cfg (data.foldl (loadItem cfg) loaded) := by
  induction data generalizing loaded with
  | nil => exact h
  | cons item rest ih =>
      refine ih ?_
      rw [loadItem]
      cases hload : loadPreset cfg item.1 item.2 with
      | none => exact h
      | some preset =>
          obtain ⟨hslot, hrounded⟩ := loadPreset_ok hcfg hload
          exact h.set hslot hrounded

theorem loadPresets_ok (hcfg : LawfulStreamer cfg) : PresetsOk cfg (loadPresets cfg data) := by
  rw [loadPresets_eq]
  exact foldl_loadItem_ok hcfg ⟨List.nodup_nil, fun x hx => by cases hx⟩

theorem mem_foldl_loadItem {loaded : Presets} {x : ℤ × Position}
    (h : x ∈ data.foldl (loadItem cfg) loaded) :
    x ∈ loaded ∨ ∃ item ∈ data, loadPreset cfg item.1 item.2 = some x := by
  induction data generalizing loaded with
  | nil => exact .inl h
  | cons item rest ih =>
      rcases ih h with hmem | ⟨other, hother, hload⟩
      · rw [loadItem] at hmem
        cases hload : loadPreset cfg item.1 item.2 with
        | none =>
            rw [hload] at hmem
            exact .inl hmem
        | some preset =>
            rw [hload] at hmem
            rcases mem_setPreset hmem with rfl | hmem
            · exact .inr ⟨item, List.mem_cons_self, hload⟩
            · exact .inl hmem
      · exact .inr ⟨other, List.mem_cons_of_mem item hother, hload⟩

/-- A loaded preset comes from an item. -/
theorem mem_loadPresets {x : ℤ × Position} (h : x ∈ loadPresets cfg data) :
    ∃ item ∈ data, loadPreset cfg item.1 item.2 = some x := by
  rw [loadPresets_eq] at h
  rcases mem_foldl_loadItem h with hmem | hitem
  · cases hmem
  · exact hitem

-- ============================================================================
-- What is stored is loaded
-- ============================================================================

theorem loadPreset_dump (hcfg : LawfulStreamer cfg) {x : ℤ × Position}
    (hslot : x.1 ∈ [1, 2, 3, 4]) (hrounded : Rounded cfg x.2) :
    loadPreset cfg (toString x.1) (.dict [("pan", .float x.2.1), ("tilt", .float x.2.2)]) =
      some x := by
  simp only [loadPreset, hcfg.toInt_slot x.1 hslot, if_pos hslot]
  have hpan : ([("pan", Json.float x.2.1), ("tilt", .float x.2.2)].lookup "pan").bind
      cfg.toFloat = some x.2.1 := hcfg.toFloat_float x.2.1
  have htilt : ([("pan", Json.float x.2.1), ("tilt", .float x.2.2)].lookup "tilt").bind
      cfg.toFloat = some x.2.2 := hcfg.toFloat_float x.2.2
  rw [hpan, htilt]
  simp only [hrounded.1, hrounded.2]

theorem foldl_loadItem_dump (hcfg : LawfulStreamer cfg) {loaded : Presets}
    (hentry : ∀ x ∈ m, x.1 ∈ [1, 2, 3, 4] ∧ Rounded cfg x.2) :
    (dumpPresets m).foldl (loadItem cfg) loaded =
      m.foldl (fun loaded x => setPreset loaded x.1 x.2) loaded := by
  induction m generalizing loaded with
  | nil => rfl
  | cons x rest ih =>
      obtain ⟨hslot, hrounded⟩ := hentry x List.mem_cons_self
      have hitem : loadItem cfg loaded
          (toString x.1, .dict [("pan", .float x.2.1), ("tilt", .float x.2.2)]) =
          setPreset loaded x.1 x.2 := by
        simp only [loadItem, loadPreset_dump hcfg hslot hrounded]
      rw [dumpPresets, List.map_cons, List.foldl_cons, hitem, List.foldl_cons]
      exact ih fun y hy => hentry y (List.mem_cons_of_mem x hy)

/-- Setting presets with different slots one after the other. -/
theorem lookup_foldl_setPreset {loaded : Presets} (h : (m.map Prod.fst).Nodup) (slot : ℤ) :
    (m.foldl (fun loaded x => setPreset loaded x.1 x.2) loaded).lookup slot =
      (m.lookup slot).or (loaded.lookup slot) := by
  induction m generalizing loaded with
  | nil => rfl
  | cons x rest ih =>
      rw [List.map_cons, List.nodup_cons] at h
      rw [List.foldl_cons, ih h.2, lookup_setPreset, List.lookup_cons]
      by_cases hslot : slot = x.1
      · have hnone : rest.lookup x.1 = none := by
          rw [List.lookup_eq_none_iff]
          intro y hy
          rw [bne_iff_ne]
          exact fun heq => h.1 (List.mem_map.mpr ⟨y, hy, heq.symm⟩)
        rw [hslot, beq_self_eq_true, if_pos rfl, hnone]
        rfl
      · rw [beq_eq_false_iff_ne.mpr hslot, if_neg hslot]

/-- A restart loads the presets that were stored. -/
theorem loadPresets_dump (hcfg : LawfulStreamer cfg) (hm : PresetsOk cfg m) (slot : ℤ) :
    (loadPresets cfg (dumpPresets m)).lookup slot = m.lookup slot := by
  rw [loadPresets_eq, foldl_loadItem_dump hcfg hm.entry, lookup_foldl_setPreset hm.nodup,
    List.lookup_nil, Option.or_none]

theorem mem_loadPresets_dump (hcfg : LawfulStreamer cfg) (hm : PresetsOk cfg m)
    {x : ℤ × Position} (h : x ∈ loadPresets cfg (dumpPresets m)) : x ∈ m := by
  obtain ⟨item, hitem, hload⟩ := mem_loadPresets h
  obtain ⟨y, hy, rfl⟩ := List.mem_map.mp hitem
  obtain ⟨hslot, hrounded⟩ := hm.entry y hy
  rw [loadPreset_dump hcfg hslot hrounded] at hload
  rw [← Option.some.inj hload]
  exact hy

end Load

-- ============================================================================
-- The patrol
-- ============================================================================

theorem lookup_filter_absent (d other : Payload) {key : String} (h : other.lookup key = none) :
    (d.filter fun item => (other.lookup item.1).isNone).lookup key = d.lookup key := by
  induction d with
  | nil => rfl
  | cons item rest ih =>
      by_cases hitem : (other.lookup item.1).isNone = true
      · rw [List.filter_cons_of_pos (by exact hitem), List.lookup_cons, List.lookup_cons, ih]
      · rw [List.filter_cons_of_neg (by exact hitem), ih, List.lookup_cons]
        have hne : key ≠ item.1 := by
          rintro rfl
          rw [h] at hitem
          exact hitem rfl
        rw [beq_eq_false_iff_ne.mpr hne]

theorem get_update (d other : Payload) (key : String) :
    (update d other).get key = (other.lookup key).getD (d.get key) := by
  rw [update, Payload.get, List.lookup_append]
  cases h : other.lookup key with
  | some value => rfl
  | none =>
      rw [lookup_filter_absent d other h]
      rfl

section Patrol

variable {cfg : StreamerConfig} {p q data : Payload}

theorem SamePatrol.setting (h : SamePatrol p q) : patrolSetting cfg p = patrolSetting cfg q := by
  rw [patrolSetting, patrolSetting, h.1, h.2]

theorem interval_ge (cfg : StreamerConfig) (data : Payload) :
    5 ≤ (patrolSetting cfg data).2 := by
  simp only [patrolSetting]
  split
  · exact le_max_left _ _
  · decide

/-- The mapping holds its setting as `load_patrol` and `set_patrol` leave it. -/
def Canonical (cfg : StreamerConfig) (p : Payload) : Prop :=
  p.get "enabled" = .bool (patrolSetting cfg p).1 ∧
    p.get "interval_s" = .int (patrolSetting cfg p).2

/-- A mapping of a flag and an interval that is long enough. -/
theorem canonical_of_get {enabled : Bool} {n : ℤ} (henabled : p.get "enabled" = .bool enabled)
    (hinterval : p.get "interval_s" = .int n) (hn : 5 ≤ n) :
    patrolSetting cfg p = (enabled, n) ∧ Canonical cfg p := by
  have hsetting : patrolSetting cfg p = (enabled, n) := by
    rw [patrolSetting, henabled, hinterval]
    simp only [Json.truthy, pyInt, max_eq_right hn]
  exact ⟨hsetting, by rw [hsetting]; exact henabled, by rw [hsetting]; exact hinterval⟩

theorem loadPatrol_canonical (cfg : StreamerConfig) (data : Payload) :
    patrolSetting cfg (loadPatrol cfg data) = patrolSetting cfg data ∧
      Canonical cfg (loadPatrol cfg data) := by
  have hloaded : patrolSetting cfg (loadPatrol cfg data) =
      ((patrolSetting cfg data).1, (patrolSetting cfg data).2) ∧
        Canonical cfg (loadPatrol cfg data) :=
    canonical_of_get rfl rfl (interval_ge cfg data)
  exact hloaded

theorem setPatrol_canonical {enabled : Bool} {interval : Option ℤ} (h : Canonical cfg p) :
    Canonical cfg (setPatrol p enabled interval) := by
  have henabled : (setPatrol p enabled interval).get "enabled" = .bool enabled := by
    rw [setPatrol, get_update]
    rfl
  cases interval with
  | none =>
      have hinterval : (setPatrol p enabled none).get "interval_s" =
          .int (patrolSetting cfg p).2 := by
        rw [setPatrol, get_update]
        exact h.2
      exact (canonical_of_get henabled hinterval (interval_ge cfg p)).2
  | some n =>
      have hinterval : (setPatrol p enabled (some n)).get "interval_s" = .int (max 5 n) := by
        rw [setPatrol, get_update]
        rfl
      exact (canonical_of_get henabled hinterval (le_max_left _ _)).2

theorem setPatrolSlot_same (p : Payload) (slot : Option ℤ) :
    SamePatrol (setPatrolSlot p slot) p := by
  constructor <;> rw [setPatrolSlot, get_update] <;> rfl

theorem Canonical.of_same (h : Canonical cfg p) (hsame : SamePatrol q p) : Canonical cfg q := by
  rw [Canonical, hsame.1, hsame.2, hsame.setting]
  exact h

end Patrol

-- ============================================================================
-- The values in memory
-- ============================================================================

structure PtzInv (cfg : StreamerConfig) (s : PtzState) : Prop where
  current : ∀ p, s.current = some p → Rounded cfg p
  poll : ∀ p, s.poll = .answered p → Rounded cfg p
  presets : PresetsOk cfg s.camera.presets
  patrol : Canonical cfg s.camera.patrol

/-- What a thread carries. -/
def CarriesOk (cfg : StreamerConfig) (_ : ℕ) (_ : PtzState) : PtzThread → Prop
  | .save slot (.store p) => slot ∈ [1, 2, 3, 4] ∧ Rounded cfg p
  | .save _ (.acquire m) | .save _ (.merge m) | .save _ (.write m _) => PresetsOk cfg m
  | _ => True

section Inv

variable {cfg : StreamerConfig} {i : ℕ} {s s' : PtzState} {k : CameraChoice}
variable {t t' : PtzThread}

/-- Only the values in memory count. -/
theorem PtzInv.of_values (h : PtzInv cfg s) (hcurrent : s'.current = s.current)
    (hpoll : s'.poll = s.poll) (hpresets : PresetsOk cfg s'.camera.presets)
    (hpatrol : Canonical cfg s'.camera.patrol) : PtzInv cfg s' where
  current := by
    rw [hcurrent]
    exact h.current
  poll := by
    rw [hpoll]
    exact h.poll
  presets := hpresets
  patrol := hpatrol

theorem saveNext_inv {slot : ℤ} {pc pc' : SavePc} (hI : PtzInv cfg s)
    (hA : CarriesOk cfg i s (.save slot pc)) (h : saveNext slot i s k pc = some (s', pc')) :
    PtzInv cfg s' ∧ CarriesOk cfg i s' (.save slot pc') := by
  cases pc with
  | enter =>
      simp only [saveNext] at h
      split at h <;> cases h
      exact ⟨hI.of_values rfl rfl hI.presets hI.patrol, trivial⟩
  | read =>
      cases h
      refine ⟨hI, ?_⟩
      split
      · rename_i hslot
        split
        · rename_i p hp
          exact ⟨hslot, hI.current p hp⟩
        · trivial
      · trivial
  | store p =>
      cases h
      have hset := hI.presets.set hA.1 hA.2
      exact ⟨hI.of_values rfl rfl hset hI.patrol, hset⟩
  | acquire m =>
      simp only [saveNext] at h
      split at h <;> cases h
      exact ⟨hI.of_values rfl rfl hI.presets hI.patrol, hA⟩
  | merge m =>
      cases h
      exact ⟨hI, hA⟩
  | write m a =>
      simp only [saveNext] at h
      split at h <;> cases h
      · exact ⟨hI, trivial⟩
      · exact ⟨hI.of_values rfl rfl hI.presets hI.patrol, trivial⟩
  | release o | finish o =>
      cases h
      exact ⟨hI.of_values rfl rfl hI.presets hI.patrol, trivial⟩
  | answered o => cases h

theorem patrolNext_inv {enabled : Bool} {interval : Option ℤ} {pc pc' : PatrolPc}
    (hI : PtzInv cfg s) (h : patrolNext enabled interval i s k pc = some (s', pc')) :
    PtzInv cfg s' := by
  cases pc with
  | enter | acquire p =>
      simp only [patrolNext] at h
      split at h <;> cases h
      exact hI.of_values rfl rfl hI.presets hI.patrol
  | set =>
      cases h
      exact hI.of_values rfl rfl hI.presets (setPatrol_canonical hI.patrol)
  | point slot =>
      cases h
      exact hI.of_values rfl rfl hI.presets (hI.patrol.of_same (setPatrolSlot_same _ _))
  | home | read | merge p =>
      cases h
      exact hI
  | write p a =>
      simp only [patrolNext] at h
      split at h <;> cases h
      · exact hI
      · exact hI.of_values rfl rfl hI.presets hI.patrol
  | release o | finish o =>
      cases h
      exact hI.of_values rfl rfl hI.presets hI.patrol
  | answered o => cases h

theorem camera_inv (hcfg : LawfulStreamer cfg) (hI : PtzInv cfg s) {t t' : StreamerThread}
    {camera : Companion} (h : streamerNext cfg i s.camera t k = some (camera, t'))
    (target : Option (Option String)) :
    PtzInv cfg ({ s with camera := camera }.retarget target) where
  current p hp := by
    rcases retarget_current { s with camera := camera } target with heq | heq
    · rw [heq] at hp
      exact hI.current p hp
    · rw [heq] at hp
      cases hp
  poll p hp := by
    rw [retarget_poll] at hp
    exact hI.poll p hp
  presets := by
    rw [retarget_camera]
    cases streamerNext_slot h with
    | keep _ hpresets =>
        show PresetsOk cfg camera.presets
        rw [hpresets]
        exact hI.presets
    | promote a ht ht' hs | stop a ht ht' hs =>
        subst hs
        exact hI.presets
    | load data ht ht' hs =>
        subst hs
        exact loadPresets_ok hcfg
  patrol := by
    rw [retarget_camera]
    have hpatrol : camera.patrol = s.camera.patrol := by
      cases streamerNext_slot h with
      | keep _ _ hpatrol => exact hpatrol
      | promote a ht ht' hs | stop a ht ht' hs | load data ht ht' hs =>
          subst hs
          rfl
    show Canonical cfg camera.patrol
    rw [hpatrol]
    exact hI.patrol

theorem ptzEnv_inv {e : PtzEnv} (hcfg : LawfulStreamer cfg) (hI : PtzInv cfg s)
    (h : ptzEnv cfg s e = some s') : PtzInv cfg s' := by
  cases e with
  | child e =>
      obtain ⟨camera, hcamera, rfl⟩ := Option.map_eq_some_iff.mp h
      obtain ⟨-, hpresets, hpatrol, -⟩ := childNext_slot hcamera
      exact hI.of_values rfl rfl (hpresets ▸ hI.presets) (hpatrol ▸ hI.patrol)
  | patrolAt slot =>
      cases h
      exact hI.of_values rfl rfl hI.presets (hI.patrol.of_same (setPatrolSlot_same _ _))
  | ask | fail =>
      simp only [ptzEnv] at h
      split at h <;> cases h
      exact ⟨hI.current, fun p hp => (by cases hp), hI.presets, hI.patrol⟩
  | answer pan tilt =>
      simp only [ptzEnv] at h
      split at h <;> cases h
      refine ⟨hI.current, fun p hp => ?_, hI.presets, hI.patrol⟩
      cases hp
      exact ⟨hcfg.round3_round3 pan, hcfg.round3_round3 tilt⟩
  | store =>
      simp only [ptzEnv] at h
      split at h <;> cases h
      rename_i p hp
      refine ⟨fun q hq => ?_, fun q hq => (by cases hq), hI.presets, hI.patrol⟩
      cases hq
      exact hI.poll p hp

/-- All values in memory stay of the kind that a restart reproduces. -/
theorem values_outline (hcfg : LawfulStreamer cfg)
    (G : Conf PtzState PtzThread → Event PtzRequest CameraChoice PtzEnv → Prop) :
    OwickiGries (ptz cfg) G (PtzInv cfg) (CarriesOk cfg) where
  enter i s r _ := by cases r <;> trivial
  own c i k t s' t' hc _ ht hn := by
    have hA := hc.2 i t ht
    cases ptzNext_step hn with
    | camera t t' camera hcam hs =>
        subst hs
        exact ⟨camera_inv hcfg hc.1 hcam _, trivial⟩
    | save slot pc pc' hsave => exact saveNext_inv hc.1 hA hsave
    | patrol enabled interval pc pc' hpatrol => exact ⟨patrolNext_inv hc.1 hpatrol, trivial⟩
  others _ _ _ _ _ _ j v hc _ _ _ _ hj := hc.2 j v hj
  env _ _ _ hc _ hx := ⟨ptzEnv_inv hcfg hc.1 hx, hc.2⟩

theorem ptzInv_start (hcfg : LawfulStreamer cfg) (registered : Option Payload) (applied : Applied)
    (reported : List (String × Position)) :
    Annotated (PtzInv cfg) (CarriesOk cfg) (ptzStart cfg registered applied reported) where
  left := ⟨fun p hp => (by cases hp), fun p hp => (by cases hp), loadPresets_ok hcfg,
    (loadPatrol_canonical cfg applied.patrol).2⟩
  right i t ht := by cases ht

end Inv

end Babycat.Streamer
