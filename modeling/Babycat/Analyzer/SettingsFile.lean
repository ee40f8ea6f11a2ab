/-
  Babycat.Analyzer.SettingsFile

  The settings in memory and in the file (`settings.py`, `load` and `save`;
  FR-014).

  The file is written with `ensure_ascii=False`, so a surrogate raises an error
  that `save` does not catch.  What is written is loaded as it was
  (`load_save`): cleaning changes nothing in it.
-/

import Babycat.Analyzer.PresetPayload
import Babycat.Text.JsonRoundTrip

namespace Babycat.Settings

open Babycat.Text

-- ============================================================================
-- The functions
-- ============================================================================

/-- The settings in memory. -/
@[ext] structure Memory (T : CaseTables) where
  prompt : Json
  keywords : List PyStr
  labels : Vocabulary T
  presets : List (Preset T)
  analysisActive : Bool

def promptDefault : PyStr := pyStr "Describe the scene."

section Functions

variable {T : CaseTables}

/-- What `save` dumps. -/
def Memory.toJson (m : Memory T) : Json :=
  .dict [(pyStr "prompt", m.prompt), (pyStr "keywords", .list (m.keywords.map .str)),
    (pyStr "labels", m.labels.toJson), (pyStr "presets", .list (m.presets.map Preset.toJson)),
    (pyStr "analysis_active", .bool m.analysisActive)]

/-- `save`: the new text of the file; none when the encoder raises. -/
def save (m : Memory T) : Option PyStr :=
  let text := Json.dumps Json.indented m.toJson
  if encodable text then some text else none

/-- `[k for k in value if isinstance(k, str)]`; none when the value is not iterable. -/
def strings : Json → Option (List PyStr)
  | .list items => some (items.filterMap asStr)
  | .dict items => some (items.map Prod.fst)
  | .str s => some (s.map fun c => [c])
  | _ => none

variable (T)

/-- The settings that `load` makes of the fields of the file. -/
def loadFields (data : List (PyStr × Json)) : Option (Memory T) :=
  (strings (Json.getOr data "keywords" (.list []))).map fun keywords =>
    { prompt :=
        if Json.truthy (Json.get data (pyStr "prompt")) then Json.get data (pyStr "prompt")
        else .str promptDefault
      keywords := keywords
      labels := cleanLabels T (Json.getOr data "labels" (.dict []))
      presets := cleanPresets T (Json.getOr data "presets" (.list []))
      analysisActive := Json.truthy (Json.getOr data "analysis_active" (.bool false)) }

/-- `load`: the settings, for the text of the file if there is one; none when it raises. -/
def load : Option PyStr → Option (Memory T)
  | none => loadFields T []
  | some text =>
      match Json.loads (universalNewlines text) with
      | none => loadFields T []
      | some (.dict data) => loadFields T data
      | some _ => none

/-- The settings without a file. -/
def defaults : Memory T where
  prompt := .str promptDefault
  keywords := []
  labels := .empty
  presets := []
  analysisActive := false

end Functions

-- ============================================================================
-- What is saved is loaded
-- ============================================================================

section RoundTrip

variable {T : CaseTables}

theorem load_none : load T none = some (defaults T) := rfl

/-- The prompt is a string with content, as a request sets it. -/
def Memory.Prompted (m : Memory T) : Prop := ∃ s, m.prompt = .str s ∧ s ≠ []

theorem wellFormed_strings (l : List PyStr) : Json.WellFormed (.list (l.map .str)) := by
  rw [Json.wellFormed_list, List.forall_mem_map]
  exact fun _ _ => rfl

theorem wellFormed_vocabulary (v : Vocabulary T) : Json.WellFormed v.toJson := by
  rw [Vocabulary.toJson, Json.wellFormed_dict, List.map_map, List.forall_mem_map]
  exact ⟨v.nodup, fun g _ => wellFormed_strings g.words⟩

/-- Distinct names of fields are distinct keys. -/
theorem nodup_keys {l : List String} (h : l.Nodup) : (l.map pyStr).Nodup :=
  h.map pyStr_injective

theorem wellFormed_preset (p : Preset T) : Json.WellFormed p.toJson := by
  have hlabels : ∀ v ∈ p.labels, Json.WellFormed v.toJson := fun v _ => wellFormed_vocabulary v
  rw [Preset.toJson, Json.wellFormed_dict]
  constructor
  · cases p.prompt with
    | none =>
      cases p.labels with
      | none => exact nodup_keys (l := ["id", "start", "end"]) (by decide)
      | some v => exact nodup_keys (l := ["id", "start", "end", "labels"]) (by decide)
    | some s =>
      cases p.labels with
      | none => exact nodup_keys (l := ["id", "start", "end", "prompt"]) (by decide)
      | some v => exact nodup_keys (l := ["id", "start", "end", "prompt", "labels"]) (by decide)
  · intro f hf
    simp only [List.cons_append, List.nil_append, List.mem_cons, List.mem_append] at hf
    rcases hf with rfl | rfl | rfl | hf | hf
    · rfl
    · rfl
    · rfl
    · cases hprompt : p.prompt with
      | none =>
        rw [hprompt] at hf
        cases hf
      | some s =>
        rw [hprompt] at hf
        rw [List.mem_singleton.mp hf]
        rfl
    · cases hv : p.labels with
      | none =>
        rw [hv] at hf
        cases hf
      | some v =>
        rw [hv] at hf
        rw [List.mem_singleton.mp hf]
        exact hlabels v hv

theorem wellFormed_memory {m : Memory T} (h : m.Prompted) : Json.WellFormed m.toJson := by
  obtain ⟨s, hs, -⟩ := h
  rw [Memory.toJson, Json.wellFormed_dict, hs]
  constructor
  · exact nodup_keys (l := ["prompt", "keywords", "labels", "presets", "analysis_active"])
      (by decide)
  · simp only [List.forall_mem_cons]
    refine ⟨rfl, wellFormed_strings m.keywords, wellFormed_vocabulary m.labels, ?_, rfl,
      List.forall_mem_nil _⟩
    rw [Json.wellFormed_list, List.forall_mem_map]
    exact fun p _ => wellFormed_preset p

theorem strings_map (l : List PyStr) : strings (.list (l.map .str)) = some l := by
  rw [strings, List.filterMap_map]
  exact congrArg some List.filterMap_some

theorem loadFields_toJson {m : Memory T} {fields : List (PyStr × Json)} (h : m.Prompted)
    (hfields : m.toJson = .dict fields) : loadFields T fields = some m := by
  obtain ⟨s, hs, hne⟩ := h
  cases hfields
  have htruthy : Json.truthy (.str s) = true := bne_iff_ne.mpr hne
  simp only [loadFields, Json.getOr, Json.has_cons, Json.get_cons, pyStr_inj, String.reduceEq,
    decide_true, decide_false, Bool.true_or, Bool.false_or, if_true, if_false, strings_map,
    Option.map_some, cleanLabels_toJson, cleanPresets_toJson, hs, htruthy]
  exact congrArg some (Memory.ext hs.symm rfl rfl rfl rfl)

/-- `load` after `save` gives the settings back. -/
theorem load_save {m : Memory T} (h : m.Prompted) {text : PyStr} (hsave : save m = some text) :
    load T (some text) = some m := by
  have hnewlines : universalNewlines (Json.dumps Json.indented m.toJson) =
      Json.dumps Json.indented m.toJson :=
    Json.universalNewlines_dumps Json.indented m.toJson (by decide) (by decide)
  simp only [save] at hsave
  split_ifs at hsave
  cases hsave
  rw [load, hnewlines, Json.loads_dumps Json.indented (wellFormed_memory h)]
  exact loadFields_toJson h rfl

/-- The strings of the settings. -/
theorem encodable_memory (m : Memory T) : Json.Encodable m.toJson ↔
    Json.Encodable m.prompt ∧ (∀ k ∈ m.keywords, encodable k = true) ∧
      Json.Encodable m.labels.toJson ∧
      Json.Encodable (.list (m.presets.map Preset.toJson)) := by
  have hkeywords : Json.Encodable (.list (m.keywords.map .str)) ↔
      ∀ k ∈ m.keywords, encodable k = true := by
    rw [Json.encodable_list, List.forall_mem_map]
    exact Iff.rfl
  have hbool : Json.Encodable (.bool m.analysisActive) := rfl
  rw [Memory.toJson, Json.encodable_dict]
  simp only [List.forall_mem_cons, encodable_pyStr, true_and, hkeywords, hbool, List.not_mem_nil,
    false_implies, implies_true, and_true]

/-- `save` raises if and only if a string of the settings has a surrogate. -/
theorem save_isSome (m : Memory T) : (save m).isSome = true ↔ Json.Encodable m.toJson := by
  rw [← Json.encodable_dumps Json.indented, save]
  split_ifs with h
  · exact iff_of_true rfl h
  · exact iff_of_false Bool.false_ne_true h

end RoundTrip

end Babycat.Settings
