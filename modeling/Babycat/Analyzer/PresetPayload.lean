/-
  Babycat.Analyzer.PresetPayload

  The presets that a client sends (`settings.py`, `clean_presets` and
  `validate_presets`).

  `clean_presets` drops what it does not know: a preset without a name or a
  range, and a prompt that is no string with content.  `validate_presets` sees
  the first by the length of the list; nothing shows it the second.
-/

import Babycat.Analyzer.PresetRanges
import Babycat.Text.JsonPoints

namespace Babycat.Settings

open Babycat.Text

-- ============================================================================
-- The functions
-- ============================================================================

/-- A value that is an instance of `str`. -/
def asStr : Json → Option PyStr
  | .str s => some s
  | _ => none

/-- The value is `None`. -/
def isNone : Json → Bool
  | .null => true
  | _ => false

section Clean

variable (T : CaseTables)

/-- The prompt that is kept. -/
def cleanPrompt (value : Json) : Option PyStr :=
  match asStr value with
  | some s => if nonBlank s then some (strip s) else none
  | none => none

theorem cleanPrompt_clean {value : Json} {s : PyStr} (h : s ∈ cleanPrompt value) : Clean s := by
  unfold cleanPrompt at h
  split at h
  · rename_i text _
    split at h
    · rename_i hblank
      cases h
      exact clean_strip hblank
    · cases h
  · cases h

/-- A preset that is kept. -/
def cleanPreset : Json → Option (Preset T)
  | .dict p =>
      match asStr (Json.get p (pyStr "id")), asStr (Json.get p (pyStr "start")),
          asStr (Json.get p (pyStr "end")) with
      | some id, some start, some stop =>
          if h : nonBlank id = true ∧ (parseHhmm start).isSome = true ∧
              (parseHhmm stop).isSome = true then
            some {
              id := strip id
              start := start
              stop := stop
              prompt := cleanPrompt (Json.get p (pyStr "prompt"))
              labels :=
                if isNone (Json.get p (pyStr "labels")) then none
                else some (cleanLabels T (Json.get p (pyStr "labels")))
              id_clean := clean_strip h.1
              start_time := h.2.1
              stop_time := h.2.2
              prompt_clean := fun _ hs => cleanPrompt_clean hs }
          else none
      | _, _, _ => none
  | _ => none

/-- `clean_presets` -/
def cleanPresets : Json → List (Preset T)
  | .list items => items.filterMap (cleanPreset T)
  | _ => []

/-- The labels of an item are not there, or strict. -/
def labelsPass : Json → Bool
  | .dict p =>
      isNone (Json.get p (pyStr "labels")) ||
        (validateLabels T (Json.get p (pyStr "labels"))).isSome
  | _ => false

/-- `validate_presets` -/
def validatePresets : Json → Option (List (Preset T))
  | .list items =>
      if items.all (labelsPass T) then
        let cleaned := cleanPresets T (.list items)
        if cleaned.length = items.length then some cleaned else none
      else none
  | _ => none

end Clean

-- ============================================================================
-- What is let in
-- ============================================================================

section Strict

variable {T : CaseTables}

theorem asStr_eq_some {value : Json} {s : PyStr} : asStr value = some s ↔ value = .str s := by
  cases value with
  | str t => exact ⟨fun h => by rw [Option.some.inj h], fun h => by rw [Json.str.inj h]; rfl⟩
  | _ => exact ⟨fun h => (by cases h), fun h => (by cases h)⟩

theorem isNone_iff {value : Json} : isNone value = true ↔ value = .null := by
  cases value with
  | null => exact iff_of_true rfl rfl
  | _ => exact ⟨fun h => (by cases h), fun h => (by cases h)⟩

/-- `validate_labels` returns what `clean_labels` does. -/
theorem validateLabels_eq {d : Json} {v : Vocabulary T} (h : validateLabels T d = some v) :
    cleanLabels T d = v := by
  cases d with
  | dict items =>
    simp only [validateLabels] at h
    split_ifs at h
    exact Option.some.inj h
  | _ => cases h

/-- What a dict becomes: its name stripped, its range as it is, its prompt stripped if it is a
    string with content, and its labels cleaned unless they are `None`. -/
structure Kept (item : List (PyStr × Json)) (p : Preset T) : Prop where
  id : ∃ s, Json.get item (pyStr "id") = .str s ∧ nonBlank s = true ∧ p.id = strip s
  start : Json.get item (pyStr "start") = .str p.start
  stop : Json.get item (pyStr "end") = .str p.stop
  prompt : p.prompt = cleanPrompt (Json.get item (pyStr "prompt"))
  labels : p.labels =
    if isNone (Json.get item (pyStr "labels")) then none
    else some (cleanLabels T (Json.get item (pyStr "labels")))

theorem cleanPreset_eq_some {value : Json} {p : Preset T} :
    cleanPreset T value = some p ↔ ∃ item, value = .dict item ∧ Kept item p := by
  cases value with
  | dict item =>
    rw [cleanPreset]
    constructor
    · intro h
      split at h
      · rename_i id start stop hid hstart hstop
        split at h
        · rename_i hall
          cases h
          exact ⟨item, rfl, ⟨id, asStr_eq_some.mp hid, hall.1, rfl⟩, asStr_eq_some.mp hstart,
            asStr_eq_some.mp hstop, rfl, rfl⟩
        · cases h
      · cases h
    · rintro ⟨_, heq, ⟨id, hid, hblank, hname⟩, hstart, hstop, hprompt, hlabels⟩
      cases heq
      simp only [hid, hstart, hstop, asStr]
      rw [dif_pos ⟨hblank, p.start_time, p.stop_time⟩]
      exact congrArg some (Preset.ext hname.symm rfl rfl hprompt.symm hlabels.symm)
  | _ => exact ⟨fun h => (by cases h), fun ⟨_, heq, _⟩ => (by cases heq)⟩

/-- What `validate_presets` lets in: lists of dicts that are kept, with strict labels. -/
theorem validatePresets_eq_some {d : Json} {ps : List (Preset T)} :
    validatePresets T d = some ps ↔ ∃ items, d = .list items ∧
      (∀ item ∈ items, labelsPass T item = true) ∧
      List.Forall₂ (fun item p => cleanPreset T item = some p) items ps := by
  cases d with
  | list items =>
    constructor
    · intro h
      simp only [validatePresets] at h
      split_ifs at h with hlabels hlen
      cases h
      exact ⟨items, rfl, List.all_eq_true.mp hlabels,
        forall₂_filterMap (isSome_of_length hlen)⟩
    · rintro ⟨_, heq, hlabels, hpairs⟩
      cases heq
      have hcleaned : cleanPresets T (.list items) = ps := filterMap_of_forall₂ hpairs
      have hlen : ps.length = items.length := hpairs.length_eq.symm
      simp only [validatePresets, List.all_eq_true.mpr hlabels, if_true, hcleaned, hlen]
  | _ => exact ⟨fun h => (by cases h), fun ⟨_, heq, _⟩ => (by cases heq)⟩

end Strict

-- ============================================================================
-- Presets in the file
-- ============================================================================

section File

variable {T : CaseTables}

/-- A field that may be there. -/
def optionalField (key : String) : Option Json → List (PyStr × Json)
  | none => []
  | some value => [(pyStr key, value)]

theorem get_optionalField {k : String} {key : PyStr} (h : key ≠ pyStr k) (v : Option Json)
    (items : List (PyStr × Json)) :
    Json.get (optionalField k v ++ items) key = Json.get items key := by
  cases v with
  | none => rfl
  | some value =>
    rw [optionalField, List.singleton_append, Json.get_cons, if_neg h]

theorem get_optionalField_self (k : String) (v : Option Json) {items : List (PyStr × Json)}
    (h : Json.get items (pyStr k) = .null) :
    Json.get (optionalField k v ++ items) (pyStr k) = v.getD .null := by
  cases v with
  | none => exact h
  | some value =>
    rw [optionalField, List.singleton_append, Json.get_cons, if_pos rfl]
    rfl

/-- The `dict` of the preset. -/
def Preset.toJson (p : Preset T) : Json :=
  .dict ([(pyStr "id", .str p.id), (pyStr "start", .str p.start), (pyStr "end", .str p.stop)] ++
    (optionalField "prompt" (p.prompt.map .str) ++
      optionalField "labels" (p.labels.map Vocabulary.toJson)))

theorem Preset.get_toJson_prompt (p : Preset T) :
    Json.get ([(pyStr "id", .str p.id), (pyStr "start", .str p.start), (pyStr "end", .str p.stop)] ++
      (optionalField "prompt" (p.prompt.map .str) ++
        optionalField "labels" (p.labels.map Vocabulary.toJson))) (pyStr "prompt") =
      (p.prompt.map .str).getD .null := by
  have hlabels : Json.get (optionalField "labels" (p.labels.map Vocabulary.toJson))
      (pyStr "prompt") = .null := by
    rw [← List.append_nil (optionalField _ _), get_optionalField (by decide)]
    rfl
  simp only [List.cons_append, List.nil_append, Json.get_cons, pyStr_inj, String.reduceEq, if_false]
  exact get_optionalField_self "prompt" _ hlabels

theorem Preset.get_toJson_labels (p : Preset T) :
    Json.get ([(pyStr "id", .str p.id), (pyStr "start", .str p.start), (pyStr "end", .str p.stop)] ++
      (optionalField "prompt" (p.prompt.map .str) ++
        optionalField "labels" (p.labels.map Vocabulary.toJson))) (pyStr "labels") =
      (p.labels.map Vocabulary.toJson).getD .null := by
  simp only [List.cons_append, List.nil_append, Json.get_cons, pyStr_inj, String.reduceEq, if_false]
  rw [get_optionalField (by decide), ← List.append_nil (optionalField _ _)]
  exact get_optionalField_self "labels" _ (Json.get_nil _)

theorem nonBlank_of_clean {s : PyStr} (h : Clean s) : nonBlank s = true := by
  rw [nonBlank, h.1]
  exact bne_iff_ne.mpr h.2

/-- Cleaning changes nothing in a preset. -/
theorem cleanPreset_toJson (p : Preset T) : cleanPreset T p.toJson = some p := by
  refine cleanPreset_eq_some.mpr ⟨_, rfl, ?_⟩
  constructor
  · refine ⟨p.id, ?_, nonBlank_of_clean p.id_clean, p.id_clean.1.symm⟩
    simp only [List.cons_append, Json.get_cons, if_true]
  · simp only [List.cons_append, Json.get_cons, pyStr_inj, String.reduceEq, if_true, if_false]
  · simp only [List.cons_append, Json.get_cons, pyStr_inj, String.reduceEq, if_true, if_false]
  · rw [p.get_toJson_prompt]
    cases hprompt : p.prompt with
    | none => rfl
    | some s =>
      have hclean := p.prompt_clean s hprompt
      show some s = if nonBlank s = true then some (strip s) else none
      rw [if_pos (nonBlank_of_clean hclean), hclean.1]
  · rw [p.get_toJson_labels]
    cases hlabels : p.labels with
    | none => rfl
    | some v =>
      show some v = some (cleanLabels T v.toJson)
      rw [cleanLabels_toJson]

/-- `clean_presets` changes nothing in a list of presets. -/
theorem cleanPresets_toJson (ps : List (Preset T)) :
    cleanPresets T (.list (ps.map Preset.toJson)) = ps := by
  refine filterMap_of_forall₂ ?_
  rw [List.forall₂_map_left_iff, List.forall₂_same]
  exact fun p _ => cleanPreset_toJson p

end File

-- ============================================================================
-- Strings with surrogates
-- ============================================================================

section Surrogates

variable {T : CaseTables}

/-- What holds of all partners holds of both lists. -/
theorem forall_mem_iff {α β : Type} {r : α → β → Prop} {P : α → Prop} {Q : β → Prop} {l : List α}
    {m : List β} (h : List.Forall₂ r l m) (hiff : ∀ a b, r a b → (P a ↔ Q b)) :
    (∀ a ∈ l, P a) ↔ ∀ b ∈ m, Q b := by
  induction h with
  | nil => exact iff_of_true (List.forall_mem_nil _) (List.forall_mem_nil _)
  | cons hab _ ih => rw [List.forall_mem_cons, List.forall_mem_cons, hiff _ _ hab, ih]

/-- A string without surrogates, or no string. -/
def strEncodable (value : Json) : Prop := ∀ s ∈ asStr value, encodable s = true

/-- The strings of a dict of presets that are stored have no surrogates. -/
def PresetTexts : Json → Prop
  | .dict p => strEncodable (Json.get p (pyStr "id")) ∧ strEncodable (Json.get p (pyStr "start")) ∧
      strEncodable (Json.get p (pyStr "end")) ∧ strEncodable (Json.get p (pyStr "prompt")) ∧
      Json.Encodable (Json.get p (pyStr "labels"))
  | _ => True

/-- The strings of a list of presets that are stored have no surrogates. -/
def PresetsTexts : Json → Prop
  | .list items => ∀ item ∈ items, PresetTexts item
  | _ => True

theorem strEncodable_str {s : PyStr} : strEncodable (.str s) ↔ encodable s = true :=
  ⟨fun h => h s rfl, fun h t ht => by cases ht; exact h⟩

theorem encodable_of_blank {s : PyStr} (h : nonBlank s = false) : encodable s = true := by
  rw [encodable_iff]
  intro c hc
  cases hs : surrogate c with
  | false => rfl
  | true =>
    have hblank : nonBlank s = true :=
      (nonBlank_iff s).mpr ⟨c, hc, isSpace_of_surrogate hs⟩
    rw [h] at hblank
    cases hblank

theorem encodable_cleanPrompt (value : Json) :
    (∀ s ∈ cleanPrompt value, encodable s = true) ↔ strEncodable value := by
  unfold strEncodable cleanPrompt
  cases asStr value with
  | none => exact Iff.rfl
  | some s =>
    by_cases hblank : nonBlank s = true
    · simp only [hblank, if_true, Option.mem_some_iff, forall_eq', encodable_strip_iff]
    · rw [Bool.not_eq_true] at hblank
      simp only [hblank, Bool.false_eq_true, if_false, Option.mem_some_iff, forall_eq',
        encodable_of_blank hblank, Option.not_mem_none, false_implies, implies_true]

/-- The words of a strict item have surrogates if and only if its synonyms do. -/
theorem encodable_synonyms {value : Json} {syns words : List PyStr} (h : Synonyms value syns)
    (hwords : words = syns.map fun s => lower T (strip s)) :
    (∀ w ∈ words, encodable w = true) ↔ Json.Encodable value := by
  obtain ⟨rfl, -⟩ := h
  rw [hwords, Json.encodable_list]
  simp only [List.forall_mem_map, encodable_lower, encodable_strip_iff, Json.encodable_str]

theorem encodable_vocabulary (v : Vocabulary T) : Json.Encodable v.toJson ↔
    ∀ g ∈ v.groups, encodable g.name = true ∧ ∀ w ∈ g.words, encodable w = true := by
  rw [Vocabulary.toJson, Json.encodable_dict]
  simp only [List.forall_mem_map, Json.encodable_list, Json.encodable_str]

/-- Strict labels are stored with a surrogate if and only if they are sent with one. -/
theorem encodable_labels {d : Json} {v : Vocabulary T} (h : validateLabels T d = some v) :
    Json.Encodable v.toJson ↔ Json.Encodable d := by
  cases d with
  | dict items =>
    obtain ⟨-, hbecomes⟩ := validateLabels_some h
    rw [encodable_vocabulary, Json.encodable_dict]
    refine (forall_mem_iff hbecomes fun item g hg => ?_).symm
    obtain ⟨hname, syns, hsyns, hwords⟩ := hg
    rw [hname, encodable_strip_iff, encodable_synonyms hsyns hwords]
  | _ => cases h

theorem encodable_optionalField {key : String} {value : Option Json} :
    (∀ f ∈ optionalField key value, encodable f.1 = true ∧ Json.Encodable f.2) ↔
      ∀ x ∈ value, Json.Encodable x := by
  cases value with
  | none => exact iff_of_true (List.forall_mem_nil _) fun x hx => by cases hx
  | some x =>
    rw [optionalField, List.forall_mem_singleton, and_iff_right (encodable_pyStr key)]
    simp only [Option.mem_some_iff, forall_eq']

/-- The strings of a preset. -/
theorem encodable_preset (p : Preset T) : Json.Encodable p.toJson ↔
    encodable p.id = true ∧ encodable p.start = true ∧ encodable p.stop = true ∧
      (∀ s ∈ p.prompt, encodable s = true) ∧ ∀ v ∈ p.labels, Json.Encodable v.toJson := by
  have hprompt : (∀ x ∈ p.prompt.map Json.str, Json.Encodable x) ↔
      ∀ s ∈ p.prompt, encodable s = true := by
    cases p.prompt <;> simp [Json.encodable_str]
  have hlabels : (∀ x ∈ p.labels.map Vocabulary.toJson, Json.Encodable x) ↔
      ∀ v ∈ p.labels, Json.Encodable v.toJson := by
    cases p.labels <;> simp
  rw [Preset.toJson, Json.encodable_dict]
  simp only [List.cons_append, List.nil_append, List.forall_mem_cons, List.forall_mem_append,
    encodable_optionalField, hprompt, hlabels, encodable_pyStr, Json.encodable_str, true_and]

/-- A preset is stored with a surrogate if and only if it is sent with one. -/
theorem encodable_kept {item : List (PyStr × Json)} {p : Preset T} (hkept : Kept item p)
    (hlabels : labelsPass T (.dict item) = true) :
    PresetTexts (.dict item) ↔ Json.Encodable p.toJson := by
  obtain ⟨⟨id, hid, -, hname⟩, hstart, hstop, hprompt, hkeptLabels⟩ := hkept
  have hlabelsIff : (∀ v ∈ p.labels, Json.Encodable v.toJson) ↔
      Json.Encodable (Json.get item (pyStr "labels")) := by
    rw [hkeptLabels]
    by_cases hnone : isNone (Json.get item (pyStr "labels")) = true
    · rw [if_pos hnone, isNone_iff.mp hnone]
      exact iff_of_true (fun v hv => by cases hv) rfl
    · rw [labelsPass, Bool.or_eq_true, or_iff_right hnone] at hlabels
      obtain ⟨v, hv⟩ := Option.isSome_iff_exists.mp hlabels
      rw [if_neg hnone, validateLabels_eq hv]
      simp only [Option.mem_some_iff, forall_eq', encodable_labels hv]
  rw [PresetTexts, encodable_preset, hlabelsIff, hprompt, encodable_cleanPrompt, hid, hstart, hstop,
    strEncodable_str, strEncodable_str, strEncodable_str, hname, encodable_strip_iff]

/-- Presets are stored with a surrogate if and only if they are sent with one. -/
theorem encodable_presets {d : Json} {ps : List (Preset T)} (h : validatePresets T d = some ps) :
    PresetsTexts d ↔ Json.Encodable (.list (ps.map Preset.toJson)) := by
  obtain ⟨items, rfl, hlabels, hpairs⟩ := validatePresets_eq_some.mp h
  have hboth := (List.forall₂_and_left items ps).mpr ⟨hlabels, hpairs⟩
  rw [PresetsTexts, Json.encodable_list, List.forall_mem_map]
  refine forall_mem_iff hboth fun value p hp => ?_
  obtain ⟨item, rfl, hkept⟩ := cleanPreset_eq_some.mp hp.2
  exact encodable_kept hkept hp.1

end Surrogates

end Babycat.Settings
