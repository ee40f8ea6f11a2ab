/-
  Babycat.Analyzer.PresetRequest

  What a request on `/presets` accepts, and what it stores.

  A preset slips through when it is not well formed and nothing counts it: its
  prompt is dropped, its labels are `null`, or `int` reads a time that is not
  `HH:MM`.
-/

import Babycat.Analyzer.SettingsRequests

namespace Babycat.Settings

open Babycat.Text

-- ============================================================================
-- Well-formed bodies
-- ============================================================================

/-- Two decimal digits. -/
def twoDigits (n : ℕ) : PyStr := [codePoint (n / 10).digitChar, codePoint (n % 10).digitChar]

/-- `HH:MM`, for a time of day. -/
def TimeOfDay (s : PyStr) : Prop :=
  ∃ h < 24, ∃ m < 60, s = twoDigits h ++ codePoint ':' :: twoDigits m

instance (s : PyStr) : Decidable (TimeOfDay s) :=
  inferInstanceAs (Decidable (∃ h < 24, ∃ m < 60, s = twoDigits h ++ codePoint ':' :: twoDigits m))

theorem parseHhmm_timeOfDay {s : PyStr} (h : TimeOfDay s) : (parseHhmm s).isSome = true := by
  have hall : ∀ h < 24, ∀ m < 60,
      (parseHhmm (twoDigits h ++ codePoint ':' :: twoDigits m)).isSome = true := by
    decide
  obtain ⟨h, hh, m, hm, rfl⟩ := h
  exact hall h hh m hm

/-- A string with content. -/
def Content (value : Json) : Prop := ∃ s, value = .str s ∧ nonBlank s = true

/-- A string of the form `HH:MM`. -/
def Time (value : Json) : Prop := ∃ s, value = .str s ∧ TimeOfDay s

/-- A well-formed preset. -/
structure WellFormedPreset (T : CaseTables) (item : List (PyStr × Json)) : Prop where
  id : Content (Json.get item (pyStr "id"))
  start : Time (Json.get item (pyStr "start"))
  stop : Time (Json.get item (pyStr "end"))
  prompt : Json.has item (pyStr "prompt") = true → Content (Json.get item (pyStr "prompt"))
  labels : Json.has item (pyStr "labels") = true →
    (validateLabels T (Json.get item (pyStr "labels"))).isSome = true

/-- Every item that the body has is well formed. -/
structure WellFormedBody (T : CaseTables) (body : List (PyStr × Json)) : Prop where
  labels : Json.has body (pyStr "labels") = true →
    (validateLabels T (Json.get body (pyStr "labels"))).isSome = true
  presets : Json.has body (pyStr "presets") = true → ∃ items : List (List (PyStr × Json)),
    Json.get body (pyStr "presets") = .list (items.map .dict) ∧
      ∀ item ∈ items, WellFormedPreset T item

/-- A preset with all the fields of an item. -/
structure Stores {T : CaseTables} (item : List (PyStr × Json)) (p : Preset T) : Prop where
  id : ∃ s, Json.get item (pyStr "id") = .str s ∧ p.id = strip s
  start : Json.get item (pyStr "start") = .str p.start
  stop : Json.get item (pyStr "end") = .str p.stop
  prompt : if Json.has item (pyStr "prompt") then
      ∃ s, Json.get item (pyStr "prompt") = .str s ∧ p.prompt = some (strip s)
    else p.prompt = none
  labels : if Json.has item (pyStr "labels") then
      ∃ v, validateLabels T (Json.get item (pyStr "labels")) = some v ∧ p.labels = some v
    else p.labels = none

/-- The settings with everything that the body has, and the rest as it was. -/
structure StoresBody {T : CaseTables} (body : List (PyStr × Json)) (old new : Memory T) : Prop where
  labels : if Json.has body (pyStr "labels") then
      validateLabels T (Json.get body (pyStr "labels")) = some new.labels
    else new.labels = old.labels
  presets : if Json.has body (pyStr "presets") then ∃ items : List (List (PyStr × Json)),
      Json.get body (pyStr "presets") = .list (items.map .dict) ∧
        List.Forall₂ Stores items new.presets
    else new.presets = old.presets
  others : new.prompt = old.prompt ∧ new.keywords = old.keywords ∧
    new.analysisActive = old.analysisActive

/-- A well-formed body is accepted and stored, any other is rejected and changes nothing. -/
structure AllOrNothing {T : CaseTables} (s : Server T) (d : Json) : Prop where
  accepted : (∃ body, d = .dict body ∧ WellFormedBody T body) →
    ∃ answer, (handlePresets s d).2 = .ok answer
  rejected : (¬ ∃ body, d = .dict body ∧ WellFormedBody T body) →
    ∃ detail, (handlePresets s d).2 = .rejected detail
  stored : ∀ body answer, d = .dict body → (handlePresets s d).2 = .ok answer →
    StoresBody body s.memory (handlePresets s d).1.memory ∧
      ∃ text, save (handlePresets s d).1.memory = some text ∧
        (handlePresets s d).1.file = some text
  unchanged : ∀ detail, (handlePresets s d).2 = .rejected detail → (handlePresets s d).1 = s

/-- Nothing of a preset slips through the checks: a prompt that is there has content, labels that
    are there are not `None`, and the times have the form `HH:MM`. -/
structure NothingSlips (item : List (PyStr × Json)) : Prop where
  prompt : Json.has item (pyStr "prompt") = true → Content (Json.get item (pyStr "prompt"))
  labels : Json.has item (pyStr "labels") = true → isNone (Json.get item (pyStr "labels")) = false
  start : Time (Json.get item (pyStr "start"))
  stop : Time (Json.get item (pyStr "end"))

/-- Nothing slips through the presets of a body. -/
def BodySound (body : List (PyStr × Json)) : Prop :=
  ∀ items : List (List (PyStr × Json)), Json.get body (pyStr "presets") = .list (items.map .dict) →
    ∀ item ∈ items, NothingSlips item

/-- The body has labels or presets; and if the checks pass, nothing slips through them and what is
    to be saved has no surrogate. -/
def Sound {T : CaseTables} (m : Memory T) : Json → Prop
  | .dict body =>
      (Json.has body (pyStr "labels") = true ∨ Json.has body (pyStr "presets") = true) ∧
        ((checkPresets T (.dict body)).isOk = true →
          BodySound body ∧ TextsKept m body)
  | _ => True

-- ============================================================================
-- One preset
-- ============================================================================

section Preset

variable {T : CaseTables} {item : List (PyStr × Json)} {p : Preset T}

theorem content_cleanPrompt {value : Json} (h : Content value) :
    ∃ s, value = .str s ∧ cleanPrompt value = some (strip s) := by
  obtain ⟨s, rfl, hs⟩ := h
  exact ⟨s, rfl, if_pos hs⟩

/-- A preset that passes the checks is well formed if and only if nothing slips. -/
theorem wellFormedPreset_iff (hkept : Kept item p) (hlabels : labelsPass T (.dict item) = true) :
    WellFormedPreset T item ↔ NothingSlips item := by
  constructor
  · intro h
    refine ⟨h.prompt, fun hhas => ?_, h.start, h.stop⟩
    have hsome := h.labels hhas
    cases hnone : isNone (Json.get item (pyStr "labels")) with
    | false => rfl
    | true =>
      rw [isNone_iff.mp hnone] at hsome
      cases hsome
  · intro h
    obtain ⟨id, hid, hblank, -⟩ := hkept.id
    refine ⟨⟨id, hid, hblank⟩, h.start, h.stop, h.prompt, fun hhas => ?_⟩
    rw [labelsPass, h.labels hhas, Bool.false_or] at hlabels
    exact hlabels

/-- A preset through which nothing slips is stored with all its fields. -/
theorem stores_of_kept (hkept : Kept item p) (hlabels : labelsPass T (.dict item) = true)
    (h : NothingSlips item) : Stores item p := by
  obtain ⟨⟨id, hid, -, hname⟩, hstart, hstop, hprompt, hkeptLabels⟩ := hkept
  refine ⟨⟨id, hid, hname⟩, hstart, hstop, ?_, ?_⟩
  · cases hhas : Json.has item (pyStr "prompt") with
    | true =>
      obtain ⟨s, hs, hclean⟩ := content_cleanPrompt (h.prompt hhas)
      exact ⟨s, hs, hprompt.trans hclean⟩
    | false =>
      rw [hprompt, get_of_not_has hhas]
      rfl
  · cases hhas : Json.has item (pyStr "labels") with
    | true =>
      have hnone := h.labels hhas
      rw [labelsPass, hnone, Bool.false_or] at hlabels
      obtain ⟨v, hv⟩ := Option.isSome_iff_exists.mp hlabels
      rw [hnone, if_neg Bool.false_ne_true, validateLabels_eq hv] at hkeptLabels
      exact ⟨v, hv, hkeptLabels⟩
    | false =>
      rw [hkeptLabels, get_of_not_has hhas]
      rfl

/-- A well-formed preset passes the checks. -/
theorem wellFormedPreset_pass (h : WellFormedPreset T item) :
    labelsPass T (.dict item) = true ∧ (cleanPreset T (.dict item)).isSome = true := by
  obtain ⟨id, hid, hblank⟩ := h.id
  obtain ⟨start, hstart, hstartTime⟩ := h.start
  obtain ⟨stop, hstop, hstopTime⟩ := h.stop
  constructor
  · rw [labelsPass, Bool.or_eq_true]
    cases hhas : Json.has item (pyStr "labels") with
    | true => exact .inr (h.labels hhas)
    | false =>
      rw [get_of_not_has hhas]
      exact .inl rfl
  · simp only [cleanPreset, hid, hstart, hstop, asStr]
    rw [dif_pos ⟨hblank, parseHhmm_timeOfDay hstartTime, parseHhmm_timeOfDay hstopTime⟩]
    rfl

/-- The dicts that are let in. -/
theorem validatePresets_dicts {d : Json} {ps : List (Preset T)}
    (h : validatePresets T d = some ps) :
    ∃ items : List (List (PyStr × Json)), d = .list (items.map .dict) ∧
      List.Forall₂ (fun item p => labelsPass T (.dict item) = true ∧ Kept item p) items ps := by
  obtain ⟨values, rfl, hlabels, hpairs⟩ := validatePresets_eq_some.mp h
  have hboth := (List.forall₂_and_left values ps).mpr ⟨hlabels, hpairs⟩
  clear h hlabels hpairs
  induction hboth with
  | nil => exact ⟨[], rfl, .nil⟩
  | cons hvalue _ ih =>
    obtain ⟨items, heq, hitems⟩ := ih
    obtain ⟨item, rfl, hkept⟩ := cleanPreset_eq_some.mp hvalue.2
    exact ⟨item :: items, by rw [List.map_cons, Json.list.inj heq], .cons ⟨hvalue.1, hkept⟩ hitems⟩

theorem map_dict_injective {items items' : List (List (PyStr × Json))}
    (h : items.map Json.dict = items'.map Json.dict) : items = items' :=
  List.map_injective_iff.mpr (fun _ _ h => Json.dict.inj h) h

end Preset

-- ============================================================================
-- One body
-- ============================================================================

section Body

variable {T : CaseTables} {body : List (PyStr × Json)} {labels : Option (Vocabulary T)}
  {presets : Option (List (Preset T))} {s : Server T}

/-- A body that passes the checks is well formed if and only if nothing slips. -/
theorem wellFormedBody_iff
    (hlabels : checkField (validateLabels T) "malformed labels" "labels" body = .ok labels)
    (hpresets : checkField (validatePresets T) "malformed presets" "presets" body = .ok presets) :
    WellFormedBody T body ↔ BodySound body := by
  have hlabelsPass : Json.has body (pyStr "labels") = true →
      (validateLabels T (Json.get body (pyStr "labels"))).isSome = true := by
    intro hhas
    rcases checkField_ok hlabels with ⟨hnot, -⟩ | ⟨v, -, hv, -⟩
    · rw [hhas] at hnot
      cases hnot
    · rw [hv]
      rfl
  rcases checkField_ok hpresets with ⟨hhas, -⟩ | ⟨ps, hhas, hps, -⟩
  · refine iff_of_true ⟨hlabelsPass, fun h => ?_⟩ fun items hitems => ?_
    · rw [hhas] at h
      cases h
    · rw [get_of_not_has hhas] at hitems
      cases hitems
  · obtain ⟨items, hget, hitems⟩ := validatePresets_dicts hps
    have hiff : (∀ item ∈ items, WellFormedPreset T item) ↔ ∀ item ∈ items, NothingSlips item := by
      refine forall₂_congr fun item hitem => ?_
      obtain ⟨p, hp⟩ := forall₂_of_mem hitems hitem
      exact wellFormedPreset_iff hp.2 hp.1
    constructor
    · rintro h items' hget'
      obtain ⟨items₁, hget₁, hall⟩ := h.presets hhas
      rw [hget] at hget' hget₁
      rw [← map_dict_injective (Json.list.inj hget')]
      rw [← map_dict_injective (Json.list.inj hget₁)] at hall
      exact hiff.mp hall
    · intro h
      exact ⟨hlabelsPass, fun _ => ⟨items, hget, hiff.mpr (h items hget)⟩⟩

/-- A well-formed body with labels or presets passes the checks. -/
theorem checkPresets_isOk (h : WellFormedBody T body)
    (hsome : Json.has body (pyStr "labels") = true ∨ Json.has body (pyStr "presets") = true) :
    (checkPresets T (.dict body)).isOk = true := by
  have hlabels : ∃ labels,
      checkField (validateLabels T) "malformed labels" "labels" body = .ok labels := by
    cases hhas : Json.has body (pyStr "labels") with
    | true =>
      obtain ⟨v, hv⟩ := Option.isSome_iff_exists.mp (h.labels hhas)
      exact ⟨some v, by rw [checkField, if_pos hhas, hv]⟩
    | false => exact ⟨none, by rw [checkField, hhas, if_neg Bool.false_ne_true]⟩
  have hpresets : ∃ presets,
      checkField (validatePresets T) "malformed presets" "presets" body = .ok presets := by
    cases hhas : Json.has body (pyStr "presets") with
    | true =>
      obtain ⟨items, hget, hitems⟩ := h.presets hhas
      have hpass : ∀ value ∈ items.map Json.dict,
          labelsPass T value = true ∧ (cleanPreset T value).isSome = true := by
        rw [List.forall_mem_map]
        exact fun item hitem => wellFormedPreset_pass (hitems item hitem)
      have hvalid := validatePresets_eq_some.mpr ⟨_, rfl, fun value hv => (hpass value hv).1,
        forall₂_filterMap fun value hv => (hpass value hv).2⟩
      exact ⟨some _, by rw [checkField, if_pos hhas, hget, hvalid]⟩
    | false => exact ⟨none, by rw [checkField, hhas, if_neg Bool.false_ne_true]⟩
  obtain ⟨labels, hlabels⟩ := hlabels
  obtain ⟨presets, hpresets⟩ := hpresets
  have hnone : (!Json.has body (pyStr "labels") && !Json.has body (pyStr "presets")) = false := by
    rcases hsome with hhas | hhas
    · rw [hhas, Bool.not_true, Bool.false_and]
    · rw [hhas, Bool.not_true, Bool.and_false]
  simp only [checkPresets, hnone, Bool.false_eq_true, if_false, hlabels, hpresets]
  rfl

/-- A body through which nothing slips is stored with all its fields. -/
theorem storesBody {m : Memory T}
    (hlabels : checkField (validateLabels T) "malformed labels" "labels" body = .ok labels)
    (hpresets : checkField (validatePresets T) "malformed presets" "presets" body = .ok presets)
    (hsound : BodySound body) : StoresBody body m (m.update labels presets) := by
  refine ⟨?_, ?_, rfl, rfl, rfl⟩
  · rcases checkField_ok hlabels with ⟨hhas, rfl⟩ | ⟨v, hhas, hv, rfl⟩
    · rw [hhas, if_neg Bool.false_ne_true]
      rfl
    · rw [hhas, if_pos rfl]
      exact hv
  · rcases checkField_ok hpresets with ⟨hhas, rfl⟩ | ⟨ps, hhas, hps, rfl⟩
    · rw [hhas, if_neg Bool.false_ne_true]
      rfl
    · rw [hhas, if_pos rfl]
      obtain ⟨items, hget, hitems⟩ := validatePresets_dicts hps
      refine ⟨items, hget, ?_⟩
      have hboth := (List.forall₂_and_left items ps).mpr ⟨hsound items hget, hitems⟩
      exact hboth.imp fun item p hp => stores_of_kept hp.2.2 hp.2.1 hp.1

/-- What the handler does with a body that does not pass. -/
theorem handlePresets_error {d : Json} {detail : String} (h : checkPresets T d = .error detail)
    (s : Server T) : handlePresets s d = (s, .rejected detail) := by
  simp only [handlePresets, h]

/-- A rejection is right unless the body is well formed. -/
theorem allOrNothing_rejected {d : Json} {detail : String}
    (h : handlePresets s d = (s, .rejected detail)) :
    AllOrNothing s d ↔ ¬ ∃ body, d = .dict body ∧ WellFormedBody T body := by
  constructor
  · intro hall hwell
    obtain ⟨answer, hanswer⟩ := hall.accepted hwell
    rw [h] at hanswer
    cases hanswer
  · intro hwell
    refine ⟨fun hyes => absurd hyes hwell, fun _ => ⟨detail, by rw [h]⟩, ?_, fun _ _ => by rw [h]⟩
    intro body answer _ hanswer
    rw [h] at hanswer
    cases hanswer

/-- A request that gets no answer is neither accepted nor rejected. -/
theorem not_allOrNothing_raised {d : Json} (h : (handlePresets s d).2 = .raised) :
    ¬ AllOrNothing s d := by
  intro hall
  by_cases hwell : ∃ body, d = .dict body ∧ WellFormedBody T body
  · obtain ⟨answer, hanswer⟩ := hall.accepted hwell
    rw [h] at hanswer
    cases hanswer
  · obtain ⟨detail, hdetail⟩ := hall.rejected hwell
    rw [h] at hdetail
    cases hdetail

theorem wellFormed_dict :
    (∃ b, Json.dict body = .dict b ∧ WellFormedBody T b) ↔ WellFormedBody T body :=
  ⟨fun ⟨_, heq, hb⟩ => Json.dict.inj heq ▸ hb, fun h => ⟨body, rfl, h⟩⟩

/-- A body that is saved is accepted rightly if and only if nothing slips through it. -/
theorem allOrNothing_accepted {text : PyStr} {answer : Json}
    (hlabels : checkField (validateLabels T) "malformed labels" "labels" body = .ok labels)
    (hpresets : checkField (validatePresets T) "malformed presets" "presets" body = .ok presets)
    (hserve : handlePresets s (.dict body) =
      (⟨s.memory.update labels presets, some text⟩, .ok answer))
    (hsave : save (s.memory.update labels presets) = some text) :
    AllOrNothing s (.dict body) ↔ BodySound body := by
  have hwell := wellFormedBody_iff hlabels hpresets
  constructor
  · intro hall
    by_contra hsound
    obtain ⟨detail, hdetail⟩ := hall.rejected fun h => hsound (hwell.mp (wellFormed_dict.mp h))
    rw [hserve] at hdetail
    cases hdetail
  · intro hsound
    refine ⟨fun _ => ⟨_, by rw [hserve]⟩,
      fun hnot => absurd (wellFormed_dict.mpr (hwell.mpr hsound)) hnot, ?_, ?_⟩
    · rintro _ answer heq -
      cases heq
      rw [hserve]
      exact ⟨storesBody hlabels hpresets hsound, text, hsave, rfl⟩
    · intro detail hdetail
      rw [hserve] at hdetail
      cases hdetail

end Body

/-- The presets of a request are validated strictly, all or nothing, if and only if the body has
    labels or presets, and what passes the checks has nothing that slips through and no
    surrogate. -/
theorem handlePresets_allOrNothing_iff {T : CaseTables} (s : Server T) (d : Json) :
    AllOrNothing s d ↔ Sound s.memory d := by
  cases d with
  | dict body =>
    cases hcheck : checkPresets T (.dict body) with
    | error detail =>
      have hnotOk : (checkPresets T (.dict body)).isOk = false := by rw [hcheck]; rfl
      rw [allOrNothing_rejected (handlePresets_error hcheck s), wellFormed_dict, Sound, hnotOk]
      constructor
      · intro hwell
        refine ⟨?_, fun h => absurd h Bool.false_ne_true⟩
        -- a body without labels and presets has nothing that is not well formed
        by_contra hnone
        rw [not_or, Bool.not_eq_true, Bool.not_eq_true] at hnone
        refine hwell ⟨fun h => ?_, fun h => ?_⟩
        · rw [hnone.1] at h
          cases h
        · rw [hnone.2] at h
          cases h
      · rintro ⟨hsome, -⟩ hwell
        rw [checkPresets_isOk hwell hsome] at hnotOk
        cases hnotOk
    | ok sent =>
      obtain ⟨labels, presets⟩ := sent
      obtain ⟨_, heq, hsome, hlabels, hpresets⟩ := checkPresets_ok hcheck
      cases heq
      have hok : (checkPresets T (.dict body)).isOk = true := by rw [hcheck]; rfl
      rw [Sound, and_iff_right hsome, forall_prop_of_true hok, ← encodable_update hlabels hpresets]
      rcases persist_cases { s with memory := s.memory.update labels presets }
        (.ok (s.memory.update labels presets).presetsBody) with
        ⟨henc, text, hsave, hpersist⟩ | ⟨henc, hpersist⟩
      · rw [and_iff_left henc]
        exact allOrNothing_accepted hlabels hpresets
          ((handlePresets_ok hcheck s).trans hpersist) hsave
      · have hraised := congrArg Prod.snd ((handlePresets_ok hcheck s).trans hpersist)
        exact iff_of_false (not_allOrNothing_raised hraised) fun h => henc h.2
  | null | bool | int | float | str | list =>
    refine iff_of_true ((allOrNothing_rejected rfl).mpr ?_) trivial
    rintro ⟨body, heq, -⟩
    cases heq

/-! ## A prompt that is dropped -/

/-- `{"id": "night", "start": "22:00", "end": "06:00", "prompt": 5}` -/
def fivePrompt : List (PyStr × Json) :=
  [(pyStr "id", .str (pyStr "night")), (pyStr "start", .str (pyStr "22:00")),
    (pyStr "end", .str (pyStr "06:00")), (pyStr "prompt", .int 5)]

/-- `{"presets": [fivePrompt]}` -/
def droppedPrompt : Json := .dict [(pyStr "presets", .list [.dict fivePrompt])]

/-- The request is accepted, and the preset stored without its prompt. -/
theorem handlePresets_drops_prompt :
    (handlePresets (fresh asciiCases) droppedPrompt).1.memory.presets = [night] ∧
      (∃ answer, (handlePresets (fresh asciiCases) droppedPrompt).2 = .ok answer) ∧
      ¬ AllOrNothing (fresh asciiCases) droppedPrompt := by
  have hcheck : checkPresets asciiCases droppedPrompt = .ok (none, some [night]) := rfl
  have hsave : (save ((fresh asciiCases).memory.update none (some [night]))).isSome = true := by
    decide
  obtain ⟨text, htext⟩ := Option.isSome_iff_exists.mp hsave
  have hserve : handlePresets (fresh asciiCases) droppedPrompt =
      (⟨(fresh asciiCases).memory.update none (some [night]), some text⟩,
        .ok ((fresh asciiCases).memory.update none (some [night])).presetsBody) := by
    rw [handlePresets_ok hcheck, persist, htext]
  refine ⟨by rw [hserve]; rfl, ⟨_, by rw [hserve]⟩, fun hall => ?_⟩
  obtain ⟨detail, hdetail⟩ := hall.rejected (by
    rintro ⟨body, heq, hwell⟩
    cases heq
    obtain ⟨items, hget, hitems⟩ := hwell.presets rfl
    have hitem : [fivePrompt] = items := map_dict_injective (Json.list.inj hget)
    obtain ⟨s, hs, -⟩ := (hitems fivePrompt (hitem ▸ List.mem_cons_self)).prompt rfl
    cases hs)
  rw [hserve] at hdetail
  cases hdetail

end Babycat.Settings
