/-
  Babycat.Analyzer.SettingsRequests

  The requests that change the settings (`server.py`, `_handle_prompt`,
  `_handle_presets`, `_handle_start` and `_handle_stop`), one at a time, and
  what a restart finds of them.

  A handler checks the whole body, changes the settings in memory, and writes
  the file.  When the encoder raises, the request gets no answer, the settings
  in memory are changed and the file is the old one.
-/

import Babycat.Analyzer.SettingsFile
import Babycat.Text.Repr

namespace Babycat.Settings

open Babycat.Text

-- ============================================================================
-- The handlers
-- ============================================================================

/-- The settings in memory, and the text of the file if there is one. -/
structure Server (T : CaseTables) where
  memory : Memory T
  file : Option PyStr

/-- What comes of a request. -/
inductive Answer
  | ok (body : Json)
  | rejected (detail : String)
  /-- An answer of status 500. -/
  | failed (detail : PyStr)
  /-- The connection is dropped without an answer. -/
  | raised

section Handlers

variable {T : CaseTables}

/-- `persist_settings`, and the answer behind it. -/
def persist (s : Server T) (answer : Answer) : Server T × Answer :=
  match save s.memory with
  | some text => ({ s with file := some text }, answer)
  | none => (s, .raised)

/-- `{"ok": True}` with more fields -/
def okBody (fields : List (PyStr × Json)) : Json := .dict ((pyStr "ok", .bool true) :: fields)

/-- `[k.strip().lower() for k in triggers.split(",") if k.strip()]` -/
def splitKeywords (T : CaseTables) (triggers : PyStr) : List PyStr :=
  (triggers.splitOn (codePoint ',')).filterMap fun k =>
    if nonBlank k then some (lower T (strip k)) else none

/-- `str(body.get(key, ""))` -/
def textOf (printable : CodePoint → Bool) (body : List (PyStr × Json)) (key : String) : PyStr :=
  Json.strOf printable (Json.getOr body key (.str []))

/-- The prompt and the keywords of a body, or why it is rejected. -/
def checkPrompt (T : CaseTables) (printable : CodePoint → Bool) :
    Json → Except String (PyStr × List PyStr)
  | .dict body =>
      let prompt := strip (textOf printable body "prompt")
      if prompt = [] then .error "prompt required"
      else .ok (prompt, splitKeywords T (strip (textOf printable body "triggers")))
  | _ => .error "invalid request body"

/-- `_handle_prompt` -/
def handlePrompt (printable : CodePoint → Bool) (s : Server T) (body : Json) :
    Server T × Answer :=
  match checkPrompt T printable body with
  | .error detail => (s, .rejected detail)
  | .ok (prompt, keywords) =>
      persist { s with memory := { s.memory with prompt := .str prompt, keywords := keywords } }
        (.ok (okBody []))

/-- A field that is checked if it is there. -/
def checkField {α : Type} (validate : Json → Option α) (detail key : String)
    (body : List (PyStr × Json)) : Except String (Option α) :=
  if Json.has body (pyStr key) then
    match validate (Json.get body (pyStr key)) with
    | some value => .ok (some value)
    | none => .error detail
  else .ok none

/-- The labels and the presets of a body, or why it is rejected. -/
def checkPresets (T : CaseTables) :
    Json → Except String (Option (Vocabulary T) × Option (List (Preset T)))
  | .dict body =>
      if !Json.has body (pyStr "labels") && !Json.has body (pyStr "presets") then
        .error "labels or presets required"
      else
        match checkField (validateLabels T) "malformed labels" "labels" body with
        | .error detail => .error detail
        | .ok labels =>
            match checkField (validatePresets T) "malformed presets" "presets" body with
            | .error detail => .error detail
            | .ok presets => .ok (labels, presets)
  | _ => .error "invalid request body"

/-- The settings with the labels and the presets that were sent. -/
def Memory.update (m : Memory T) (labels : Option (Vocabulary T))
    (presets : Option (List (Preset T))) : Memory T :=
  { m with labels := labels.getD m.labels, presets := presets.getD m.presets }

/-- The answer to accepted labels or presets. -/
def Memory.presetsBody (m : Memory T) : Json :=
  okBody [(pyStr "labels", m.labels.toJson), (pyStr "presets", .list (m.presets.map Preset.toJson))]

/-- `_handle_presets` -/
def handlePresets (s : Server T) (body : Json) : Server T × Answer :=
  match checkPresets T body with
  | .error detail => (s, .rejected detail)
  | .ok (labels, presets) =>
      let memory := s.memory.update labels presets
      persist { s with memory := memory } (.ok memory.presetsBody)

/-- `_handle_start`, for what starting the pipeline comes to. -/
def handleStart (s : Server T) (started : Except PyStr Bool) : Server T × Answer :=
  persist { s with memory := { s.memory with analysisActive := true } }
    (match started with
      | .ok b => .ok (okBody [(pyStr "started", .bool b)])
      | .error e => .failed (pyStr "pipeline start failed: " ++ e))

/-- `_handle_stop` -/
def handleStop (s : Server T) : Server T × Answer :=
  persist { s with memory := { s.memory with analysisActive := false } } (.ok (okBody []))

/-- A request with a JSON body, where it has one. -/
inductive Request
  | prompt (body : Json)
  | presets (body : Json)
  | start (started : Except PyStr Bool)
  | stop

/-- `do_POST` -/
def serve (printable : CodePoint → Bool) (s : Server T) : Request → Server T × Answer
  | .prompt body => handlePrompt printable s body
  | .presets body => handlePresets s body
  | .start started => handleStart s started
  | .stop => handleStop s

/-- The checks of the request pass. -/
def Request.accepted (T : CaseTables) (printable : CodePoint → Bool) : Request → Bool
  | .prompt body => (checkPrompt T printable body).isOk
  | .presets body => (checkPresets T body).isOk
  | .start _ | .stop => true

/-- The strings that the request sets have no surrogates. -/
def Request.Texts (printable : CodePoint → Bool) : Request → Prop
  | .prompt (.dict body) => encodable (textOf printable body "prompt") = true ∧
      encodable (textOf printable body "triggers") = true
  | .presets (.dict body) => Json.Encodable (Json.get body (pyStr "labels")) ∧
      PresetsTexts (Json.get body (pyStr "presets"))
  | _ => True

end Handlers

-- ============================================================================
-- One request
-- ============================================================================

section Serve

variable {T : CaseTables} {printable : CodePoint → Bool} {s : Server T} {r : Request}

/-- A keyword is stored with a surrogate if and only if it is sent with one. -/
theorem encodable_keywords (triggers : PyStr) :
    (∀ k ∈ splitKeywords T triggers, encodable k = true) ↔ encodable triggers = true := by
  have hparts : encodable triggers = true ↔
      ∀ part ∈ triggers.splitOn (codePoint ','), encodable part = true := by
    simp only [encodable_iff]
    constructor
    · intro h part hpart c hc
      by_cases hcomma : c = codePoint ','
      · rw [hcomma]
        rfl
      · exact h c ((mem_splitOn_iff hcomma triggers).mp ⟨part, hpart, hc⟩)
    · intro h c hc
      by_cases hcomma : c = codePoint ','
      · rw [hcomma]
        rfl
      · obtain ⟨part, hpart, hmem⟩ := (mem_splitOn_iff hcomma triggers).mpr hc
        exact h part hpart c hmem
  have hone : ∀ part : PyStr,
      (∀ k ∈ (if nonBlank part then some (lower T (strip part)) else none), encodable k = true) ↔
        encodable part = true := by
    intro part
    by_cases hblank : nonBlank part = true
    · simp only [hblank, if_true, Option.mem_some_iff, forall_eq', encodable_lower,
        encodable_strip_iff]
    · rw [Bool.not_eq_true] at hblank
      rw [hblank]
      exact iff_of_true (fun k hk => by cases hk) (encodable_of_blank hblank)
  rw [hparts, splitKeywords]
  constructor
  · intro h part hpart
    exact (hone part).mp fun k hk => h k (List.mem_filterMap.mpr ⟨part, hpart, hk⟩)
  · intro h k hk
    obtain ⟨part, hpart, hk⟩ := List.mem_filterMap.mp hk
    exact (hone part).mpr (h part hpart) k hk

/-- The file is written if and only if the settings can be encoded. -/
theorem persist_cases (s : Server T) (a : Answer) :
    (Json.Encodable s.memory.toJson ∧ ∃ text, save s.memory = some text ∧
        persist s a = ({ s with file := some text }, a)) ∨
      (¬ Json.Encodable s.memory.toJson ∧ persist s a = (s, .raised)) := by
  rw [← save_isSome]
  cases hsave : save s.memory with
  | some text => exact .inl ⟨rfl, text, rfl, by rw [persist, hsave]⟩
  | none => exact .inr ⟨Bool.false_ne_true, by rw [persist, hsave]⟩

/-- A rejected request changes nothing. -/
theorem serve_rejected (h : r.accepted T printable = false) :
    ∃ detail, serve printable s r = (s, .rejected detail) := by
  cases r with
  | prompt body =>
    rw [Request.accepted] at h
    rw [serve, handlePrompt]
    cases hcheck : checkPrompt T printable body with
    | error detail => exact ⟨detail, rfl⟩
    | ok sent =>
      rw [hcheck] at h
      cases h
  | presets body =>
    rw [Request.accepted] at h
    rw [serve, handlePresets]
    cases hcheck : checkPresets T body with
    | error detail => exact ⟨detail, rfl⟩
    | ok sent =>
      rw [hcheck] at h
      cases h
  | start started => cases h
  | stop => cases h

/-- What a field of the body comes to. -/
theorem checkField_ok {α : Type} {validate : Json → Option α} {detail key : String}
    {body : List (PyStr × Json)} {sent : Option α}
    (h : checkField validate detail key body = .ok sent) :
    (Json.has body (pyStr key) = false ∧ sent = none) ∨
      ∃ value, Json.has body (pyStr key) = true ∧
        validate (Json.get body (pyStr key)) = some value ∧ sent = some value := by
  unfold checkField at h
  split at h
  · rename_i hhas
    split at h
    · rename_i value hvalue
      cases h
      exact .inr ⟨value, hhas, hvalue, rfl⟩
    · cases h
  · rename_i hhas
    cases h
    exact .inl ⟨Bool.not_eq_true _ ▸ hhas, rfl⟩

theorem checkPresets_ok {d : Json} {labels : Option (Vocabulary T)}
    {presets : Option (List (Preset T))} (h : checkPresets T d = .ok (labels, presets)) :
    ∃ body, d = .dict body ∧
      (Json.has body (pyStr "labels") = true ∨ Json.has body (pyStr "presets") = true) ∧
      checkField (validateLabels T) "malformed labels" "labels" body = .ok labels ∧
      checkField (validatePresets T) "malformed presets" "presets" body = .ok presets := by
  cases d with
  | dict body =>
    simp only [checkPresets] at h
    split at h
    · cases h
    · rename_i hnone
      split at h
      · cases h
      · rename_i labels' hlabels
        split at h
        · cases h
        · rename_i presets' hpresets
          cases h
          refine ⟨body, rfl, ?_, hlabels, hpresets⟩
          rw [Bool.and_eq_true, Bool.not_eq_true', Bool.not_eq_true', not_and_or,
            Bool.not_eq_false, Bool.not_eq_false] at hnone
          exact hnone
  | _ => cases h

theorem handlePresets_ok {d : Json} {labels : Option (Vocabulary T)}
    {presets : Option (List (Preset T))} (h : checkPresets T d = .ok (labels, presets))
    (s : Server T) :
    handlePresets s d = persist { s with memory := s.memory.update labels presets }
      (.ok (s.memory.update labels presets).presetsBody) := by
  simp only [handlePresets, h]

theorem get_of_not_has {body : List (PyStr × Json)} {key : PyStr}
    (h : Json.has body key = false) : Json.get body key = .null := by
  rw [Json.has, Option.isSome_eq_false_iff, Option.isNone_iff_eq_none] at h
  rw [Json.get, h]
  rfl

/-- What is to be saved has no surrogate. -/
def TextsKept {T : CaseTables} (m : Memory T) (body : List (PyStr × Json)) : Prop :=
  Json.Encodable m.prompt ∧ (∀ k ∈ m.keywords, encodable k = true) ∧
    (if Json.has body (pyStr "labels") then Json.Encodable (Json.get body (pyStr "labels"))
      else Json.Encodable m.labels.toJson) ∧
    (if Json.has body (pyStr "presets") then PresetsTexts (Json.get body (pyStr "presets"))
      else Json.Encodable (.list (m.presets.map Preset.toJson)))

/-- What an accepted request on `/presets` saves. -/
theorem encodable_update {m : Memory T} {body : List (PyStr × Json)} {labels : Option (Vocabulary T)}
    {presets : Option (List (Preset T))}
    (hlabels : checkField (validateLabels T) "malformed labels" "labels" body = .ok labels)
    (hpresets : checkField (validatePresets T) "malformed presets" "presets" body = .ok presets) :
    Json.Encodable (m.update labels presets).toJson ↔ TextsKept m body := by
  refine (encodable_memory _).trans
    (and_congr_right fun _ => and_congr_right fun _ => and_congr ?_ ?_)
  · rcases checkField_ok hlabels with ⟨hhas, rfl⟩ | ⟨v, hhas, hv, rfl⟩
    · rw [hhas, if_neg Bool.false_ne_true]
      rfl
    · rw [hhas, if_pos rfl]
      exact encodable_labels hv
  · rcases checkField_ok hpresets with ⟨hhas, rfl⟩ | ⟨ps, hhas, hps, rfl⟩
    · rw [hhas, if_neg Bool.false_ne_true]
      rfl
    · rw [hhas, if_pos rfl]
      exact (encodable_presets hps).symm

/-- After settings without surrogates, those of the body count. -/
theorem textsKept_iff {m : Memory T} {body : List (PyStr × Json)}
    (henc : Json.Encodable m.toJson) : TextsKept m body ↔
      Json.Encodable (Json.get body (pyStr "labels")) ∧
        PresetsTexts (Json.get body (pyStr "presets")) := by
  obtain ⟨hprompt, hkeywords, hlabels, hpresets⟩ := (encodable_memory m).mp henc
  rw [TextsKept, and_iff_right hprompt, and_iff_right hkeywords]
  refine and_congr ?_ ?_
  · cases hhas : Json.has body (pyStr "labels") with
    | true => rfl
    | false =>
      rw [get_of_not_has hhas]
      exact iff_of_true hlabels rfl
  · cases hhas : Json.has body (pyStr "presets") with
    | true => rfl
    | false =>
      rw [get_of_not_has hhas]
      exact iff_of_true hpresets trivial

/-- What an accepted request saves. -/
theorem serve_accepted (h : r.accepted T printable = true) (hprompt : s.memory.Prompted)
    (henc : Json.Encodable s.memory.toJson) :
    ∃ (m : Memory T) (a : Answer), serve printable s r = persist { s with memory := m } a ∧
      m.Prompted ∧ (Json.Encodable m.toJson ↔ r.Texts printable) ∧ a ≠ .raised := by
  have hparts := (encodable_memory s.memory).mp henc
  cases r with
  | prompt d =>
    rw [Request.accepted] at h
    cases hcheck : checkPrompt T printable d with
    | error detail =>
      rw [hcheck] at h
      cases h
    | ok sent =>
      obtain ⟨prompt, keywords⟩ := sent
      cases d with
      | dict body =>
        simp only [checkPrompt] at hcheck
        split at hcheck
        · cases hcheck
        · rename_i hne
          cases hcheck
          refine ⟨_, _, by rw [serve, handlePrompt, checkPrompt, if_neg hne], ⟨_, rfl, hne⟩, ?_,
            by simp⟩
          rw [encodable_memory, Request.Texts, Json.encodable_str, encodable_keywords,
            encodable_strip_iff, encodable_strip_iff]
          exact ⟨fun h => ⟨h.1, h.2.1⟩, fun h => ⟨h.1, h.2, hparts.2.2⟩⟩
      | _ => cases hcheck
  | presets d =>
    rw [Request.accepted] at h
    cases hcheck : checkPresets T d with
    | error detail =>
      rw [hcheck] at h
      cases h
    | ok sent =>
      obtain ⟨labels, presets⟩ := sent
      obtain ⟨body, rfl, -, hlabels, hpresets⟩ := checkPresets_ok hcheck
      exact ⟨s.memory.update labels presets, _, handlePresets_ok hcheck s, hprompt,
        (encodable_update hlabels hpresets).trans (textsKept_iff henc), by simp⟩
  | start started =>
    refine ⟨{ s.memory with analysisActive := true }, _, rfl, hprompt,
      iff_of_true ((encodable_memory _).mpr hparts) trivial, ?_⟩
    cases started <;> simp
  | stop =>
    exact ⟨{ s.memory with analysisActive := false }, _, rfl, hprompt,
      iff_of_true ((encodable_memory _).mpr hparts) trivial, by simp⟩

end Serve

-- ============================================================================
-- Runs
-- ============================================================================

/-- A request, or a restart of the process. -/
inductive Event
  | request (r : Request)
  | restart

section Runs

variable (T : CaseTables) (printable : CodePoint → Bool)

/-- The server that starts without a file. -/
def fresh : Server T := ⟨defaults T, none⟩

/-- The request, if it is accepted, is saved, and `load` returns the settings in memory. -/
def Survives (s : Server T) (r : Request) : Prop :=
  r.accepted T printable = true →
    (serve printable s r).2 ≠ .raised ∧
      load T (serve printable s r).1.file = some (serve printable s r).1.memory

/-- Every accepted request of the run survives; a restart starts from what it loads. -/
def AllSurvive : Server T → List Event → Prop
  | _, [] => True
  | s, .request r :: events =>
      Survives T printable s r ∧ AllSurvive (serve printable s r).1 events
  | s, .restart :: events => ∃ m, load T s.file = some m ∧ AllSurvive ⟨m, s.file⟩ events

/-- The accepted requests of the run set no string with a surrogate. -/
def AllTexts (events : List Event) : Prop :=
  ∀ r, Event.request r ∈ events → r.accepted T printable = true → r.Texts printable

variable {T} {printable}

/-- The settings in memory are those of the file, and can be saved again. -/
structure Current (s : Server T) : Prop where
  prompted : s.memory.Prompted
  encodable : Json.Encodable s.memory.toJson
  loaded : load T s.file = some s.memory

variable {s : Server T} {r : Request}

theorem current_fresh : Current (fresh T) where
  prompted := ⟨promptDefault, rfl, by decide⟩
  encodable := by
    refine (encodable_memory (defaults T)).mpr ⟨encodable_pyStr _, List.forall_mem_nil _, rfl, rfl⟩
  loaded := load_none

/-- What an accepted request comes to. -/
theorem serve_current_cases (hs : Current s) (h : r.accepted T printable = true) :
    (r.Texts printable ∧ (serve printable s r).2 ≠ .raised ∧ Current (serve printable s r).1) ∨
      (¬ r.Texts printable ∧ (serve printable s r).2 = .raised) := by
  obtain ⟨m, a, hserve, hprompt, hiff, ha⟩ := serve_accepted h hs.prompted hs.encodable
  rw [hserve, ← hiff]
  rcases persist_cases { s with memory := m } a with ⟨henc, text, hsave, hpersist⟩ | ⟨henc, hpersist⟩
  · rw [hpersist]
    exact .inl ⟨henc, ha, hprompt, henc, load_save hprompt hsave⟩
  · rw [hpersist]
    exact .inr ⟨henc, rfl⟩

/-- A request survives if and only if it sets no string with a surrogate. -/
theorem survives_iff (hs : Current s) : Survives T printable s r ↔
    (r.accepted T printable = true → r.Texts printable) := by
  refine forall_congr' fun haccepted => ?_
  rcases serve_current_cases hs haccepted with ⟨htexts, hraised, hcurrent⟩ | ⟨htexts, hraised⟩
  · exact iff_of_true ⟨hraised, hcurrent.loaded⟩ htexts
  · exact iff_of_false (fun h => h.1 hraised) htexts

/-- A request that survives leaves the file current. -/
theorem serve_current (hs : Current s) (h : Survives T printable s r) :
    Current (serve printable s r).1 := by
  cases haccepted : r.accepted T printable with
  | true =>
    rcases serve_current_cases hs haccepted with ⟨-, -, hcurrent⟩ | ⟨-, hraised⟩
    · exact hcurrent
    · exact absurd hraised (h haccepted).1
  | false =>
    obtain ⟨detail, hserve⟩ := serve_rejected (s := s) haccepted
    rw [hserve]
    exact hs

theorem allTexts_request {events : List Event} : AllTexts T printable (.request r :: events) ↔
    (r.accepted T printable = true → r.Texts printable) ∧ AllTexts T printable events := by
  constructor
  · intro h
    exact ⟨h r List.mem_cons_self, fun q hq => h q (List.mem_cons_of_mem _ hq)⟩
  · rintro ⟨hr, hrest⟩ q hq
    rcases List.mem_cons.mp hq with heq | hq
    · cases heq
      exact hr
    · exact hrest q hq

theorem allTexts_restart {events : List Event} :
    AllTexts T printable (.restart :: events) ↔ AllTexts T printable events := by
  constructor
  · exact fun h q hq => h q (List.mem_cons_of_mem _ hq)
  · intro h q hq
    rcases List.mem_cons.mp hq with heq | hq
    · cases heq
    · exact h q hq

/-- From a current file, a run survives if and only if its accepted requests set no string with a
    surrogate. -/
theorem allSurvive_iff (hs : Current s) (events : List Event) :
    AllSurvive T printable s events ↔ AllTexts T printable events := by
  induction events generalizing s with
  | nil => exact iff_of_true trivial fun r hr => by cases hr
  | cons event events ih =>
    cases event with
    | request r =>
      rw [AllSurvive, allTexts_request, ← survives_iff hs]
      exact and_congr_right fun h => ih (serve_current hs h)
    | restart =>
      rw [AllSurvive, hs.loaded, allTexts_restart, ← ih hs]
      -- what is loaded is what was in memory
      constructor
      · rintro ⟨m, hm, h⟩
        cases hm
        exact h
      · exact fun h => ⟨s.memory, rfl, h⟩

/-- The settings survive every accepted request of a run from a fresh start, and every restart in
    it, if and only if no accepted request sets a string with a surrogate. -/
theorem settings_survive_iff (T : CaseTables) (printable : CodePoint → Bool)
    (events : List Event) :
    AllSurvive T printable (fresh T) events ↔ AllTexts T printable events :=
  allSurvive_iff current_fresh events

end Runs

/-! ## A surrogate in the prompt -/

/-- `{"prompt": "\ud800"}` -/
def brokenPrompt : Json := .dict [(pyStr "prompt", .str [loneSurrogate])]

/-- The request is accepted and gets no answer: the prompt is in memory, but not in a file. -/
theorem settings_lost_surrogate :
    (checkPrompt asciiCases (fun _ => false) brokenPrompt).isOk = true ∧
      (serve (fun _ => false) (fresh asciiCases) (.prompt brokenPrompt)).2 = .raised ∧
      (serve (fun _ => false) (fresh asciiCases) (.prompt brokenPrompt)).1.file = none ∧
      ¬ AllSurvive asciiCases (fun _ => false) (fresh asciiCases)
        [.request (.prompt brokenPrompt), .restart] := by
  have hcheck : checkPrompt asciiCases (fun _ => false) brokenPrompt = .ok ([loneSurrogate], []) := rfl
  have hsave : save { defaults asciiCases with prompt := .str [loneSurrogate], keywords := [] } = none := by
    decide
  have hserve : serve (fun _ => false) (fresh asciiCases) (.prompt brokenPrompt) =
      (⟨{ defaults asciiCases with prompt := .str [loneSurrogate], keywords := [] }, none⟩, .raised) := by
    simp only [serve, handlePrompt, hcheck, persist, fresh, hsave]
  rw [hserve]
  refine ⟨rfl, rfl, rfl, fun h => ?_⟩
  have hraised := (h.1 rfl).1
  rw [hserve] at hraised
  exact hraised rfl

end Babycat.Settings
