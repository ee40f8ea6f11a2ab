/-
  Babycat.Streamer.ProfileModels

  The two models of the profile (`camera.py`): `Streamer.Profile` with strings
  and exact numbers, which the runs of the companion are about, and
  `Profiles.Profile` with code points and the texts of numbers, which the files
  are about.

  `SameValue` relates the values that the code cannot tell apart.  On related
  objects the two normalizations give the same profile or the same error
  (`normalizeProfile_same`), a registration stores related fields or gives the
  same error (`register_same`), a start and a stop write related slots
  (`sameApplied_absent`, `promoted_same`, `stopped_same`), and the URL is the
  same (`buildRtspUrl_same`).
-/

import Babycat.Streamer.Camera
import Babycat.Streamer.PendingProfile
import Babycat.Streamer.SourceUrl

namespace Babycat.Profiles

open Babycat.Text
open Babycat.Recorder (Payload)

-- ============================================================================
-- Texts
-- ============================================================================

section Texts

variable {s t : String}

theorem pyStr_append (s t : String) : pyStr (s ++ t) = pyStr s ++ pyStr t := by
  rw [pyStr, String.toList_append, List.map_append]
  rfl

theorem pyStr_ofList (l : List Char) : pyStr (String.ofList l) = l.map codePoint := by
  rw [pyStr, String.toList_ofList]

theorem pyStr_eq_nil : pyStr s = [] ↔ s = "" := by
  rw [show ([] : PyStr) = pyStr "" from rfl, pyStr_inj]

theorem isSpace_codePoint (c : Char) : isSpace (codePoint c) = Streamer.isSpace c := rfl

theorem strip_same (s : String) : pyStr (Streamer.strip s) = strip (pyStr s) := by
  have hspace : isSpace ∘ codePoint = Streamer.isSpace := funext isSpace_codePoint
  rw [Streamer.strip, pyStr_ofList, strip, stripBy, pyStr, List.dropWhile_map, ← List.map_reverse,
    List.dropWhile_map, hspace, List.map_reverse]

/-- A text is blank in both models or in neither. -/
theorem nonBlank_same (s : String) : nonBlank (pyStr s) = true ↔ Streamer.strip s ≠ "" := by
  rw [nonBlank, bne_iff_ne, ← strip_same, ne_eq, pyStr_eq_nil]

/-- The digits of a number. -/
theorem natText_toDigits (n : ℕ) : Json.natText n = (Nat.toDigits 10 n).map codePoint := by
  induction n using Nat.strong_induction_on with
  | h n ih =>
    by_cases hsmall : n < 10
    · rw [Nat.toDigits_of_lt_base hsmall, Json.natText]
      split_ifs with hzero
      · rw [hzero]
        rfl
      · rw [Nat.digits_of_lt 10 n hzero hsmall]
        rfl
    · have hpos : n ≠ 0 := by omega
      have hdiv : n / 10 ≠ 0 := by omega
      have hrest := ih (n / 10) (Nat.div_lt_self (Nat.pos_of_ne_zero hpos) (by decide))
      rw [Json.natText, if_neg hdiv] at hrest
      rw [Nat.toDigits_of_base_le (by decide) (not_lt.mp hsmall), List.map_append, ← hrest,
        Json.natText, if_neg hpos, Nat.digits_def' (by decide) (Nat.pos_of_ne_zero hpos),
        List.reverse_cons, List.map_append]
      rfl

theorem natText_repr (n : ℕ) : pyStr (Nat.repr n) = Json.natText n := by
  rw [natText_toDigits, Nat.repr, pyStr_ofList]

theorem intText_toString (n : ℤ) : pyStr (toString n) = Json.intText n := by
  cases n with
  | ofNat m =>
    rw [Json.intText, if_neg (by simp), List.nil_append]
    exact natText_repr m
  | negSucc m =>
    rw [Json.intText, if_pos (Int.negSucc_lt_zero m)]
    show pyStr ("-" ++ Nat.repr (m + 1)) = _
    rw [pyStr_append, natText_repr]
    rfl

end Texts

-- ============================================================================
-- Values and objects
-- ============================================================================

/-- Two values that the code cannot tell apart. -/
structure SameValue (repr : Recorder.Json → String) (printable : CodePoint → Bool)
    (v : Recorder.Json) (w : Json) : Prop where
  text : pyStr (Streamer.pyStr repr v) = Json.strOf printable w
  truthy : v.truthy = Json.truthy w
  null : v = .null ↔ w = .null
  str : (∃ s, v = .str s) ↔ ∃ t, w = .str t

/-- Two objects with the same fields. -/
def SameFields (repr : Recorder.Json → String) (printable : CodePoint → Bool) (config : Payload)
    (fields : Fields) : Prop :=
  ∀ key : String,
    Option.Rel (SameValue repr printable) (config.lookup key) (fields.lookup (pyStr key))

section Values

variable {repr : Recorder.Json → String} {printable : CodePoint → Bool}
variable {v v' : Recorder.Json} {w w' : Json} {config existing : Payload} {fields stored : Fields}

theorem sameValue_null : SameValue repr printable .null .null where
  text := rfl
  truthy := rfl
  null := ⟨fun _ => rfl, fun _ => rfl⟩
  str := ⟨fun ⟨_, h⟩ => Recorder.Json.noConfusion h, fun ⟨_, h⟩ => Json.noConfusion h⟩

theorem sameValue_int (n : ℤ) : SameValue repr printable (.int n) (.int n) where
  text := intText_toString n
  truthy := rfl
  null := ⟨fun h => Recorder.Json.noConfusion h, fun h => Json.noConfusion h⟩
  str := ⟨fun ⟨_, h⟩ => Recorder.Json.noConfusion h, fun ⟨_, h⟩ => Json.noConfusion h⟩

theorem sameValue_str (s : String) : SameValue repr printable (.str s) (.str (pyStr s)) where
  text := rfl
  truthy := by
    rw [Recorder.Json.truthy, Json.truthy, Bool.eq_iff_iff, bne_iff_ne, bne_iff_ne, ne_eq, ne_eq,
      pyStr_eq_nil]
  null := ⟨fun h => Recorder.Json.noConfusion h, fun h => Json.noConfusion h⟩
  str := ⟨fun _ => ⟨_, rfl⟩, fun _ => ⟨_, rfl⟩⟩

theorem SameValue.str_text {s : String} {t : PyStr} (h : SameValue repr printable v w)
    (hv : v = .str s) (hw : w = .str t) : pyStr s = t := by
  have htext := h.text
  rw [hv, hw] at htext
  exact htext

theorem sameValue_getD {a : Option Recorder.Json} {b : Option Json}
    (h : Option.Rel (SameValue repr printable) a b) (hdefault : SameValue repr printable v w) :
    SameValue repr printable (a.getD v) (b.getD w) := by
  cases h with
  | some h => exact h
  | none => exact hdefault

theorem SameFields.get (h : SameFields repr printable config fields) (key : String) :
    SameValue repr printable (config.get key) (Json.get fields (pyStr key)) :=
  sameValue_getD (h key) sameValue_null

theorem getOr_eq (items : Fields) (key : String) (default : Json) :
    Json.getOr items key default = (items.lookup (pyStr key)).getD default := by
  rw [Json.getOr, Json.has, Json.get]
  cases items.lookup (pyStr key) <;> rfl

theorem orElse_same (h : SameValue repr printable v w) (h' : SameValue repr printable v' w') :
    SameValue repr printable (Streamer.orElse v v') (orElse w w') := by
  rw [Streamer.orElse, orElse, h.truthy]
  split_ifs
  · exact h
  · exact h'

theorem getOrStored_same (hconfig : SameFields repr printable config fields)
    (hstored : SameFields repr printable existing stored) (key : String) :
    SameValue repr printable (Streamer.getOrStored config existing key)
      (getOrStored fields stored key) := by
  rw [Streamer.getOrStored, getOrStored, getOr_eq, getOr_eq]
  exact sameValue_getD (hconfig key) (sameValue_getD (hstored key) (sameValue_str ""))

theorem coalesce_of_stored {key : String} {default : Json}
    (hnull : Json.get fields (pyStr key) = .null) (hvalue : Json.get stored (pyStr key) ≠ .null) :
    coalesce fields stored key default = Json.get stored (pyStr key) := by
  rw [coalesce, hnull]
  cases hget : Json.get stored (pyStr key) with
  | null => exact absurd hget hvalue
  | _ => rfl

theorem coalesce_same (hconfig : SameFields repr printable config fields)
    (hstored : SameFields repr printable existing stored) (key : String)
    (hdefault : SameValue repr printable v w) :
    SameValue repr printable (Streamer.coalesce config existing key v)
      (coalesce fields stored key w) := by
  have hc := hconfig.get key
  have he := hstored.get key
  rw [Streamer.coalesce]
  split
  · rename_i hcnull henull
    rw [coalesce, hc.null.mp hcnull, he.null.mp henull]
    exact hdefault
  · rename_i hcnull hne
    rw [coalesce_of_stored (hc.null.mp hcnull) fun h => hne (he.null.mpr h)]
    exact he
  · rename_i hne _
    rw [coalesce_of_get rfl fun h => hne (hc.null.mpr h)]
    exact hc

theorem coalesceOptional_same (hconfig : SameFields repr printable config fields)
    (hstored : SameFields repr printable existing stored) (key : String) :
    SameValue repr printable (Streamer.coalesceOptional config existing key)
      (coalesceOptional fields stored key) := by
  rw [Streamer.coalesceOptional, coalesceOptional, getOr_eq]
  exact sameValue_getD (hconfig key) (hstored.get key)

theorem strippedText_same (h : SameValue repr printable v w) :
    pyStr (Streamer.strip (Streamer.pyStr repr v)) = strippedText printable w := by
  rw [strip_same, h.text, strippedText]

theorem passwordOf_same (hconfig : SameFields repr printable config fields)
    (hstored : SameFields repr printable existing stored) :
    SameValue repr printable
      (Streamer.orElse (config.get "password")
        (if (existing.get "password").truthy then existing.get "password"
          else config.get "password"))
      (passwordOf fields stored) := by
  have hc := hconfig.get "password"
  have he := hstored.get "password"
  rw [Streamer.orElse, passwordOf, hc.truthy, he.truthy]
  cases hp : Json.truthy (Json.get fields (pyStr "password")) with
  | true => exact hc
  | false =>
    cases hq : Json.truthy (Json.get stored (pyStr "password")) with
    | true => exact he
    | false => exact hc

theorem sourceType_same (hconfig : SameFields repr printable config fields)
    (hstored : SameFields repr printable existing stored) :
    pyStr (Streamer.sourceTypeOf repr config existing) = sourceType printable fields stored := by
  have hraw := orElse_same
    (orElse_same (hconfig.get "source_type") (hstored.get "source_type"))
    (sameValue_str Streamer.defaultSourceType)
  have htext := strippedText_same hraw
  rw [Streamer.sourceTypeOf, sourceType]
  split_ifs with hblank hnil hnil
  · rfl
  · exact absurd (htext.symm.trans (pyStr_eq_nil.mpr hblank)) hnil
  · exact absurd (pyStr_eq_nil.mp (htext.trans hnil)) hblank
  · exact htext

end Values

-- ============================================================================
-- Profiles
-- ============================================================================

/-- The profiles of the two models. -/
structure SameProfile (repr : Recorder.Json → String) (printable : CodePoint → Bool)
    (p : Streamer.Profile) (q : Profile) : Prop where
  ip : pyStr p.ip = q.ip
  username : pyStr p.username = q.username
  password : pyStr p.password = q.password
  rtspPort : SameValue repr printable p.rtspPort q.rtspPort
  onvifPort : SameValue repr printable p.onvifPort q.onvifPort
  streamPath : pyStr p.streamPath = q.streamPath

/-- The same profile, or errors with one text. -/
inductive SameResult (repr : Recorder.Json → String) (printable : CodePoint → Bool) :
    Except String Streamer.Profile → Except PyStr Profile → Prop
  | ok {p : Streamer.Profile} {q : Profile} :
      SameProfile repr printable p q → SameResult repr printable (.ok p) (.ok q)
  | error {s : String} {t : PyStr} : pyStr s = t → SameResult repr printable (.error s) (.error t)

section Normalize

variable {repr : Recorder.Json → String} {printable : CodePoint → Bool}
variable {config existing : Payload} {object stored : JsonObject}

theorem required_same (field : String) : pyStr (Streamer.required field) = required field := rfl

theorem blank_same {s : String} {t : PyStr} (h : pyStr s = t) :
    Streamer.strip s = "" ↔ ¬ nonBlank t = true := by
  rw [← h, nonBlank_same, not_not]

theorem normalizeRtspCameraProfile_same {sourceType : String}
    (supported : sourceType = Streamer.defaultSourceType)
    (hconfig : SameFields repr printable config object.fields)
    (hstored : SameFields repr printable existing stored.fields) :
    SameResult repr printable
      (Streamer.normalizeRtspCameraProfile repr config existing sourceType supported)
      (normalizeRtspCameraProfile printable object stored) := by
  have hip := strippedText_same (getOrStored_same hconfig hstored "ip")
  have husername := strippedText_same (getOrStored_same hconfig hstored "username")
  have hpassword := passwordOf_same hconfig hstored
  have hpath := strippedText_same
    (coalesce_same hconfig hstored "stream_path" (sameValue_str "stream1"))
  have hipBlank := blank_same hip
  have husernameBlank := blank_same husername
  fun_cases Streamer.normalizeRtspCameraProfile repr config existing sourceType supported with
  | case1 _ hblank =>
    have herror : normalizeRtspCameraProfile printable object stored = .error (required "ip") :=
      dif_neg (hipBlank.mp hblank)
    rw [herror]
    exact .error (required_same "ip")
  | case2 _ _ hfilled hblank =>
    have herror : normalizeRtspCameraProfile printable object stored =
        .error (required "username") :=
      (dif_pos (not_not.mp (mt hipBlank.mpr hfilled))).trans (dif_neg (husernameBlank.mp hblank))
    rw [herror]
    exact .error (required_same "username")
  | case3 _ _ _ hipFilled huserFilled password heq hblank =>
    fun_cases normalizeRtspCameraProfile printable object stored with
    | case1 _ _ _ _ _ password' heq' hfilled =>
      exact absurd hfilled ((blank_same (hpassword.str_text heq heq')).mp hblank)
    | case2 | case3 => exact .error (required_same "password")
    | case4 _ _ _ hno => exact absurd (husernameBlank.mpr hno) huserFilled
    | case5 _ hno => exact absurd (hipBlank.mpr hno) hipFilled
  | case4 _ _ _ hipFilled huserFilled password heq hfilled =>
    fun_cases normalizeRtspCameraProfile printable object stored with
    | case1 _ _ _ _ _ password' heq' =>
      exact .ok ⟨hip, husername, hpassword.str_text heq heq',
        coalesce_same hconfig hstored "rtsp_port" (sameValue_int 554),
        coalesceOptional_same hconfig hstored "onvif_port", hpath⟩
    | case2 _ _ _ _ password' heq' hno =>
      exact absurd ((blank_same (hpassword.str_text heq heq')).mpr hno) hfilled
    | case3 _ _ _ _ hno =>
      obtain ⟨t, ht⟩ := hpassword.str.mp ⟨_, heq⟩
      exact absurd ht (hno t)
    | case4 _ _ _ hno => exact absurd (husernameBlank.mpr hno) huserFilled
    | case5 _ hno => exact absurd (hipBlank.mpr hno) hipFilled
  | case5 _ _ _ hipFilled huserFilled hno =>
    fun_cases normalizeRtspCameraProfile printable object stored with
    | case1 _ _ _ _ _ password' heq' =>
      obtain ⟨s, hs⟩ := hpassword.str.mpr ⟨_, heq'⟩
      exact absurd hs (hno s)
    | case2 | case3 => exact .error (required_same "password")
    | case4 _ _ _ hno' => exact absurd (husernameBlank.mpr hno') huserFilled
    | case5 _ hno' => exact absurd (hipBlank.mpr hno') hipFilled

/-- On related objects the two normalizations come to the same. -/
theorem normalizeProfile_same (hconfig : SameFields repr printable config object.fields)
    (hstored : SameFields repr printable existing stored.fields) :
    SameResult repr printable (Streamer.normalizeProfile repr config existing)
      (normalizeProfile printable object stored) := by
  have htype := sourceType_same hconfig hstored
  have hdefault : pyStr Streamer.defaultSourceType = defaultSourceType := rfl
  by_cases hrtsp : Streamer.sourceTypeOf repr config existing = Streamer.defaultSourceType
  · have htext : sourceType printable object.fields stored.fields = defaultSourceType :=
      htype.symm.trans ((congrArg pyStr hrtsp).trans hdefault)
    rw [Streamer.normalizeProfile, dif_pos hrtsp, normalizeProfile, htext, if_pos rfl]
    exact normalizeRtspCameraProfile_same hrtsp hconfig hstored
  · have hother : ¬ pyStr (Streamer.sourceTypeOf repr config existing) = defaultSourceType :=
      fun heq => hrtsp (pyStr_injective (heq.trans hdefault.symm))
    rw [Streamer.normalizeProfile, dif_neg hrtsp, normalizeProfile, ← htype, if_neg hother]
    exact .error (pyStr_append _ _)

end Normalize

-- ============================================================================
-- The stored fields
-- ============================================================================

section Stored

variable {repr : Recorder.Json → String} {printable : CodePoint → Bool}
variable {config other : Payload} {fields new : Fields}
variable {p : Streamer.Profile} {q : Profile}

theorem sameFields_nil : SameFields repr printable [] [] := fun _ => .none

theorem sameFields_cons {v : Recorder.Json} {w : Json} (key : String)
    (h : SameValue repr printable v w) (hrest : SameFields repr printable config fields) :
    SameFields repr printable ((key, v) :: config) ((pyStr key, w) :: fields) := by
  intro k
  rw [List.lookup_cons, List.lookup_cons]
  by_cases hk : k = key
  · rw [beq_iff_eq.mpr hk, beq_iff_eq.mpr (congrArg pyStr hk)]
    exact .some h
  · rw [beq_eq_false_iff_ne.mpr hk, beq_eq_false_iff_ne.mpr fun heq => hk (pyStr_injective heq)]
    exact hrest k

theorem toDict_same (h : SameProfile repr printable p q) :
    SameFields repr printable p.toDict q.toDict := by
  have hstr : ∀ {s : String} {t : PyStr}, pyStr s = t →
      SameValue repr printable (.str s) (.str t) := by
    rintro s t rfl
    exact sameValue_str s
  have htype : pyStr p.sourceType = defaultSourceType := congrArg pyStr p.supported
  exact sameFields_cons _ (hstr htype) <| sameFields_cons _ (hstr h.ip) <|
    sameFields_cons _ (hstr h.username) <| sameFields_cons _ (hstr h.password) <|
    sameFields_cons _ h.rtspPort <| sameFields_cons _ h.onvifPort <|
    sameFields_cons _ (hstr h.streamPath) sameFields_nil

theorem lookup_filter_key (keep : String → Bool) (items : Payload) (key : String) :
    (items.filter fun item => keep item.1).lookup key =
      if keep key then items.lookup key else none := by
  induction items with
  | nil => simp
  | cons item items ih =>
    obtain ⟨k, v⟩ := item
    rw [List.filter_cons]
    by_cases hk : key = k
    · subst hk
      cases hkeep : keep key with
      | true => simp
      | false =>
        rw [hkeep] at ih
        simpa using ih
    · have hne : (key == k) = false := beq_eq_false_iff_ne.mpr hk
      split
      · rw [List.lookup_cons, hne, List.lookup_cons, hne]
        exact ih
      · rw [List.lookup_cons, hne]
        exact ih

/-- `d.update(other)` keeps the objects related. -/
theorem update_same (hconfig : SameFields repr printable config fields)
    (hother : SameFields repr printable other new) (hnew : (new.map Prod.fst).Nodup) :
    SameFields repr printable (Streamer.update config other) (update fields new) := by
  intro key
  rw [lookup_update hnew, Streamer.update, List.lookup_append,
    lookup_filter_key fun k => (other.lookup k).isNone]
  have hkey := hother key
  revert hkey
  cases other.lookup key <;> cases new.lookup (pyStr key) <;> intro hkey
  · exact hconfig key
  · cases hkey
  · cases hkey
  · exact hkey

/-- What is stored after a registration is related again. -/
theorem registered_same (hconfig : SameFields repr printable config fields)
    (h : SameProfile repr printable p q) :
    SameFields repr printable (Streamer.update config p.toDict) (update fields q.toDict) :=
  update_same hconfig (toDict_same h) (Json.wellFormed_dict.mp (wellFormed_profile q)).1

/-- A registration in the two models: it stores related fields, or it leaves the file and gives
    the same error. -/
theorem register_same {object : JsonObject} {stored file : Option ObjectFile} {outcome : Outcome}
    (hconfig : SameFields repr printable other object.fields)
    (hstored : SameFields repr printable config (contents stored).fields)
    (h : register printable object stored = (outcome, file)) :
    (outcome = .ok → ∃ p, Streamer.normalizeProfile repr other config = .ok p ∧
      SameFields repr printable (Streamer.update config p.toDict) (contents file).fields) ∧
    ∀ detail, outcome = .error detail → file = stored ∧
      ∃ text, Streamer.normalizeProfile repr other config = .error text ∧ pyStr text = detail := by
  have hsame := normalizeProfile_same hconfig hstored
  rw [register] at h
  cases hnorm : normalizeProfile printable object (contents stored) with
  | error detail =>
    rw [hnorm] at h hsame
    cases h
    refine ⟨fun hok => (by cases hok), fun t ht => ⟨rfl, ?_⟩⟩
    cases ht
    cases hres : Streamer.normalizeProfile repr other config with
    | error text =>
      rw [hres] at hsame
      cases hsame with
      | error htext => exact ⟨text, rfl, htext⟩
    | ok p =>
      rw [hres] at hsame
      cases hsame
  | ok q =>
    rw [hnorm] at h hsame
    cases hres : Streamer.normalizeProfile repr other config with
    | error text =>
      rw [hres] at hsame
      cases hsame
    | ok p =>
      rw [hres] at hsame
      cases hsame with
      | ok hpq =>
        cases hwrite : writeJson ((contents stored).update q.object) with
        | none =>
          simp only [hwrite] at h
          cases h
          exact ⟨fun hok => (by cases hok), fun t ht => by cases ht⟩
        | some new =>
          simp only [hwrite] at h
          cases h
          refine ⟨fun _ => ⟨p, rfl, ?_⟩, fun t ht => by cases ht⟩
          rw [show contents (some new) = new.object from rfl, writeJson_eq_some hwrite]
          exact registered_same hstored hpq

end Stored

-- ============================================================================
-- The applied slot
-- ============================================================================

/-- An object of the applied slot; what is missing is empty. -/
structure SameObject (repr : Recorder.Json → String) (printable : CodePoint → Bool)
    (config : Payload) (w : Json) : Prop where
  empty : config = [] ↔ Json.truthy w = false
  fields : Json.truthy w = true → ∃ items, w = .dict items ∧ SameFields repr printable config items

/-- The applied slots of the two models. -/
structure SameApplied (repr : Recorder.Json → String) (printable : CodePoint → Bool)
    (a : Streamer.Applied) (applied : JsonObject) : Prop where
  streamingActive :
    Json.truthy (Json.get applied.fields (pyStr "streaming_active")) = a.streamingActive
  absent : a.profile = none → Json.truthy (Json.get applied.fields (pyStr "profile")) = false
  profile : ∀ p, a.profile = some p → ∃ q, SameProfile repr printable p q ∧
    Json.get applied.fields (pyStr "profile") = .dict q.toDict
  presets : SameObject repr printable a.presets (Json.get applied.fields (pyStr "ptz_presets"))
  patrol : SameObject repr printable a.patrol (Json.get applied.fields (pyStr "ptz_patrol"))

section Applied

variable {repr : Recorder.Json → String} {printable : CodePoint → Bool}
variable {config config' : Payload} {w w' : Json}
variable {p : Streamer.Profile} {q : Profile} {a : Streamer.Applied} {applied patrol : JsonObject}

theorem sameObject_falsy (h : Json.truthy w = false) : SameObject repr printable [] w where
  empty := ⟨fun _ => h, fun _ => rfl⟩
  fields := fun hw => absurd hw (by rw [h]; exact Bool.false_ne_true)

/-- Before the first start there is no slot. -/
theorem sameApplied_absent (hactive : a.streamingActive = false) (hprofile : a.profile = none)
    (hpresets : a.presets = []) (hpatrol : a.patrol = []) :
    SameApplied repr printable a (contents none) where
  streamingActive := by
    rw [hactive]
    rfl
  absent := fun _ => rfl
  profile := fun p hp => absurd (hprofile.symm.trans hp) (Option.some_ne_none p).symm
  presets := by
    rw [hpresets]
    exact sameObject_falsy rfl
  patrol := by
    rw [hpatrol]
    exact sameObject_falsy rfl

/-- `value or other` of two objects. -/
theorem SameObject.orElse (h : SameObject repr printable config w)
    (h' : SameObject repr printable config' w') :
    SameObject repr printable (if config.isEmpty then config' else config) (orElse w w') := by
  rw [Profiles.orElse]
  cases hw : Json.truthy w with
  | true =>
    have hne : ¬ config.isEmpty = true := fun hempty =>
      absurd (h.empty.mp (List.isEmpty_iff.mp hempty)) (by rw [hw]; exact Bool.noConfusion)
    rw [if_neg hne, if_pos rfl]
    exact h
  | false =>
    rw [if_pos (List.isEmpty_iff.mpr (h.empty.mpr hw)), if_neg Bool.false_ne_true]
    exact h'

theorem appliedProfile_of_falsy
    (h : Json.truthy (Json.get applied.fields (pyStr "profile")) = false) :
    appliedProfile applied = .dict [] := by
  rw [appliedProfile, orElse, h, if_neg Bool.false_ne_true]

theorem appliedProfile_of_dict (h : Json.get applied.fields (pyStr "profile") = .dict q.toDict) :
    appliedProfile applied = .dict q.toDict := by
  have htruthy : Json.truthy (.dict q.toDict) = true := rfl
  rw [appliedProfile, orElse, h, if_pos htruthy]

theorem equal_str (s t : PyStr) : Json.equal (.str s) (.str t) = true ↔ s = t := by
  rw [Json.equal, decide_eq_true_iff]

/-- Both models keep the presets of the same address, and drop those of another. -/
theorem keptPresets_same (h : SameApplied repr printable a applied)
    (hp : SameProfile repr printable p q) :
    SameObject repr printable (Streamer.keptPresets a p) (keptPresets applied q) := by
  rw [Streamer.keptPresets, keptPresets]
  cases ha : a.profile with
  | none =>
    rw [appliedProfile_of_falsy (h.absent ha)]
    exact sameObject_falsy rfl
  | some p' =>
    obtain ⟨q', hp', hq'⟩ := h.profile p' ha
    have hip : itemOf (.dict q'.toDict) "ip" = .str q'.ip := rfl
    rw [appliedProfile_of_dict hq', hip, Option.map_some]
    by_cases heq : p'.ip = p.ip
    · rw [if_pos (congrArg some heq),
        if_pos ((equal_str _ _).mpr (by rw [← hp'.ip, ← hp.ip, heq]))]
      exact h.presets
    · have hne : ¬ q'.ip = q.ip := fun h => heq (pyStr_injective (by rw [hp'.ip, hp.ip, h]))
      rw [if_neg (fun h => heq (Option.some.inj h)), if_neg (fun h => hne ((equal_str _ _).mp h))]
      exact sameObject_falsy rfl

/-- What a start writes is related. -/
theorem promoted_same {s : Streamer.Companion} (h : SameApplied repr printable a applied)
    (hp : SameProfile repr printable p q)
    (hpatrol : SameObject repr printable s.patrol (.dict patrol.fields)) :
    SameApplied repr printable (Streamer.promote s a p) (promotedObject applied q patrol) where
  streamingActive := rfl
  absent := fun hnone => absurd hnone (Option.some_ne_none p)
  profile := by
    rintro _ ⟨⟩
    exact ⟨q, hp, get_promoted_profile⟩
  presets := by
    have hpresets := (keptPresets_same h hp).orElse (sameObject_falsy (w := .dict []) rfl)
    rw [promotedObject, get_promoted_presets]
    have hsame : (if (Streamer.keptPresets a p).isEmpty then [] else Streamer.keptPresets a p) =
        Streamer.keptPresets a p := by
      split_ifs with hempty
      · exact (List.isEmpty_iff.mp hempty).symm
      · rfl
    rw [hsame] at hpresets
    exact hpresets
  patrol := h.patrol.orElse hpatrol

/-- What a stop writes is related. -/
theorem stopped_same (h : SameApplied repr printable a applied) :
    SameApplied repr printable a.stopped (stoppedObject applied) where
  streamingActive := by
    have hget : Json.get (stopped applied) (pyStr "streaming_active") = .bool false := by
      rw [Json.get, stopped, lookup_setItem, if_pos rfl]
      rfl
    exact congrArg Json.truthy hget
  absent := by
    rw [stoppedObject, get_stopped (by decide)]
    exact h.absent
  profile := by
    rw [stoppedObject, get_stopped (by decide)]
    exact h.profile
  presets := by
    rw [stoppedObject, get_stopped (by decide)]
    exact h.presets
  patrol := by
    rw [stoppedObject, get_stopped (by decide)]
    exact h.patrol

end Applied

-- ============================================================================
-- The URL
-- ============================================================================

section Url

variable {repr : Recorder.Json → String} {printable : CodePoint → Bool}
variable {p : Streamer.Profile} {q : Profile} {c : Char}

/-- `_ALWAYS_SAFE` is ASCII. -/
theorem alwaysSafe_of_le {n : ℕ} (h : 0x80 ≤ n) : alwaysSafe n = false := by
  simp only [alwaysSafe, Bool.or_eq_false_iff, Bool.and_eq_false_iff, decide_eq_false_iff_not,
    beq_eq_false_iff_ne]
  omega

/-- The bytes of a character that is not ASCII are none of `_ALWAYS_SAFE`. -/
theorem utf8EncodeChar_escaped (hc : ¬ c.toNat < 0x80) :
    ∀ b ∈ String.utf8EncodeChar c, alwaysSafe b.toNat = false := by
  have hhigh : ∀ n, 0x80 ≤ n → n < 0x100 → alwaysSafe (UInt8.ofNat n).toNat = false := by
    intro n hn hlt
    rw [toNat_ofNat hlt]
    exact alwaysSafe_of_le hn
  have hle : ¬ c.val.toNat ≤ 0x7F := fun h => hc (Nat.lt_succ_of_le h)
  intro b hb
  rw [String.utf8EncodeChar] at hb
  split_ifs at hb
  all_goals
    simp only [List.mem_cons, List.not_mem_nil, or_false] at hb
    rcases hb with rfl | rfl | rfl | rfl
    all_goals exact hhigh _ (by omega) (by omega)

/-- The characters that `Streamer.quote` keeps are `_ALWAYS_SAFE`. -/
theorem kept_iff_alwaysSafe (c : Char) :
    (c.isAlphanum || c == '_' || c == '.' || c == '-' || c == '~') = alwaysSafe c.toNat := by
  have heq : ∀ (d : Char) (n : ℕ), d.toNat = n → (c == d) = decide (c.toNat = n) := by
    rintro d _ rfl
    rw [Bool.eq_iff_iff, beq_iff_eq, decide_eq_true_iff, Char.toNat_inj]
  have hrange : ∀ lo hi : Char, (decide (lo.val ≤ c.val) && decide (c.val ≤ hi.val)) =
      decide (lo.toNat ≤ c.toNat ∧ c.toNat ≤ hi.toNat) := by
    intro lo hi
    rw [← Bool.decide_and]
    exact decide_eq_decide.mpr (and_congr UInt32.le_iff_toNat_le UInt32.le_iff_toNat_le)
  have hdigit : c.isDigit = decide (48 ≤ c.toNat ∧ c.toNat ≤ 57) := hrange '0' '9'
  have hupper : c.isUpper = decide (65 ≤ c.toNat ∧ c.toNat ≤ 90) :=
    (Bool.decide_and _ _).trans (hrange 'A' 'Z')
  have hlower : c.isLower = decide (97 ≤ c.toNat ∧ c.toNat ≤ 122) := hrange 'a' 'z'
  have halphanum : c.isAlphanum = (c.isUpper || c.isLower || c.isDigit) := rfl
  rw [Bool.eq_iff_iff, halphanum, hdigit, hupper, hlower, heq '_' 95 rfl, heq '.' 46 rfl,
    heq '-' 45 rfl, heq '~' 126 rfl]
  simp only [alwaysSafe, Bool.or_eq_true, Bool.and_eq_true, decide_eq_true_eq, beq_iff_eq]
  omega

/-- The digits of an escape. -/
theorem hexDigit_upperHex : ∀ n < 16, "0123456789ABCDEF".toList.getD n '0' = upperHex n := by
  decide

/-- One character, quoted. -/
theorem quoteChar_same (c : Char) :
    (String.utf8EncodeChar c).flatMap quoteSafe =
      if c.isAlphanum || c == '_' || c == '.' || c == '-' || c == '~' then [c]
      else (String.utf8EncodeChar c).flatMap fun b =>
        ['%', "0123456789ABCDEF".toList.getD (b.toNat / 16) '0',
          "0123456789ABCDEF".toList.getD (b.toNat % 16) '0'] := by
  have hescape : ∀ b : UInt8, alwaysSafe b.toNat = false → quoteSafe b =
      ['%', "0123456789ABCDEF".toList.getD (b.toNat / 16) '0',
        "0123456789ABCDEF".toList.getD (b.toNat % 16) '0'] := by
    intro b hb
    have hlt : b.toNat < 256 := b.toNat_lt
    rw [quoteSafe, if_neg (by rw [hb]; exact Bool.false_ne_true),
      hexDigit_upperHex _ (by omega), hexDigit_upperHex _ (by omega)]
  rw [kept_iff_alwaysSafe]
  by_cases hascii : c.toNat < 0x80
  · have hbyte : (UInt8.ofNat c.toNat).toNat = c.toNat := toNat_ofNat (by omega)
    rw [utf8EncodeChar_ascii hascii, List.flatMap_singleton, List.flatMap_singleton]
    split_ifs with hsafe
    · rw [quoteSafe, hbyte, if_pos hsafe, Char.ofNat_toNat]
    · exact hescape _ (by rw [hbyte]; exact Bool.not_eq_true _ ▸ hsafe)
  · rw [alwaysSafe_of_le (not_lt.mp hascii), if_neg Bool.false_ne_true]
    exact List.flatMap_congr fun b hb => hescape b (utf8EncodeChar_escaped hascii b hb)

theorem quote_same (s : String) : quote (pyStr s) = some (pyStr (Streamer.quote s)) := by
  rw [quote, if_pos (encodable_pyStr s), pyStr, chars_map, quoteAll, encode, List.flatMap_assoc,
    Streamer.quote, pyStr_ofList]
  congr 2
  exact List.flatMap_congr fun c _ => quoteChar_same c

/-- The same profile has the same URL. -/
theorem buildRtspUrl_same (h : SameProfile repr printable p q) :
    buildRtspUrl printable q = some (pyStr (Streamer.buildRtspUrl repr p)) := by
  rw [buildRtspUrl, ← h.username, ← h.password, quote_same, quote_same, Option.bind_some,
    Option.map_some, ← h.ip, ← h.rtspPort.text, ← h.streamPath]
  delta Streamer.buildRtspUrl
  simp only [pyStr_append]

end Url

end Babycat.Profiles
