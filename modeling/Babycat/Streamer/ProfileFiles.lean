/-
  Babycat.Streamer.ProfileFiles

  The registered profile (`camera.py`, `_normalize_profile` and `register`;
  FR-009, FR-010): a JSON object, merged field by field with the stored one.

  A `Profile` carries what the normalization has checked, so that it goes
  through another one as it is (`normalizeProfile_of_agrees`), in the file too.
-/

import Babycat.Text.JsonEq
import Babycat.Text.JsonPoints
import Babycat.Text.JsonRoundTrip
import Babycat.Text.Repr

namespace Babycat.Profiles

open Babycat.Text

-- ============================================================================
-- Objects and files
-- ============================================================================

abbrev Fields := List (PyStr × Json)

/-- A JSON object as it is decoded. -/
structure JsonObject where
  fields : Fields
  wellFormed : Json.WellFormed (.dict fields)

/-- A file that holds a JSON object. -/
structure ObjectFile where
  text : PyStr
  object : JsonObject
  reads : Json.loads (universalNewlines text) = some (.dict object.fields)

def JsonObject.text (object : JsonObject) : PyStr :=
  Json.dumps Json.indented (.dict object.fields)

theorem JsonObject.loads_text (object : JsonObject) :
    Json.loads (universalNewlines object.text) = some (.dict object.fields) := by
  have hnewlines : universalNewlines object.text = object.text :=
    Json.universalNewlines_dumps Json.indented (.dict object.fields) (by decide) (by decide)
  rw [hnewlines]
  exact Json.loads_dumps Json.indented object.wellFormed

/-- `_write_json`: the new file; none when the encoder raises, which leaves the old one. -/
def writeJson (object : JsonObject) : Option ObjectFile :=
  if encodable object.text then some ⟨object.text, object, object.loads_text⟩ else none

theorem writeJson_eq_some {object : JsonObject} {file : ObjectFile} :
    writeJson object = some file → file.object = object := by
  intro h
  rw [writeJson] at h
  split_ifs at h
  rw [← Option.some.inj h]

theorem writeJson_isSome (object : JsonObject) :
    (writeJson object).isSome = true ↔ Json.Encodable (.dict object.fields) := by
  rw [← Json.encodable_dumps Json.indented, writeJson]
  split_ifs with h
  · exact iff_of_true rfl h
  · exact iff_of_false Bool.false_ne_true h

theorem wellFormed_empty : Json.WellFormed (.dict []) := rfl

def JsonObject.empty : JsonObject := ⟨[], wellFormed_empty⟩

/-- `load() or {}`; a file that is absent or unreadable is none. -/
def contents (file : Option ObjectFile) : JsonObject := (file.map ObjectFile.object).getD .empty

/-- `d.update(other)` -/
def update (items other : Fields) : Fields :=
  other.foldl (fun items f => Json.setItem f.1 f.2 items) items

theorem wellFormed_update (object other : JsonObject) :
    Json.WellFormed (.dict (update object.fields other.fields)) :=
  Json.wellFormed_fold other.fields object.fields object.wellFormed
    (Json.wellFormed_dict.mp other.wellFormed).2

def JsonObject.update (object other : JsonObject) : JsonObject :=
  ⟨Profiles.update object.fields other.fields, wellFormed_update object other⟩

section Lookup

variable {items other : Fields} {key : PyStr}

theorem lookup_setItem (k : PyStr) (v : Json) (items : Fields) (key : PyStr) :
    (Json.setItem k v items).lookup key = if key = k then some v else items.lookup key := by
  induction items with
  | nil =>
    rw [Json.setItem, List.lookup_cons]
    by_cases h : key = k
    · rw [beq_iff_eq.mpr h, if_pos h]
    · rw [beq_eq_false_iff_ne.mpr h, if_neg h]
  | cons item items ih =>
    obtain ⟨k', v'⟩ := item
    rw [Json.setItem]
    by_cases hk : k' = k
    · subst hk
      rw [if_pos rfl, List.lookup_cons, List.lookup_cons]
      by_cases h : key = k'
      · rw [beq_iff_eq.mpr h, if_pos h]
      · rw [beq_eq_false_iff_ne.mpr h, if_neg h]
    · rw [if_neg hk, List.lookup_cons, List.lookup_cons, ih]
      by_cases h : key = k'
      · have hne : key ≠ k := fun heq => hk (h.symm.trans heq)
        rw [beq_iff_eq.mpr h]
        exact (if_neg hne).symm
      · rw [beq_eq_false_iff_ne.mpr h]

/-- The new fields win. -/
theorem lookup_update (hother : (other.map Prod.fst).Nodup) :
    (update items other).lookup key = (other.lookup key).or (items.lookup key) := by
  induction other generalizing items with
  | nil => rfl
  | cons field other ih =>
    obtain ⟨k, v⟩ := field
    obtain ⟨hnew, hother⟩ := List.nodup_cons.mp hother
    have hstep : update items ((k, v) :: other) = update (Json.setItem k v items) other := rfl
    rw [hstep, ih hother, lookup_setItem, List.lookup_cons]
    by_cases h : key = k
    · have hnone : other.lookup key = none := by
        rw [List.lookup_eq_none_iff]
        intro f hf
        rw [bne_iff_ne]
        exact fun heq => hnew (List.mem_map.mpr ⟨f, hf, heq.symm.trans h⟩)
      rw [hnone, if_pos h, beq_iff_eq.mpr h]
      rfl
    · rw [if_neg h, beq_eq_false_iff_ne.mpr h]

theorem mem_update {f : PyStr × Json} (h : f ∈ update items other) : f ∈ items ∨ f ∈ other := by
  induction other generalizing items with
  | nil => exact .inl h
  | cons field other ih =>
    have hstep : f ∈ update (Json.setItem field.1 field.2 items) other := h
    rcases ih hstep with hitem | hother
    · rcases Json.mem_setItem hitem with heq | hitem
      · exact .inr (List.mem_cons.mpr (.inl heq))
      · exact .inl hitem
    · exact .inr (List.mem_cons_of_mem field hother)

end Lookup

-- ============================================================================
-- Normalization
-- ============================================================================

def defaultSourceType : PyStr := pyStr "rtsp_camera"

/-- `first or second` -/
def orElse (first second : Json) : Json := if Json.truthy first then first else second

/-- `_source_type` -/
def sourceType (printable : CodePoint → Bool) (config existing : Fields) : PyStr :=
  let key := pyStr "source_type"
  let raw := orElse (Json.get config key) (Json.get existing key)
  let value := strip (Json.strOf printable (orElse raw (.str defaultSourceType)))
  if value = [] then defaultSourceType else value

/-- `config.get(key, existing.get(key, ""))` -/
def getOrStored (config existing : Fields) (key : String) : Json :=
  Json.getOr config key (Json.getOr existing key (.str []))

/-- `_coalesce` -/
def coalesce (config existing : Fields) (key : String) (default : Json) : Json :=
  match Json.get config (pyStr key) with
  | .null =>
      match Json.get existing (pyStr key) with
      | .null => default
      | value => value
  | value => value

/-- `_coalesce_optional` -/
def coalesceOptional (config existing : Fields) (key : String) : Json :=
  Json.getOr config key (Json.get existing (pyStr key))

/-- The password of the request, or the stored one if it is empty. -/
def passwordOf (config existing : Fields) : Json :=
  let password := Json.get config (pyStr "password")
  if !Json.truthy password && Json.truthy (Json.get existing (pyStr "password")) then
    Json.get existing (pyStr "password")
  else password

/-- The text of a field, stripped. -/
def strippedText (printable : CodePoint → Bool) (value : Json) : PyStr :=
  strip (Json.strOf printable value)

/-- A normalized profile. -/
structure Profile where
  ip : PyStr
  username : PyStr
  password : PyStr
  rtspPort : Json
  onvifPort : Json
  streamPath : PyStr
  ip_stripped : strip ip = ip
  ip_filled : nonBlank ip = true
  username_stripped : strip username = username
  username_filled : nonBlank username = true
  password_filled : nonBlank password = true
  rtspPort_set : rtspPort ≠ .null
  rtspPort_wellFormed : Json.WellFormed rtspPort
  onvifPort_wellFormed : Json.WellFormed onvifPort
  streamPath_stripped : strip streamPath = streamPath

/-- The profile as it is stored. -/
def Profile.toDict (p : Profile) : Fields :=
  [(pyStr "source_type", .str defaultSourceType), (pyStr "ip", .str p.ip),
    (pyStr "username", .str p.username), (pyStr "password", .str p.password),
    (pyStr "rtsp_port", p.rtspPort), (pyStr "onvif_port", p.onvifPort),
    (pyStr "stream_path", .str p.streamPath)]

section Values

variable {config existing : Fields} {key : String} {default : Json}

theorem coalesce_cases (config existing : Fields) (key : String) (default : Json) :
    coalesce config existing key default = Json.get config (pyStr key) ∨
    coalesce config existing key default = Json.get existing (pyStr key) ∨
    coalesce config existing key default = default := by
  rw [coalesce]
  split
  · split
    · exact .inr (.inr rfl)
    · exact .inr (.inl rfl)
  · exact .inl rfl

theorem coalesce_ne_null (hdefault : default ≠ .null) :
    coalesce config existing key default ≠ .null := by
  rw [coalesce]
  split
  · split
    · exact hdefault
    · assumption
  · assumption

theorem coalesceOptional_cases (config existing : Fields) (key : String) :
    coalesceOptional config existing key = Json.get config (pyStr key) ∨
      coalesceOptional config existing key = Json.get existing (pyStr key) := by
  rw [coalesceOptional, Json.getOr]
  split_ifs
  · exact .inl rfl
  · exact .inr rfl

/-- A value that is got is null or the value of a field. -/
theorem get_cases (items : Fields) (key : PyStr) :
    Json.get items key = .null ∨ ∃ f ∈ items, f.1 = key ∧ f.2 = Json.get items key := by
  induction items with
  | nil => exact .inl rfl
  | cons item items ih =>
    obtain ⟨k, v⟩ := item
    rw [Json.get_cons]
    by_cases h : key = k
    · rw [if_pos h]
      exact .inr ⟨(k, v), List.mem_cons_self, h.symm, rfl⟩
    · rw [if_neg h]
      rcases ih with hnull | ⟨f, hf, hfacts⟩
      · exact .inl hnull
      · exact .inr ⟨f, List.mem_cons_of_mem _ hf, hfacts⟩

end Values

/-- A check of all values holds of what is got. -/
theorem get_of_forall {P : Json → Prop} {items : Fields} (key : PyStr) (hnull : P .null)
    (h : ∀ f ∈ items, P f.2) : P (Json.get items key) := by
  rcases get_cases items key with hget | ⟨f, hf, -, hget⟩
  · rw [hget]
    exact hnull
  · rw [← hget]
    exact h f hf

section Merge

variable {P : Json → Prop} {config existing : Fields}

theorem coalesce_of_forall {default : Json} (key : String) (hnull : P .null) (hdefault : P default)
    (hconfig : ∀ f ∈ config, P f.2) (hexisting : ∀ f ∈ existing, P f.2) :
    P (coalesce config existing key default) := by
  rcases coalesce_cases config existing key default with heq | heq | heq <;> rw [heq]
  · exact get_of_forall _ hnull hconfig
  · exact get_of_forall _ hnull hexisting
  · exact hdefault

theorem coalesceOptional_of_forall (key : String) (hnull : P .null)
    (hconfig : ∀ f ∈ config, P f.2) (hexisting : ∀ f ∈ existing, P f.2) :
    P (coalesceOptional config existing key) := by
  rcases coalesceOptional_cases config existing key with heq | heq <;> rw [heq]
  · exact get_of_forall _ hnull hconfig
  · exact get_of_forall _ hnull hexisting

end Merge

theorem JsonObject.wellFormed_values (object : JsonObject) :
    ∀ f ∈ object.fields, Json.WellFormed f.2 := (Json.wellFormed_dict.mp object.wellFormed).2

theorem wellFormed_null : Json.WellFormed .null := rfl

theorem rtspPort_set (config existing : JsonObject) :
    coalesce config.fields existing.fields "rtsp_port" (.int 554) ≠ .null :=
  coalesce_ne_null Json.noConfusion

theorem rtspPort_wellFormed (config existing : JsonObject) :
    Json.WellFormed (coalesce config.fields existing.fields "rtsp_port" (.int 554)) := by
  have hdefault : Json.WellFormed (.int 554) :=
    Json.wellFormed_int.mpr (lt_of_lt_of_le (by decide : 554 < 10 ^ 3)
      (Nat.pow_le_pow_right (by decide) (by decide)))
  exact coalesce_of_forall _ wellFormed_null hdefault config.wellFormed_values
    existing.wellFormed_values

theorem onvifPort_wellFormed (config existing : JsonObject) :
    Json.WellFormed (coalesceOptional config.fields existing.fields "onvif_port") :=
  coalesceOptional_of_forall _ wellFormed_null config.wellFormed_values existing.wellFormed_values

/-- The error names the field that is missing or blank. -/
def required (field : String) : PyStr := pyStr ("'" ++ field ++ "' is required")

def unsupported (sourceType : PyStr) : PyStr := pyStr "unsupported source_type: " ++ sourceType

section Normalize

variable (printable : CodePoint → Bool) (config existing : JsonObject)

/-- `_normalize_rtsp_camera_profile` -/
def normalizeRtspCameraProfile : Except PyStr Profile :=
  let ip := strippedText printable (getOrStored config.fields existing.fields "ip")
  let username := strippedText printable (getOrStored config.fields existing.fields "username")
  let streamPath := strippedText printable
    (coalesce config.fields existing.fields "stream_path" (.str (pyStr "stream1")))
  if hip : nonBlank ip = true then
    if husername : nonBlank username = true then
      match passwordOf config.fields existing.fields with
      | .str password =>
          if hpassword : nonBlank password = true then
            .ok {
              ip, username, password, streamPath
              rtspPort := coalesce config.fields existing.fields "rtsp_port" (.int 554)
              onvifPort := coalesceOptional config.fields existing.fields "onvif_port"
              ip_stripped := strip_idem _
              ip_filled := hip
              username_stripped := strip_idem _
              username_filled := husername
              password_filled := hpassword
              rtspPort_set := rtspPort_set config existing
              rtspPort_wellFormed := rtspPort_wellFormed config existing
              onvifPort_wellFormed := onvifPort_wellFormed config existing
              streamPath_stripped := strip_idem _ }
          else .error (required "password")
      | _ => .error (required "password")
    else .error (required "username")
  else .error (required "ip")

/-- `_normalize_profile` -/
def normalizeProfile : Except PyStr Profile :=
  let type := sourceType printable config.fields existing.fields
  if type = defaultSourceType then normalizeRtspCameraProfile printable config existing
  else .error (unsupported type)

end Normalize

/-- What comes of a call. -/
inductive Outcome
  | ok
  | error (detail : PyStr)
  | raised
  deriving DecidableEq

theorem wellFormed_profile (p : Profile) : Json.WellFormed (.dict p.toDict) := by
  have hkeys : (p.toDict.map Prod.fst) = ["source_type", "ip", "username", "password", "rtsp_port",
      "onvif_port", "stream_path"].map pyStr := rfl
  rw [Json.wellFormed_dict]
  constructor
  · rw [hkeys]
    exact List.Nodup.map pyStr_injective (by decide)
  · simp only [Profile.toDict, List.forall_mem_cons]
    exact ⟨rfl, rfl, rfl, rfl, p.rtspPort_wellFormed, p.onvifPort_wellFormed, rfl,
      List.forall_mem_nil _⟩

def Profile.object (p : Profile) : JsonObject := ⟨p.toDict, wellFormed_profile p⟩

/-- `register`: what comes of it, and the file behind it. -/
def register (printable : CodePoint → Bool) (config : JsonObject) (stored : Option ObjectFile) :
    Outcome × Option ObjectFile :=
  match normalizeProfile printable config (contents stored) with
  | .error detail => (.error detail, stored)
  | .ok p =>
      match writeJson ((contents stored).update p.object) with
      | some file => (.ok, some file)
      | none => (.raised, stored)

-- ============================================================================
-- A normalized profile stays as it is
-- ============================================================================

/-- The fields of an object are those of a profile. -/
def Agrees (object : JsonObject) (p : Profile) : Prop :=
  ∀ f ∈ p.toDict, object.fields.lookup f.1 = some f.2

section Idempotent

variable {printable : CodePoint → Bool} {object other : JsonObject} {p q : Profile}

theorem agrees_object (p : Profile) : Agrees p.object p :=
  fun _ hf => Json.lookup_of_mem (Json.wellFormed_dict.mp (wellFormed_profile p)).1 hf

theorem agrees_update (object : JsonObject) (p : Profile) : Agrees (object.update p.object) p := by
  intro f hf
  have hlookup : (object.update p.object).fields.lookup f.1 =
      (p.toDict.lookup f.1).or (object.fields.lookup f.1) :=
    lookup_update (Json.wellFormed_dict.mp (wellFormed_profile p)).1
  rw [hlookup, show p.toDict.lookup f.1 = some f.2 from agrees_object p f hf]
  rfl

/-- A field of a profile is there, with the profile's value. -/
theorem Agrees.field (h : Agrees object p) {key : String} {value : Json}
    (hfield : (pyStr key, value) ∈ p.toDict) :
    Json.has object.fields (pyStr key) = true ∧ Json.get object.fields (pyStr key) = value := by
  have hlookup := h _ hfield
  constructor
  · rw [Json.has, hlookup]
    rfl
  · rw [Json.get, hlookup]
    rfl

theorem getOr_of_has {items : Fields} {key : String} {value default : Json}
    (h : Json.has items (pyStr key) = true ∧ Json.get items (pyStr key) = value) :
    Json.getOr items key default = value := by
  rw [Json.getOr, h.1, h.2]
  rfl

theorem coalesce_of_get {config existing : Fields} {key : String} {default value : Json}
    (h : Json.get config (pyStr key) = value) (hvalue : value ≠ .null) :
    coalesce config existing key default = value := by
  rw [coalesce, h]
  cases value with
  | null => exact absurd rfl hvalue
  | _ => rfl

theorem truthy_str {s : PyStr} (h : nonBlank s = true) : Json.truthy (.str s) = true := by
  rw [Json.truthy, bne_iff_ne]
  rintro rfl
  cases h

/-- An object with the fields of a normalized profile normalizes to it, whatever is stored. -/
theorem normalizeProfile_of_agrees (h : Agrees object p) :
    normalizeProfile printable object other = .ok p := by
  have hfield : ∀ (key : String) (value : Json), (pyStr key, value) ∈ p.toDict →
      Json.has object.fields (pyStr key) = true ∧ Json.get object.fields (pyStr key) = value :=
    fun _ _ hmem => h.field hmem
  have htype := hfield "source_type" _ List.mem_cons_self
  have hip := hfield "ip" _ (List.mem_cons_of_mem _ List.mem_cons_self)
  have husername := hfield "username" _
    (List.mem_cons_of_mem _ (List.mem_cons_of_mem _ List.mem_cons_self))
  have hpassword := hfield "password" (.str p.password) (by simp [Profile.toDict])
  have hrtsp := hfield "rtsp_port" p.rtspPort (by simp [Profile.toDict])
  have honvif := hfield "onvif_port" p.onvifPort (by simp [Profile.toDict])
  have hpath := hfield "stream_path" (.str p.streamPath) (by simp [Profile.toDict])
  have hsource : sourceType printable object.fields other.fields = defaultSourceType := by
    have htruthy : Json.truthy (.str defaultSourceType) = true := by decide
    have hstrip : strip defaultSourceType = defaultSourceType := by decide
    rw [sourceType, htype.2]
    simp only [orElse, htruthy, if_true, Json.strOf, hstrip, ite_self]
  have hpass : passwordOf object.fields other.fields = .str p.password := by
    rw [passwordOf, hpassword.2, truthy_str p.password_filled]
    rfl
  have hiptext : strippedText printable (getOrStored object.fields other.fields "ip") = p.ip := by
    rw [getOrStored, getOr_of_has hip]
    exact p.ip_stripped
  have husertext :
      strippedText printable (getOrStored object.fields other.fields "username") = p.username := by
    rw [getOrStored, getOr_of_has husername]
    exact p.username_stripped
  have hpathtext : strippedText printable
      (coalesce object.fields other.fields "stream_path" (.str (pyStr "stream1"))) =
        p.streamPath := by
    rw [coalesce_of_get hpath.2 Json.noConfusion]
    exact p.streamPath_stripped
  have hport : coalesce object.fields other.fields "rtsp_port" (.int 554) = p.rtspPort :=
    coalesce_of_get hrtsp.2 p.rtspPort_set
  have honvifport : coalesceOptional object.fields other.fields "onvif_port" = p.onvifPort :=
    getOr_of_has honvif
  rw [normalizeProfile, hsource, if_pos rfl]
  simp only [normalizeRtspCameraProfile, hpass, hiptext, husertext, hpathtext, hport, honvifport,
    p.ip_filled, p.username_filled, p.password_filled, dite_true]

end Idempotent

end Babycat.Profiles
