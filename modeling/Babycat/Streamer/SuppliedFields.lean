/-
  Babycat.Streamer.SuppliedFields

  Who has supplied the fields of a registered profile (`register`, `camera.py`).

  A null is the absence of a value to the optional fields (`_coalesce`), but
  `config.get(key, default)` passes it on, and `str` makes it the text "None".
  `register_supplied_iff` is when `register` accepts and stores what is supplied;
  `register_null` is an address that nobody has supplied.
-/

import Babycat.Streamer.ProfileFiles

namespace Babycat.Profiles

open Babycat.Text

-- ============================================================================
-- What is supplied
-- ============================================================================

section Supplied

variable (printable : CodePoint → Bool) (config existing : Fields)

/-- The value of the request, or the stored one where it is absent or null. -/
def supplied (key : String) : Json :=
  match Json.get config (pyStr key) with
  | .null => Json.get existing (pyStr key)
  | value => value

/-- Its text, stripped; nothing supplied is no text. -/
def suppliedText (key : String) : PyStr :=
  match supplied config existing key with
  | .null => []
  | value => strippedText printable value

/-- The password of the request if there is one, or the stored one. -/
def suppliedPassword : Json :=
  orElse (Json.get config (pyStr "password")) (Json.get existing (pyStr "password"))

def isPassword : Json → Bool
  | .str s => nonBlank s
  | _ => false

/-- The required fields are supplied. -/
def RequiredSupplied : Prop :=
  nonBlank (suppliedText printable config existing "ip") = true ∧
    nonBlank (suppliedText printable config existing "username") = true ∧
    isPassword (suppliedPassword config existing) = true

/-- A text that the request or the stored profile has for a field. -/
def TextOf (key t : PyStr) : Prop :=
  ∃ value, value ≠ .null ∧ (Json.get config key = value ∨ Json.get existing key = value) ∧
    (value = .str t ∨ strippedText printable value = t)

/-- The texts that stand for an optional field without a value. -/
def builtIn : List (PyStr × PyStr) :=
  [(pyStr "source_type", defaultSourceType), (pyStr "stream_path", pyStr "stream1")]

end Supplied

section Register

variable (printable : CodePoint → Bool) (config : JsonObject) (stored : Option ObjectFile)

/-- `register` accepts if and only if the required fields are supplied, stores their values, and
no text that is neither supplied nor one of `own`. -/
structure StoresSupplied (own : List (PyStr × PyStr)) : Prop where
  accepts : (register printable config stored).1 = .ok ↔
    RequiredSupplied printable config.fields (contents stored).fields
  values : (register printable config stored).1 = .ok →
    ∀ fields, (contents (register printable config stored).2).fields = fields →
      Json.get fields (pyStr "ip") =
          .str (suppliedText printable config.fields (contents stored).fields "ip") ∧
        Json.get fields (pyStr "username") =
          .str (suppliedText printable config.fields (contents stored).fields "username") ∧
        Json.get fields (pyStr "password") =
          suppliedPassword config.fields (contents stored).fields
  texts : (register printable config stored).1 = .ok →
    ∀ key t, (key, .str t) ∈ (contents (register printable config stored).2).fields →
      TextOf printable config.fields (contents stored).fields key t ∨ (key, t) ∈ own

/-- What `register` writes over the stored profile. -/
def newFields (existing : JsonObject) : Fields :=
  [(pyStr "source_type", .str defaultSourceType),
    (pyStr "ip", .str (strippedText printable (getOrStored config.fields existing.fields "ip"))),
    (pyStr "username",
      .str (strippedText printable (getOrStored config.fields existing.fields "username"))),
    (pyStr "password", passwordOf config.fields existing.fields),
    (pyStr "rtsp_port", coalesce config.fields existing.fields "rtsp_port" (.int 554)),
    (pyStr "onvif_port", coalesceOptional config.fields existing.fields "onvif_port"),
    (pyStr "stream_path", .str (strippedText printable
      (coalesce config.fields existing.fields "stream_path" (.str (pyStr "stream1")))))]

/-- No text that is to be written has a surrogate. -/
def Writable (existing : JsonObject) : Prop :=
  Json.Encodable (.dict (update existing.fields (newFields printable config existing)))

/-- A required text is there, or a null in its place. -/
def Passes (existing : JsonObject) (key : String) : Prop :=
  getOrStored config.fields existing.fields key = .null ∨
    nonBlank (suppliedText printable config.fields existing.fields key) = true

/-- A null is harmless where the supplied text is that of a null. -/
def NullHarmless (existing : JsonObject) (key : String) : Prop :=
  getOrStored config.fields existing.fields key = .null →
    suppliedText printable config.fields existing.fields key = pyStr "None"

/-- The condition under which `register` does what it should. -/
def NoNullTaken (existing : JsonObject) : Prop :=
  (RequiredSupplied printable config.fields existing.fields ∧
      NullHarmless printable config existing "ip" ∧
      NullHarmless printable config existing "username" ∧ Writable printable config existing) ∨
    (¬RequiredSupplied printable config.fields existing.fields ∧
      ¬(Passes printable config existing "ip" ∧ Passes printable config existing "username" ∧
        isPassword (suppliedPassword config.fields existing.fields) = true ∧
        Writable printable config existing))

/-- The optional texts are supplied too. -/
def OptionalSupplied (existing : JsonObject) : Prop :=
  TextOf printable config.fields existing.fields (pyStr "source_type") defaultSourceType ∧
    supplied config.fields existing.fields "stream_path" ≠ .null

end Register

-- ============================================================================
-- The text of a field
-- ============================================================================

section Texts

variable {printable : CodePoint → Bool} {config existing : Fields} {key : String}

theorem get_of_not_has {items : Fields} {key : PyStr} (h : Json.has items key = false) :
    Json.get items key = .null := by
  rw [Json.has, Option.isSome_eq_false_iff, Option.isNone_iff_eq_none] at h
  rw [Json.get, h]
  rfl

theorem nonBlank_none : nonBlank (pyStr "None") = true := by decide

/-- A null is stored as a text. -/
theorem strippedText_null : strippedText printable .null = pyStr "None" := by
  have hstr : Json.strOf printable .null = pyStr "None" := by
    rw [Json.strOf, Json.repr]
    · rfl
    · exact fun s hs => by cases hs
  rw [strippedText, hstr]
  decide

/-- What is stored for a field that is no null. -/
theorem strippedText_getOrStored (h : getOrStored config existing key ≠ .null) :
    strippedText printable (getOrStored config existing key) =
      suppliedText printable config existing key := by
  have htext : ∀ value, value ≠ .null → (match value with
      | .null => []
      | value => strippedText printable value) = strippedText printable value := by
    intro value hvalue
    cases value with
    | null => exact absurd rfl hvalue
    | _ => rfl
  rw [getOrStored, Json.getOr] at h ⊢
  rw [suppliedText, supplied]
  cases hconfig : Json.has config (pyStr key) with
  | true =>
    rw [hconfig, if_pos rfl] at h
    rw [if_pos rfl]
    cases hget : Json.get config (pyStr key) with
    | null => exact absurd hget h
    | _ => rfl
  | false =>
    rw [hconfig, if_neg Bool.false_ne_true, Json.getOr] at h
    rw [if_neg Bool.false_ne_true, Json.getOr, get_of_not_has hconfig]
    cases hexisting : Json.has existing (pyStr key) with
    | true =>
      rw [hexisting, if_pos rfl] at h
      rw [if_pos rfl]
      exact (htext _ h).symm
    | false =>
      rw [if_neg Bool.false_ne_true, get_of_not_has hexisting]
      rfl

/-- The check of a required text. -/
theorem nonBlank_getOrStored :
    nonBlank (strippedText printable (getOrStored config existing key)) = true ↔
      getOrStored config existing key = .null ∨
        nonBlank (suppliedText printable config existing key) = true := by
  by_cases h : getOrStored config existing key = .null
  · rw [h, strippedText_null]
    exact iff_of_true nonBlank_none (.inl rfl)
  · rw [strippedText_getOrStored h]
    exact (or_iff_right h).symm

/-- A required text as it is supplied. -/
theorem strippedText_eq_iff :
    strippedText printable (getOrStored config existing key) =
        suppliedText printable config existing key ↔
      (getOrStored config existing key = .null →
        suppliedText printable config existing key = pyStr "None") := by
  by_cases h : getOrStored config existing key = .null
  · rw [h, strippedText_null]
    exact ⟨fun heq _ => heq.symm, fun himp => (himp rfl).symm⟩
  · exact iff_of_true (strippedText_getOrStored h) fun hnull => absurd hnull h

theorem isPassword_falsy {value : Json} (h : Json.truthy value = false) :
    isPassword value = false := by
  cases value with
  | str s =>
    rw [Json.truthy, bne_eq_false_iff_eq] at h
    rw [h]
    rfl
  | _ => rfl

/-- The password that is checked is the supplied one. -/
theorem isPassword_passwordOf : isPassword (passwordOf config existing) = true ↔
    isPassword (suppliedPassword config existing) = true := by
  rw [passwordOf, suppliedPassword, orElse]
  cases hconfig : Json.truthy (Json.get config (pyStr "password")) with
  | true =>
    rw [Bool.not_true, Bool.false_and, if_neg Bool.false_ne_true, if_pos rfl]
  | false =>
    rw [Bool.not_false, Bool.true_and, if_neg Bool.false_ne_true]
    cases hexisting : Json.truthy (Json.get existing (pyStr "password")) with
    | true => rw [if_pos rfl]
    | false =>
      rw [if_neg Bool.false_ne_true, isPassword_falsy hconfig, isPassword_falsy hexisting]

theorem passwordOf_eq (h : isPassword (suppliedPassword config existing) = true) :
    passwordOf config existing = suppliedPassword config existing := by
  rw [passwordOf]
  rw [suppliedPassword, orElse] at h ⊢
  cases hconfig : Json.truthy (Json.get config (pyStr "password")) with
  | true => rw [Bool.not_true, Bool.false_and, if_neg Bool.false_ne_true, if_pos rfl]
  | false =>
    rw [hconfig, if_neg Bool.false_ne_true] at h
    rw [Bool.not_false, Bool.true_and, if_neg Bool.false_ne_true]
    cases hexisting : Json.truthy (Json.get existing (pyStr "password")) with
    | true => rw [if_pos rfl]
    | false =>
      rw [isPassword_falsy hexisting] at h
      cases h

end Texts

-- ============================================================================
-- The register
-- ============================================================================

section Accepts

variable {printable : CodePoint → Bool} {config existing : JsonObject}

/-- The checks of a request, and what an accepted one makes of the fields. -/
theorem normalizeProfile_spec
    (htype : sourceType printable config.fields existing.fields = defaultSourceType) :
    (∃ p, normalizeProfile printable config existing = .ok p ∧
        p.toDict = newFields printable config existing ∧
        Passes printable config existing "ip" ∧ Passes printable config existing "username" ∧
        isPassword (suppliedPassword config.fields existing.fields) = true) ∨
      ((∃ detail, normalizeProfile printable config existing = .error detail) ∧
        ¬(Passes printable config existing "ip" ∧ Passes printable config existing "username" ∧
          isPassword (suppliedPassword config.fields existing.fields) = true)) := by
  rw [normalizeProfile, htype, if_pos rfl, ← isPassword_passwordOf]
  simp only [Passes, ← nonBlank_getOrStored, normalizeRtspCameraProfile]
  by_cases hip :
      nonBlank (strippedText printable (getOrStored config.fields existing.fields "ip")) = true
  · by_cases husername : nonBlank
        (strippedText printable (getOrStored config.fields existing.fields "username")) = true
    · simp only [hip, husername, dif_pos, true_and]
      cases hpassword : passwordOf config.fields existing.fields with
      | str s =>
        by_cases hs : nonBlank s = true
        · refine .inl ⟨_, dif_pos hs, ?_, hs⟩
          rw [newFields, hpassword]
          rfl
        · exact .inr ⟨⟨required "password", dif_neg hs⟩, hs⟩
      | _ => exact .inr ⟨⟨required "password", rfl⟩, Bool.false_ne_true⟩
    · exact .inr ⟨⟨required "username", by rw [dif_pos hip, dif_neg husername]⟩,
        fun h => husername h.2.1⟩
  · exact .inr ⟨⟨required "ip", dif_neg hip⟩, fun h => hip h.1⟩

/-- When `register` accepts, and what the file holds then. -/
theorem register_accepts {stored : Option ObjectFile}
    (htype : sourceType printable config.fields (contents stored).fields = defaultSourceType) :
    ((register printable config stored).1 = .ok ↔
      Passes printable config (contents stored) "ip" ∧
        Passes printable config (contents stored) "username" ∧
        isPassword (suppliedPassword config.fields (contents stored).fields) = true ∧
        Writable printable config (contents stored)) ∧
      ((register printable config stored).1 = .ok →
        (contents (register printable config stored).2).fields =
          update (contents stored).fields (newFields printable config (contents stored))) := by
  rcases normalizeProfile_spec htype with
    ⟨p, hp, hdict, hip, husername, hpassword⟩ | ⟨⟨detail, herror⟩, hfails⟩
  · have hwritable := writeJson_isSome ((contents stored).update p.object)
    have hfields : ((contents stored).update p.object).fields =
        update (contents stored).fields (newFields printable config (contents stored)) := by
      rw [← hdict]
      rfl
    rw [hfields] at hwritable
    cases hwrite : writeJson ((contents stored).update p.object) with
    | none =>
      have hregister : register printable config stored = (.raised, stored) := by
        simp only [register, hp, hwrite]
      rw [hwrite] at hwritable
      rw [hregister]
      exact ⟨iff_of_false Outcome.noConfusion fun h => Bool.false_ne_true (hwritable.mpr h.2.2.2),
        fun h => by cases h⟩
    | some file =>
      have hregister : register printable config stored = (.ok, some file) := by
        simp only [register, hp, hwrite]
      have hfile : file.object = (contents stored).update p.object := writeJson_eq_some hwrite
      rw [hwrite] at hwritable
      rw [hregister]
      refine ⟨iff_of_true rfl ⟨hip, husername, hpassword, hwritable.mp rfl⟩, fun _ => ?_⟩
      rw [← hfields, ← hfile]
      rfl
  · have hregister : register printable config stored = (.error detail, stored) := by
      simp only [register, herror]
    rw [hregister]
    exact ⟨iff_of_false Outcome.noConfusion fun h => hfails ⟨h.1, h.2.1, h.2.2.1⟩,
      fun h => by cases h⟩

end Accepts

-- ============================================================================
-- What is stored
-- ============================================================================

section Stored

variable {printable : CodePoint → Bool} {config existing : JsonObject}

theorem newFields_keys : ((newFields printable config existing).map Prod.fst).Nodup := by
  have hkeys : (newFields printable config existing).map Prod.fst = ["source_type", "ip",
      "username", "password", "rtsp_port", "onvif_port", "stream_path"].map pyStr := rfl
  rw [hkeys]
  exact List.Nodup.map pyStr_injective (by decide)

theorem mem_newFields_ip (printable : CodePoint → Bool) (config existing : JsonObject) :
    (pyStr "ip", .str (strippedText printable (getOrStored config.fields existing.fields "ip"))) ∈
      newFields printable config existing :=
  List.mem_cons_of_mem _ List.mem_cons_self

theorem mem_newFields_username (printable : CodePoint → Bool) (config existing : JsonObject) :
    (pyStr "username",
      .str (strippedText printable (getOrStored config.fields existing.fields "username"))) ∈
      newFields printable config existing :=
  List.mem_cons_of_mem _ (List.mem_cons_of_mem _ List.mem_cons_self)

/-- A new field is what is read of the file. -/
theorem get_update_newFields {key : PyStr} {value : Json}
    (h : (key, value) ∈ newFields printable config existing) :
    Json.get (update existing.fields (newFields printable config existing)) key = value := by
  rw [Json.get, lookup_update newFields_keys, Json.lookup_of_mem newFields_keys h]
  rfl

/-- A field of the stored profile is supplied. -/
theorem textOf_stored {key t : PyStr} (h : (key, .str t) ∈ existing.fields) :
    TextOf printable config.fields existing.fields key t := by
  have hlookup := Json.lookup_of_mem (Json.wellFormed_dict.mp existing.wellFormed).1 h
  refine ⟨.str t, Json.noConfusion, .inr ?_, .inl rfl⟩
  rw [Json.get, hlookup]
  rfl

theorem textOf_got {key t : PyStr}
    (h : Json.get config.fields key = .str t ∨ Json.get existing.fields key = .str t) :
    TextOf printable config.fields existing.fields key t :=
  ⟨.str t, Json.noConfusion, h, .inl rfl⟩

/-- What is supplied for a field is a value of it, in the request or stored. -/
theorem supplied_cases (config existing : Fields) (key : String) :
    Json.get config (pyStr key) = supplied config existing key ∨
      Json.get existing (pyStr key) = supplied config existing key := by
  rw [supplied]
  split
  · exact .inr rfl
  · exact .inl rfl

theorem textOf_supplied {key : String} {t : PyStr} (ht : t ≠ [])
    (h : suppliedText printable config.fields existing.fields key = t) :
    TextOf printable config.fields existing.fields (pyStr key) t := by
  have hne : supplied config.fields existing.fields key ≠ .null := by
    intro hnull
    rw [suppliedText, hnull] at h
    exact ht h.symm
  refine ⟨_, hne, supplied_cases _ _ key, .inr ?_⟩
  rw [← h, suppliedText]
  cases hsupplied : supplied config.fields existing.fields key with
  | null => exact absurd hsupplied hne
  | _ => rfl

theorem strippedText_streamPath :
    strippedText printable (.str (pyStr "stream1")) = pyStr "stream1" := by
  have hstrip : strip (pyStr "stream1") = pyStr "stream1" := by decide
  exact hstrip

theorem coalesce_of_supplied {default : Json} {key : String}
    (h : supplied config.fields existing.fields key ≠ .null) :
    coalesce config.fields existing.fields key default =
      supplied config.fields existing.fields key := by
  rw [supplied] at h ⊢
  rw [coalesce]
  cases hconfig : Json.get config.fields (pyStr key) with
  | null =>
    rw [hconfig] at h
    cases hexisting : Json.get existing.fields (pyStr key) with
    | null => exact absurd hexisting h
    | _ => rfl
  | _ => rfl

theorem coalesce_of_null {default : Json} {key : String}
    (h : supplied config.fields existing.fields key = .null) :
    coalesce config.fields existing.fields key default = default := by
  rw [supplied] at h
  rw [coalesce]
  cases hconfig : Json.get config.fields (pyStr key) with
  | null =>
    rw [hconfig] at h
    rw [show Json.get existing.fields (pyStr key) = .null from h]
  | _ =>
    rw [hconfig] at h
    cases h

/-- A text that the streamer itself puts there. -/
def OwnText (config existing : Fields) (key t : PyStr) : Prop :=
  (key, t) = (pyStr "source_type", defaultSourceType) ∨
    supplied config existing "stream_path" = .null ∧
      (key, t) = (pyStr "stream_path", pyStr "stream1")

theorem OwnText.builtIn {config existing : Fields} {key t : PyStr}
    (h : OwnText config existing key t) : (key, t) ∈ builtIn := by
  rcases h with h | ⟨-, h⟩ <;> rw [h]
  · exact List.mem_cons_self
  · exact List.mem_cons_of_mem _ List.mem_cons_self

/-- The texts of the new fields, where the required ones are those supplied. -/
theorem textOf_newFields {key t : PyStr} (h : (key, .str t) ∈ newFields printable config existing)
    (hrequired : RequiredSupplied printable config.fields existing.fields)
    (hip : NullHarmless printable config existing "ip")
    (husername : NullHarmless printable config existing "username") :
    TextOf printable config.fields existing.fields key t ∨
      OwnText config.fields existing.fields key t := by
  have htext : ∀ {key : String}, NullHarmless printable config existing key →
      nonBlank (suppliedText printable config.fields existing.fields key) = true →
      TextOf printable config.fields existing.fields (pyStr key)
        (strippedText printable (getOrStored config.fields existing.fields key)) := by
    intro key hnull hfilled
    have heq := strippedText_eq_iff.mpr hnull
    refine textOf_supplied ?_ heq.symm
    rw [heq]
    rintro hnil
    rw [hnil] at hfilled
    cases hfilled
  simp only [newFields, List.mem_cons, List.not_mem_nil, or_false, Prod.mk.injEq] at h
  rcases h with ⟨rfl, h⟩ | ⟨rfl, h⟩ | ⟨rfl, h⟩ | ⟨rfl, h⟩ | ⟨rfl, h⟩ | ⟨rfl, h⟩ | ⟨rfl, h⟩
  · cases h
    exact .inr (.inl rfl)
  · cases h
    exact .inl (htext hip hrequired.1)
  · cases h
    exact .inl (htext husername hrequired.2.1)
  · rw [passwordOf_eq hrequired.2.2, suppliedPassword, orElse] at h
    split_ifs at h
    · exact .inl (textOf_got (.inl h.symm))
    · exact .inl (textOf_got (.inr h.symm))
  · rcases coalesce_cases config.fields existing.fields "rtsp_port" (.int 554)
      with heq | heq | heq <;> rw [heq] at h
    · exact .inl (textOf_got (.inl h.symm))
    · exact .inl (textOf_got (.inr h.symm))
    · cases h
  · rcases coalesceOptional_cases config.fields existing.fields "onvif_port"
      with heq | heq <;> rw [heq] at h
    · exact .inl (textOf_got (.inl h.symm))
    · exact .inl (textOf_got (.inr h.symm))
  · cases h
    by_cases hnull : supplied config.fields existing.fields "stream_path" = .null
    · rw [coalesce_of_null hnull, strippedText_streamPath]
      exact .inr (.inr ⟨hnull, rfl⟩)
    · rw [coalesce_of_supplied hnull]
      exact .inl ⟨_, hnull, supplied_cases _ _ "stream_path", .inr rfl⟩

end Stored

section Main

variable {printable : CodePoint → Bool} {config : JsonObject} {stored : Option ObjectFile}

/-- Accepting what is supplied, and storing it, is the condition. -/
theorem noNullTaken_of_stores {own : List (PyStr × PyStr)}
    (htype : sourceType printable config.fields (contents stored).fields = defaultSourceType)
    (h : StoresSupplied printable config stored own) :
    NoNullTaken printable config (contents stored) := by
  obtain ⟨haccepts, hfields⟩ := register_accepts htype
  by_cases hok : (register printable config stored).1 = .ok
  · have hvalues := h.values hok _ (hfields hok)
    have hip := get_update_newFields (mem_newFields_ip printable config (contents stored))
    have husername := get_update_newFields
      (mem_newFields_username printable config (contents stored))
    refine .inl ⟨h.accepts.mp hok, ?_, ?_, (haccepts.mp hok).2.2.2⟩
    · exact strippedText_eq_iff.mp (Json.str.inj (hip.symm.trans hvalues.1))
    · exact strippedText_eq_iff.mp (Json.str.inj (husername.symm.trans hvalues.2.1))
  · exact .inr ⟨fun hrequired => hok (h.accepts.mpr hrequired),
      fun hpasses => hok (haccepts.mpr hpasses)⟩

/-- Under the condition, what is accepted is supplied. -/
theorem accepts_of_noNullTaken
    (htype : sourceType printable config.fields (contents stored).fields = defaultSourceType)
    (h : NoNullTaken printable config (contents stored)) :
    ((register printable config stored).1 = .ok ↔
        RequiredSupplied printable config.fields (contents stored).fields) ∧
      ((register printable config stored).1 = .ok →
        NullHarmless printable config (contents stored) "ip" ∧
          NullHarmless printable config (contents stored) "username") := by
  obtain ⟨haccepts, -⟩ := register_accepts htype
  rcases h with ⟨hrequired, hip, husername, hwritable⟩ | ⟨hrequired, hpasses⟩
  · exact ⟨iff_of_true (haccepts.mpr
      ⟨.inr hrequired.1, .inr hrequired.2.1, hrequired.2.2, hwritable⟩) hrequired,
      fun _ => ⟨hip, husername⟩⟩
  · have hrejected : (register printable config stored).1 ≠ .ok := fun hok =>
      hpasses (haccepts.mp hok)
    exact ⟨iff_of_false hrejected hrequired, fun hok => absurd hok hrejected⟩

theorem values_of_noNullTaken
    (htype : sourceType printable config.fields (contents stored).fields = defaultSourceType)
    (h : NoNullTaken printable config (contents stored))
    (hok : (register printable config stored).1 = .ok) (fields : Fields)
    (hfields : (contents (register printable config stored).2).fields = fields) :
    Json.get fields (pyStr "ip") =
        .str (suppliedText printable config.fields (contents stored).fields "ip") ∧
      Json.get fields (pyStr "username") =
        .str (suppliedText printable config.fields (contents stored).fields "username") ∧
      Json.get fields (pyStr "password") =
        suppliedPassword config.fields (contents stored).fields := by
  obtain ⟨haccepts, hstored⟩ := register_accepts htype
  obtain ⟨hrequired, hnulls⟩ := accepts_of_noNullTaken htype h
  obtain ⟨hip, husername⟩ := hnulls hok
  rw [← hfields, hstored hok, ← strippedText_eq_iff.mpr hip, ← strippedText_eq_iff.mpr husername,
    ← passwordOf_eq (hrequired.mp hok).2.2]
  refine ⟨get_update_newFields ?_, get_update_newFields ?_, get_update_newFields ?_⟩ <;>
    simp [newFields]

theorem texts_of_noNullTaken
    (htype : sourceType printable config.fields (contents stored).fields = defaultSourceType)
    (h : NoNullTaken printable config (contents stored))
    (hok : (register printable config stored).1 = .ok) (key t : PyStr)
    (hmem : (key, .str t) ∈ (contents (register printable config stored).2).fields) :
    TextOf printable config.fields (contents stored).fields key t ∨
      OwnText config.fields (contents stored).fields key t := by
  obtain ⟨-, hstored⟩ := register_accepts htype
  obtain ⟨hrequired, hnulls⟩ := accepts_of_noNullTaken htype h
  obtain ⟨hip, husername⟩ := hnulls hok
  rw [hstored hok] at hmem
  rcases mem_update hmem with hold | hnew
  · exact .inl (textOf_stored hold)
  · exact textOf_newFields hnew (hrequired.mp hok) hip husername

/-- A new text is a text of the file. -/
theorem mem_stored {key t : PyStr}
    (htype : sourceType printable config.fields (contents stored).fields = defaultSourceType)
    (hok : (register printable config stored).1 = .ok)
    (h : (key, .str t) ∈ newFields printable config (contents stored)) :
    (key, .str t) ∈ (contents (register printable config stored).2).fields := by
  obtain ⟨-, hstored⟩ := register_accepts htype
  have hget := get_update_newFields h
  rw [hstored hok]
  rcases get_cases (update (contents stored).fields (newFields printable config (contents stored)))
    key with hnull | ⟨f, hf, hkey, hvalue⟩
  · rw [hnull] at hget
    cases hget
  · rw [hget] at hvalue
    rwa [← Prod.eta f, hkey, hvalue] at hf

theorem supplied_of_textOf {key : String} {t : PyStr} {config existing : Fields}
    (h : TextOf printable config existing (pyStr key) t) :
    supplied config existing key ≠ .null := by
  obtain ⟨value, hvalue, hget, -⟩ := h
  intro hnull
  rw [supplied] at hnull
  cases hconfig : Json.get config (pyStr key) with
  | null =>
    rw [hconfig] at hnull hget
    rcases hget with heq | heq
    · exact hvalue heq.symm
    · exact hvalue (heq.symm.trans hnull)
  | _ =>
    rw [hconfig] at hnull
    cases hnull

/-- If no text but the supplied ones is stored, the optional fields are supplied. -/
theorem optionalSupplied_of_stores
    (htype : sourceType printable config.fields (contents stored).fields = defaultSourceType)
    (h : StoresSupplied printable config stored [])
    (hrequired : RequiredSupplied printable config.fields (contents stored).fields) :
    OptionalSupplied printable config (contents stored) := by
  have hok := h.accepts.mpr hrequired
  have htext : ∀ {key t}, (key, .str t) ∈ newFields printable config (contents stored) →
      TextOf printable config.fields (contents stored).fields key t := fun hmem =>
    (h.texts hok _ _ (mem_stored htype hok hmem)).resolve_right List.not_mem_nil
  have hpath : (pyStr "stream_path", .str (strippedText printable
      (coalesce config.fields (contents stored).fields "stream_path" (.str (pyStr "stream1"))))) ∈
      newFields printable config (contents stored) := by simp [newFields]
  exact ⟨htext List.mem_cons_self, supplied_of_textOf (htext hpath)⟩

end Main

/-- `register` accepts and stores what is supplied if and only if no null stands for a required
text: but for its built-in texts, and also with these where the optional fields are supplied. -/
theorem register_supplied_iff (printable : CodePoint → Bool) (config : JsonObject)
    (stored : Option ObjectFile)
    (htype : sourceType printable config.fields (contents stored).fields = defaultSourceType) :
    (StoresSupplied printable config stored builtIn ↔
        NoNullTaken printable config (contents stored)) ∧
      (StoresSupplied printable config stored [] ↔
        NoNullTaken printable config (contents stored) ∧
          (RequiredSupplied printable config.fields (contents stored).fields →
            OptionalSupplied printable config (contents stored))) := by
  constructor
  · refine ⟨noNullTaken_of_stores htype, fun h => ⟨(accepts_of_noNullTaken htype h).1,
      values_of_noNullTaken htype h, fun hok key t hmem => ?_⟩⟩
    exact (texts_of_noNullTaken htype h hok key t hmem).imp_right OwnText.builtIn
  · refine ⟨fun h => ⟨noNullTaken_of_stores htype h, optionalSupplied_of_stores htype h⟩,
      fun ⟨h, hoptional⟩ => ⟨(accepts_of_noNullTaken htype h).1,
        values_of_noNullTaken htype h, fun hok key t hmem => .inl ?_⟩⟩
    obtain ⟨hsource, hpath⟩ := hoptional ((accepts_of_noNullTaken htype h).1.mp hok)
    rcases texts_of_noNullTaken htype h hok key t hmem with htext | heq | ⟨hnull, -⟩
    · exact htext
    · cases heq
      exact hsource
    · exact absurd hnull hpath

section Requests

theorem wellFormed_str (s : PyStr) : Json.WellFormed (.str s) := rfl

theorem wellFormed_requestWith (ip : Json) (h : Json.WellFormed ip) : Json.WellFormed (.dict
    [(pyStr "ip", ip), (pyStr "username", .str (pyStr "admin")),
      (pyStr "password", .str (pyStr "pw"))]) := by
  rw [Json.wellFormed_dict]
  constructor
  · exact List.Nodup.map pyStr_injective (l := ["ip", "username", "password"]) (by decide)
  · simp only [List.forall_mem_cons]
    exact ⟨h, rfl, rfl, List.forall_mem_nil _⟩

/-- A request with some address. -/
def requestWith (ip : Json) (h : Json.WellFormed ip) : JsonObject :=
  ⟨_, wellFormed_requestWith ip h⟩

def cameraRequest : JsonObject := requestWith (.str (pyStr "cam")) (wellFormed_str _)

def nullRequest : JsonObject := requestWith .null wellFormed_null

/-- An address that is supplied is stored. -/
theorem register_supplied_camera :
    StoresSupplied (fun _ => false) cameraRequest none builtIn := by
  have htype : sourceType (fun _ => false) cameraRequest.fields (contents none).fields =
      defaultSourceType := by decide
  refine (register_supplied_iff _ _ none htype).1.mpr (.inl ⟨⟨?_, ?_, ?_⟩, ?_, ?_, ?_⟩)
  · decide
  · decide
  · decide
  · exact strippedText_eq_iff.mp (by decide)
  · exact strippedText_eq_iff.mp (by decide)
  · unfold Writable Json.Encodable
    decide

/-- The text of a null becomes the address of the camera. -/
theorem register_null :
    (register (fun _ => false) nullRequest none).1 = .ok ∧
      Json.get (contents (register (fun _ => false) nullRequest none).2).fields (pyStr "ip") =
        .str (pyStr "None") ∧
      ∀ own, ¬StoresSupplied (fun _ => false) nullRequest none own := by
  have htype : sourceType (fun _ => false) nullRequest.fields (contents none).fields =
      defaultSourceType := by decide
  have hok : (register (fun _ => false) nullRequest none).1 = .ok := by decide
  refine ⟨hok, ?_, fun own h => ?_⟩
  · have hget := get_update_newFields
      (mem_newFields_ip (fun _ => false) nullRequest (contents none))
    have hnull : strippedText (fun _ => false) (getOrStored nullRequest.fields
        (contents none).fields "ip") = pyStr "None" := strippedText_null
    rw [(register_accepts htype).2 hok, hget, hnull]
  · have hblank : nonBlank (suppliedText (fun _ => false) nullRequest.fields
        (contents none).fields "ip") = false := by decide
    have hfilled := (h.accepts.mp hok).1
    rw [hblank] at hfilled
    cases hfilled

end Requests

end Babycat.Profiles
