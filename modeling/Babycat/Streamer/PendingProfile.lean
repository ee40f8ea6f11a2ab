/-
  Babycat.Streamer.PendingProfile

  The registered and the applied profile (`camera.py`, `streaming_start`,
  `streaming_stop` and `status_view`; FR-014, FR-048, FR-049), one call after
  the other.

  `profile_pending` compares what the registered object normalizes to with the
  profile that the last start applied (`pending_profile`).
-/

import Babycat.Streamer.ProfileFiles

namespace Babycat.Profiles

open Babycat.Text

-- ============================================================================
-- The two slots
-- ============================================================================

/-- A dict, or what Python takes for false. -/
def dictOrFalsy : Json → Bool
  | .dict _ => true
  | value => !Json.truthy value

def isFloat : Json → Bool
  | .float _ => true
  | _ => false

/-- A preset as `save_presets` writes it. -/
def isPosition : Json → Bool
  | .dict items => isFloat (Json.get items (pyStr "pan")) && isFloat (Json.get items (pyStr "tilt"))
  | _ => false

/-- Presets that `load_presets` takes without an error. -/
def loadable : Json → Bool
  | .dict items => items.all fun item => isPosition item.2
  | value => !Json.truthy value

/-- What the streamer keeps to in the applied slot. -/
structure Usable (applied : JsonObject) : Prop where
  profile : dictOrFalsy (Json.get applied.fields (pyStr "profile")) = true
  presets : loadable (Json.get applied.fields (pyStr "ptz_presets")) = true

/-- The profile files. -/
structure Slots where
  registered : Option ObjectFile
  applied : Option ObjectFile
  noNan : ∀ file ∈ registered, Json.NoNan (.dict file.object.fields)
  usable : Usable (contents applied)

theorem noNan_absent :
    ∀ file ∈ (none : Option ObjectFile), Json.NoNan (.dict file.object.fields) := by
  intro file hfile
  cases hfile

theorem usable_absent : Usable (contents none) := ⟨rfl, rfl⟩

/-- The files before the first call. -/
def Slots.fresh : Slots where
  registered := none
  applied := none
  noNan := noNan_absent
  usable := usable_absent

/-- `load_applied().get("profile") or {}` -/
def appliedProfile (applied : JsonObject) : Json :=
  orElse (Json.get applied.fields (pyStr "profile")) (.dict [])

/-- `value.get(key)` of a dict. -/
def itemOf (value : Json) (key : String) : Json :=
  match value with
  | .dict items => Json.get items (pyStr key)
  | _ => .null

section Applied

variable (applied : JsonObject) (config : Profile) (patrol : JsonObject)

/-- The presets belong to the camera: another address drops them. -/
def keptPresets : Json :=
  if Json.equal (itemOf (appliedProfile applied) "ip") (.str config.ip) then
    Json.get applied.fields (pyStr "ptz_presets")
  else .null

/-- What `streaming_start` saves. -/
def promoted : Fields :=
  [(pyStr "streaming_active", .bool true), (pyStr "profile", .dict config.toDict),
    (pyStr "ptz_presets", orElse (keptPresets applied config) (.dict [])),
    (pyStr "ptz_patrol",
      orElse (Json.get applied.fields (pyStr "ptz_patrol")) (.dict patrol.fields))]

/-- What `streaming_stop` saves. -/
def stopped : Fields := Json.setItem (pyStr "streaming_active") (.bool false) applied.fields

variable {applied} {config} {patrol}

theorem orElse_of {P : Json → Prop} {first second : Json} (hfirst : P first) (hsecond : P second) :
    P (orElse first second) := by
  rw [orElse]
  split_ifs
  · exact hfirst
  · exact hsecond

theorem keptPresets_of {P : Json → Prop} (hnull : P .null)
    (h : P (Json.get applied.fields (pyStr "ptz_presets"))) : P (keptPresets applied config) := by
  rw [keptPresets]
  split_ifs
  · exact h
  · exact hnull

theorem wellFormed_get (object : JsonObject) (key : String) :
    Json.WellFormed (Json.get object.fields (pyStr key)) :=
  get_of_forall _ wellFormed_null object.wellFormed_values

theorem wellFormed_promoted (applied : JsonObject) (config : Profile) (patrol : JsonObject) :
    Json.WellFormed (.dict (promoted applied config patrol)) := by
  have hkeys : (promoted applied config patrol).map Prod.fst =
      ["streaming_active", "profile", "ptz_presets", "ptz_patrol"].map pyStr := rfl
  rw [Json.wellFormed_dict]
  constructor
  · rw [hkeys]
    exact List.Nodup.map pyStr_injective (by decide)
  · simp only [promoted, List.forall_mem_cons]
    exact ⟨rfl, wellFormed_profile config,
      orElse_of (keptPresets_of wellFormed_null (wellFormed_get applied _)) wellFormed_empty,
      orElse_of (wellFormed_get applied _) patrol.wellFormed, List.forall_mem_nil _⟩

theorem wellFormed_stopped (applied : JsonObject) : Json.WellFormed (.dict (stopped applied)) := by
  obtain ⟨hkeys, hvalues⟩ := Json.wellFormed_dict.mp applied.wellFormed
  refine Json.wellFormed_dict.mpr ⟨Json.nodup_setItem _ _ hkeys, fun f hf => ?_⟩
  rcases Json.mem_setItem hf with rfl | hf
  · rfl
  · exact hvalues f hf

end Applied

def promotedObject (applied : JsonObject) (config : Profile) (patrol : JsonObject) : JsonObject :=
  ⟨promoted applied config patrol, wellFormed_promoted applied config patrol⟩

def stoppedObject (applied : JsonObject) : JsonObject :=
  ⟨stopped applied, wellFormed_stopped applied⟩

section Usable

variable {applied : JsonObject} {config : Profile} {patrol : JsonObject}

theorem get_stopped {key : String} (h : key ≠ "streaming_active") :
    Json.get (stopped applied) (pyStr key) = Json.get applied.fields (pyStr key) := by
  rw [Json.get, stopped, lookup_setItem, if_neg (fun heq => h (pyStr_injective heq))]
  rfl

theorem get_promoted_profile :
    Json.get (promoted applied config patrol) (pyStr "profile") = .dict config.toDict := by
  simp only [promoted, Json.get_cons, pyStr_inj, String.reduceEq, if_false, if_true]

theorem get_promoted_presets : Json.get (promoted applied config patrol) (pyStr "ptz_presets") =
    orElse (keptPresets applied config) (.dict []) := by
  simp only [promoted, Json.get_cons, pyStr_inj, String.reduceEq, if_false, if_true]

theorem Usable.promoted (h : Usable applied) : Usable (promotedObject applied config patrol) where
  profile := by
    rw [promotedObject, get_promoted_profile]
    rfl
  presets := by
    rw [promotedObject, get_promoted_presets]
    exact orElse_of (P := fun value => loadable value = true)
      (keptPresets_of (P := fun value => loadable value = true) rfl h.presets) rfl

theorem Usable.stopped (h : Usable applied) : Usable (stoppedObject applied) where
  profile := by
    rw [stoppedObject, get_stopped (by decide)]
    exact h.profile
  presets := by
    rw [stoppedObject, get_stopped (by decide)]
    exact h.presets

theorem Usable.written {object : JsonObject} {file : ObjectFile} (h : Usable object)
    (hfile : writeJson object = some file) : Usable (contents (some file)) := by
  have hobject : contents (some file) = object := writeJson_eq_some hfile
  rw [hobject]
  exact h

end Usable

-- ============================================================================
-- Values without a NaN
-- ============================================================================

section NoNan

variable {printable : CodePoint → Bool} {config existing object : JsonObject} {p : Profile}

theorem noNan_values (h : Json.NoNan (.dict object.fields)) :
    ∀ f ∈ object.fields, Json.NoNan f.2 := Json.noNan_dict.mp h

theorem noNan_null : Json.NoNan .null := rfl

theorem noNan_empty : Json.NoNan (.dict []) := rfl

/-- The ports of a profile are those of the objects. -/
theorem normalizeProfile_ports (h : normalizeProfile printable config existing = .ok p) :
    p.rtspPort = coalesce config.fields existing.fields "rtsp_port" (.int 554) ∧
      p.onvifPort = coalesceOptional config.fields existing.fields "onvif_port" := by
  rw [normalizeProfile] at h
  split_ifs at h with htype
  simp only [normalizeRtspCameraProfile] at h
  split_ifs at h with hip husername
  split at h
  · split_ifs at h with hpassword
    cases h
    exact ⟨rfl, rfl⟩
  · cases h

theorem noNan_profile (hconfig : Json.NoNan (.dict config.fields))
    (hexisting : Json.NoNan (.dict existing.fields))
    (h : normalizeProfile printable config existing = .ok p) : Json.NoNan (.dict p.toDict) := by
  obtain ⟨hrtsp, honvif⟩ := normalizeProfile_ports h
  have hrtspPort : Json.NoNan p.rtspPort := by
    rw [hrtsp]
    exact coalesce_of_forall _ noNan_null rfl (noNan_values hconfig) (noNan_values hexisting)
  have honvifPort : Json.NoNan p.onvifPort := by
    rw [honvif]
    exact coalesceOptional_of_forall _ noNan_null (noNan_values hconfig) (noNan_values hexisting)
  rw [Json.noNan_dict]
  simp only [Profile.toDict, List.forall_mem_cons]
  exact ⟨rfl, rfl, rfl, rfl, hrtspPort, honvifPort, rfl, List.forall_mem_nil _⟩

theorem noNan_contents {file : Option ObjectFile}
    (h : ∀ f ∈ file, Json.NoNan (.dict f.object.fields)) :
    Json.NoNan (.dict (contents file).fields) := by
  cases file with
  | none => exact noNan_empty
  | some file => exact h file rfl

/-- What a request leaves registered has no NaN if the request has none. -/
theorem noNan_register {stored : Option ObjectFile} (hconfig : Json.NoNan (.dict config.fields))
    (hstored : ∀ f ∈ stored, Json.NoNan (.dict f.object.fields)) :
    ∀ f ∈ (register printable config stored).2, Json.NoNan (.dict f.object.fields) := by
  rw [register]
  cases hnormalize : normalizeProfile printable config (contents stored) with
  | error detail => exact hstored
  | ok p =>
    have hprofile := noNan_profile hconfig (noNan_contents hstored) hnormalize
    cases hwrite : writeJson ((contents stored).update p.object) with
    | none =>
      simp only [hwrite]
      exact hstored
    | some file =>
      simp only [hwrite]
      intro f hf
      rw [← Option.some.inj hf, writeJson_eq_some hwrite, Json.noNan_dict]
      intro field hfield
      rcases mem_update hfield with hmem | hmem
      · exact noNan_values (noNan_contents hstored) field hmem
      · exact Json.noNan_dict.mp hprofile field hmem

end NoNan

-- ============================================================================
-- The calls
-- ============================================================================

/-- A call of the streamer. -/
inductive Call
  | register (config : JsonObject) (noNan : Json.NoNan (.dict config.fields))
  /-- `patrol` is `ptz.get_patrol()`; `patched` says that MediaMTX takes the source. -/
  | start (patrol : JsonObject) (patched : Bool)
  | stop (patched : Bool)

def noProfile : PyStr := pyStr "no registered profile"

def mediamtxApiError : PyStr := pyStr "MediaMTX API connection failed"

/-- `quote` encodes the credentials of the source URL. -/
def quotable (p : Profile) : Bool := encodable p.username && encodable p.password

section Calls

variable (printable : CodePoint → Bool)

/-- The new contents of the applied slot. -/
def Slots.saveApplied (s : Slots) (object : JsonObject) (h : Usable object) : Option Slots :=
  match hfile : writeJson object with
  | some file => some { s with applied := some file, usable := h.written hfile }
  | none => none

/-- `streaming_start` -/
def streamingStart (s : Slots) (patrol : JsonObject) (patched : Bool) : Outcome × Slots :=
  match s.registered with
  | none => (.error noProfile, s)
  | some file =>
      match normalizeProfile printable file.object file.object with
      | .error detail => (.error detail, s)
      | .ok config =>
          if !quotable config then (.raised, s)
          else if !patched then (.error mediamtxApiError, s)
          else
            match s.saveApplied (promotedObject (contents s.applied) config patrol)
                s.usable.promoted with
            | some s' => (.ok, s')
            | none => (.raised, s)

/-- `streaming_stop` -/
def streamingStop (s : Slots) (patched : Bool) : Outcome × Slots :=
  match s.saveApplied (stoppedObject (contents s.applied)) s.usable.stopped with
  | none => (.raised, s)
  | some s' => (if patched then .ok else .error mediamtxApiError, s')

def call (s : Slots) : Call → Outcome × Slots
  | .register config noNan =>
      ((register printable config s.registered).1,
        { s with
          registered := (register printable config s.registered).2
          noNan := noNan_register noNan s.noNan })
  | .start patrol patched => streamingStart printable s patrol patched
  | .stop patched => streamingStop s patched

structure StatusView where
  streamingActive : Bool
  profilePending : Bool

/-- `status_view` -/
def statusView (s : Slots) : StatusView where
  streamingActive :=
    Json.truthy (Json.get (contents s.applied).fields (pyStr "streaming_active"))
  profilePending :=
    match s.registered with
    | none => false
    | some file =>
        match normalizeProfile printable file.object file.object with
        | .error _ => true
        | .ok config => !Json.equal (.dict config.toDict) (appliedProfile (contents s.applied))

/-- What the registered object normalizes to, if there is one. -/
def registeredProfile (s : Slots) : Option (Except PyStr Profile) :=
  s.registered.map fun file => normalizeProfile printable file.object file.object

end Calls

-- ============================================================================
-- Runs
-- ============================================================================

/-- The files, and what the calls have made of them. -/
structure History where
  slots : Slots
  /-- What the latest registered profile normalizes to. -/
  latest : Option (Except PyStr Profile)
  /-- The profile that the last successful start applied. -/
  connected : Option Profile

section Runs

variable (printable : CodePoint → Bool)

def History.start (s : Slots) : History := ⟨s, registeredProfile printable s, none⟩

/-- The history behind a call. -/
def History.after (h : History) : Call → Outcome × Slots → History
  | .register config _, (.ok, s) =>
      { h with
        slots := s
        latest := some (normalizeProfile printable config (contents h.slots.registered)) }
  | .start _ _, (.ok, s) =>
      { h with
        slots := s
        connected := (registeredProfile printable h.slots).bind Except.toOption }
  | _, (_, s) => { h with slots := s }

def History.next (h : History) (c : Call) : History :=
  h.after printable c (call printable h.slots c)

def run (s : Slots) (calls : List Call) : History :=
  calls.foldl (History.next printable) (.start printable s)

end Runs

section Specs

variable {printable : CodePoint → Bool} {s s' : Slots}

theorem Slots.ext_files (hregistered : s.registered = s'.registered)
    (happlied : s.applied = s'.applied) : s = s' := by
  obtain ⟨registered, applied, _, _⟩ := s
  obtain ⟨registered', applied', _, _⟩ := s'
  subst hregistered happlied
  rfl

theorem saveApplied_eq_some {object : JsonObject} {h : Usable object}
    (hsave : s.saveApplied object h = some s') :
    s'.registered = s.registered ∧ contents s'.applied = object := by
  rw [Slots.saveApplied] at hsave
  split at hsave
  · rename_i file hfile
    rw [← Option.some.inj hsave]
    exact ⟨rfl, writeJson_eq_some hfile⟩
  · cases hsave

/-- What a register does: it stores the normalized profile over the old one, or nothing. -/
inductive RegisterSpec (printable : CodePoint → Bool) (s : Slots) (config : JsonObject) :
    Outcome × Slots → Prop
  | accepted (p : Profile) (file : ObjectFile) (s' : Slots)
      (hp : normalizeProfile printable config (contents s.registered) = .ok p)
      (hfile : file.object = (contents s.registered).update p.object)
      (registered : s'.registered = some file) (applied : s'.applied = s.applied) :
      RegisterSpec printable s config (.ok, s')
  | rejected (o : Outcome) (ho : o ≠ .ok) : RegisterSpec printable s config (o, s)

theorem register_spec (printable : CodePoint → Bool) (s : Slots) (config : JsonObject)
    (noNan : Json.NoNan (.dict config.fields)) :
    RegisterSpec printable s config (call printable s (.register config noNan)) := by
  have hrejected : ∀ o : Outcome, o ≠ .ok →
      register printable config s.registered = (o, s.registered) →
      RegisterSpec printable s config (call printable s (.register config noNan)) := by
    intro o ho hregister
    have hfst : (register printable config s.registered).1 = o := congrArg Prod.fst hregister
    have hsnd : (register printable config s.registered).2 = s.registered :=
      congrArg Prod.snd hregister
    have hcall : call printable s (.register config noNan) = (o, s) :=
      Prod.ext hfst (Slots.ext_files hsnd rfl)
    rw [hcall]
    exact .rejected o ho
  cases hnormalize : normalizeProfile printable config (contents s.registered) with
  | error detail =>
    refine hrejected (.error detail) Outcome.noConfusion ?_
    simp only [register, hnormalize]
  | ok p =>
    cases hwrite : writeJson ((contents s.registered).update p.object) with
    | none =>
      refine hrejected .raised Outcome.noConfusion ?_
      simp only [register, hnormalize, hwrite]
    | some file =>
      have hregister : register printable config s.registered = (.ok, some file) := by
        simp only [register, hnormalize, hwrite]
      have hfst : (call printable s (.register config noNan)).1 = .ok := congrArg Prod.fst hregister
      rw [← Prod.eta (call printable s (.register config noNan)), hfst]
      exact .accepted p file _ hnormalize (writeJson_eq_some hwrite)
        (congrArg Prod.snd hregister) rfl

/-- What a start does: it applies what the registered object normalizes to, or nothing. -/
inductive StartSpec (printable : CodePoint → Bool) (s : Slots) (patrol : JsonObject) :
    Outcome × Slots → Prop
  | connected (p : Profile) (s' : Slots) (hp : registeredProfile printable s = some (.ok p))
      (registered : s'.registered = s.registered)
      (applied : contents s'.applied = promotedObject (contents s.applied) p patrol) :
      StartSpec printable s patrol (.ok, s')
  | failed (o : Outcome) (ho : o ≠ .ok) : StartSpec printable s patrol (o, s)

theorem start_spec (printable : CodePoint → Bool) (s : Slots) (patrol : JsonObject)
    (patched : Bool) :
    StartSpec printable s patrol (call printable s (.start patrol patched)) := by
  have hfailed : ∀ o : Outcome, o ≠ .ok → streamingStart printable s patrol patched = (o, s) →
      StartSpec printable s patrol (call printable s (.start patrol patched)) := by
    intro o ho hstart
    have hcall : call printable s (.start patrol patched) = (o, s) := hstart
    rw [hcall]
    exact .failed o ho
  cases hregistered : s.registered with
  | none =>
    refine hfailed (.error noProfile) Outcome.noConfusion ?_
    simp only [streamingStart, hregistered]
  | some file =>
    have hprofile : registeredProfile printable s =
        some (normalizeProfile printable file.object file.object) := by
      rw [registeredProfile, hregistered]
      rfl
    cases hnormalize : normalizeProfile printable file.object file.object with
    | error detail =>
      refine hfailed (.error detail) Outcome.noConfusion ?_
      simp only [streamingStart, hregistered, hnormalize]
    | ok config =>
      rw [hnormalize] at hprofile
      cases hquotable : quotable config with
      | false =>
        refine hfailed .raised Outcome.noConfusion ?_
        simp only [streamingStart, hregistered, hnormalize, hquotable, Bool.not_false, if_true]
      | true =>
        cases patched with
        | false =>
          refine hfailed (.error mediamtxApiError) Outcome.noConfusion ?_
          simp only [streamingStart, hregistered, hnormalize, hquotable, Bool.not_false,
            Bool.not_true, Bool.false_eq_true, if_false, if_true]
        | true =>
          have hstart : streamingStart printable s patrol true =
              match s.saveApplied (promotedObject (contents s.applied) config patrol)
                s.usable.promoted with
              | some s' => (.ok, s')
              | none => (.raised, s) := by
            simp only [streamingStart, hregistered, hnormalize, hquotable, Bool.not_true,
              Bool.false_eq_true, if_false]
          cases hsave : s.saveApplied (promotedObject (contents s.applied) config patrol)
              s.usable.promoted with
          | none =>
            rw [hsave] at hstart
            exact hfailed .raised Outcome.noConfusion hstart
          | some s' =>
            rw [hsave] at hstart
            have hcall : call printable s (.start patrol true) = (.ok, s') := hstart
            obtain ⟨hsame, hobject⟩ := saveApplied_eq_some hsave
            rw [hcall]
            exact .connected config s' hprofile hsame hobject

/-- A stop leaves both profiles as they are. -/
theorem stop_spec (printable : CodePoint → Bool) (s : Slots) (patched : Bool) :
    (call printable s (.stop patched)).2.registered = s.registered ∧
      Json.get (contents (call printable s (.stop patched)).2.applied).fields (pyStr "profile") =
        Json.get (contents s.applied).fields (pyStr "profile") := by
  have hcall : call printable s (.stop patched) = streamingStop s patched := rfl
  rw [hcall, streamingStop]
  cases hsave : s.saveApplied (stoppedObject (contents s.applied)) s.usable.stopped with
  | none => exact ⟨rfl, rfl⟩
  | some s' =>
    obtain ⟨hsame, hobject⟩ := saveApplied_eq_some hsave
    refine ⟨hsame, ?_⟩
    simp only [hobject]
    exact get_stopped (by decide)

end Specs

-- ============================================================================
-- The pending flag
-- ============================================================================

section Pending

variable {printable : CodePoint → Bool} {h : History}

/-- What the files hold of the history. -/
structure Tracks (printable : CodePoint → Bool) (h : History) : Prop where
  latest : h.latest = registeredProfile printable h.slots
  connected : ∀ a, h.connected = some a → h.slots.registered.isSome = true ∧
    Json.get (contents h.slots.applied).fields (pyStr "profile") = .dict a.toDict

/-- The registered object behind an accepted register normalizes as the request did. -/
theorem registeredProfile_update {s : Slots} {file : ObjectFile} {object : JsonObject} {p : Profile}
    (hregistered : s.registered = some file) (hfile : file.object = object.update p.object) :
    registeredProfile printable s = some (.ok p) := by
  rw [registeredProfile, hregistered, Option.map_some, hfile]
  exact congrArg some (normalizeProfile_of_agrees (agrees_update object p))

theorem tracks_start (s : Slots) : Tracks printable (.start printable s) where
  latest := rfl
  connected a ha := by cases ha

theorem Tracks.rejected (ht : Tracks printable h) {c : Call} {o : Outcome} (ho : o ≠ .ok) :
    Tracks printable (h.after printable c (o, h.slots)) := by
  cases o with
  | ok => exact absurd rfl ho
  | error detail | raised => cases c <;> exact ⟨ht.latest, ht.connected⟩

theorem Tracks.next (ht : Tracks printable h) (c : Call) :
    Tracks printable (h.next printable c) := by
  rw [History.next]
  cases c with
  | register config noNan =>
    have hspec := register_spec printable h.slots config noNan
    generalize call printable h.slots (.register config noNan) = r at hspec
    cases hspec with
    | accepted p file s' hp hfile registered applied =>
      have hlatest : registeredProfile printable s' = some (.ok p) :=
        registeredProfile_update registered hfile
      refine ⟨?_, fun a ha => ⟨congrArg Option.isSome registered, ?_⟩⟩
      · show some (normalizeProfile printable config (contents h.slots.registered)) =
          registeredProfile printable s'
        rw [hp, hlatest]
      · show Json.get (contents s'.applied).fields (pyStr "profile") = .dict a.toDict
        rw [applied]
        exact (ht.connected a ha).2
    | rejected o ho => exact ht.rejected ho
  | start patrol patched =>
    have hspec := start_spec printable h.slots patrol patched
    generalize call printable h.slots (.start patrol patched) = r at hspec
    cases hspec with
    | connected p s' hp registered applied =>
      obtain ⟨file, hfile, -⟩ := Option.map_eq_some_iff.mp hp
      have hprofile : Json.get (contents s'.applied).fields (pyStr "profile") = .dict p.toDict := by
        rw [applied]
        exact get_promoted_profile
      refine ⟨?_, fun a ha => ⟨?_, ?_⟩⟩
      · show h.latest = registeredProfile printable s'
        rw [ht.latest, registeredProfile, registeredProfile, registered]
      · show s'.registered.isSome = true
        rw [registered, hfile]
        rfl
      · have hconnected : (registeredProfile printable h.slots).bind Except.toOption = some a := ha
        rw [hp] at hconnected
        cases hconnected
        exact hprofile
    | failed o ho => exact ht.rejected ho
  | stop patched =>
    obtain ⟨hsame, hprofile⟩ := stop_spec printable h.slots patched
    generalize call printable h.slots (.stop patched) = r at hsame hprofile
    refine ⟨?_, fun a ha => ⟨?_, ?_⟩⟩
    · show h.latest = registeredProfile printable r.2
      rw [ht.latest, registeredProfile, registeredProfile, hsame]
    · show r.2.registered.isSome = true
      rw [hsame]
      exact (ht.connected a ha).1
    · show Json.get (contents r.2.applied).fields (pyStr "profile") = .dict a.toDict
      rw [hprofile]
      exact (ht.connected a ha).2

theorem tracks_run (s : Slots) (calls : List Call) : Tracks printable (run printable s calls) := by
  have hfold : ∀ h, Tracks printable h →
      Tracks printable (calls.foldl (History.next printable) h) := by
    induction calls with
    | nil => exact fun _ ht => ht
    | cons c calls ih => exact fun h ht => ih _ (ht.next c)
  exact hfold _ (tracks_start s)

/-- The flag compares the two profiles. -/
theorem statusView_pending {s : Slots} {a : Profile} (hsome : s.registered.isSome = true)
    (happlied : Json.get (contents s.applied).fields (pyStr "profile") = .dict a.toDict) :
    (statusView printable s).profilePending = true ↔
      ∀ p, registeredProfile printable s = some (.ok p) →
        Json.equal (.dict p.toDict) (.dict a.toDict) = false := by
  obtain ⟨file, hfile⟩ := Option.isSome_iff_exists.mp hsome
  have hprofile : registeredProfile printable s =
      some (normalizeProfile printable file.object file.object) := by
    rw [registeredProfile, hfile]
    rfl
  have hdict : appliedProfile (contents s.applied) = .dict a.toDict := by
    rw [appliedProfile, happlied]
    rfl
  simp only [statusView, hfile, hprofile, hdict]
  cases normalizeProfile printable file.object file.object with
  | error detail =>
    refine iff_of_true rfl fun p hp => ?_
    cases Option.some.inj hp
  | ok p =>
    simp only [Bool.not_eq_true', Option.some.injEq, Except.ok.injEq, forall_eq']

theorem noNan_registered {s : Slots} {p : Profile}
    (hp : registeredProfile printable s = some (.ok p)) :
    Json.NoNan (.dict p.toDict) := by
  obtain ⟨file, hfile, hnormalize⟩ := Option.map_eq_some_iff.mp hp
  exact noNan_profile (s.noNan file hfile) (s.noNan file hfile) hnormalize

/-- The flag is down right after a start. -/
theorem pending_after_start (s : Slots) (patrol : JsonObject) (patched : Bool)
    (hok : (call printable s (.start patrol patched)).1 = .ok) :
    (statusView printable (call printable s (.start patrol patched)).2).profilePending = false := by
  have hspec := start_spec printable s patrol patched
  generalize call printable s (.start patrol patched) = r at hspec hok
  cases hspec with
  | connected p s' hp registered applied =>
    have hsame : registeredProfile printable s' = registeredProfile printable s := by
      rw [registeredProfile, registeredProfile, registered]
    have hsome : s'.registered.isSome = true := by
      obtain ⟨file, hfile, -⟩ := Option.map_eq_some_iff.mp hp
      rw [registered, hfile]
      rfl
    have hprofile :
        Json.get (contents s'.applied).fields (pyStr "profile") = .dict p.toDict := by
      rw [applied]
      exact get_promoted_profile
    have hrefl := Json.equal_refl (wellFormed_profile p) (noNan_registered hp)
    rw [← Bool.not_eq_true, statusView_pending hsome hprofile, hsame]
    intro hpending
    rw [hpending p hp] at hrefl
    cases hrefl
  | failed o ho => exact absurd hok ho

end Pending

/-- A normalized profile is normalized to itself, in memory and read back from the file; a rejected
register changes nothing; and the flag is down after a start and, until the next one, up exactly
when the latest registered profile is invalid or differs from the one that the start applied. -/
theorem pending_profile (printable : CodePoint → Bool) :
    (∀ (p : Profile) (other : JsonObject), normalizeProfile printable p.object other = .ok p) ∧
      (∀ (p : Profile) (other : JsonObject), ∃ read : JsonObject,
        Json.loads (universalNewlines p.object.text) = some (.dict read.fields) ∧
          normalizeProfile printable read other = .ok p) ∧
      ∀ (s : Slots) (calls : List Call),
        (∀ config noNan,
          (call printable (run printable s calls).slots (.register config noNan)).1 ≠ .ok →
          (call printable (run printable s calls).slots (.register config noNan)).2 =
            (run printable s calls).slots) ∧
        (∀ patrol patched,
          (call printable (run printable s calls).slots (.start patrol patched)).1 = .ok →
          (statusView printable (call printable (run printable s calls).slots
            (.start patrol patched)).2).profilePending = false) ∧
        ∀ a, (run printable s calls).connected = some a →
          ((statusView printable (run printable s calls).slots).profilePending = true ↔
            ∀ p, (run printable s calls).latest = some (.ok p) →
              Json.equal (.dict p.toDict) (.dict a.toDict) = false) := by
  have hidem : ∀ (p : Profile) (other : JsonObject),
      normalizeProfile printable p.object other = .ok p :=
    fun p _ => normalizeProfile_of_agrees (agrees_object p)
  refine ⟨hidem, fun p other => ⟨p.object, p.object.loads_text, hidem p other⟩, fun s calls =>
    ⟨fun config noNan hrejected => ?_, fun patrol patched hok => ?_, fun a ha => ?_⟩⟩
  · have hspec := register_spec printable (run printable s calls).slots config noNan
    generalize call printable (run printable s calls).slots (.register config noNan) = r
      at hspec hrejected
    cases hspec with
    | accepted p file s' => exact absurd rfl hrejected
    | rejected o ho => rfl
  · exact pending_after_start _ patrol patched hok
  · have htracks : Tracks printable (run printable s calls) := tracks_run s calls
    obtain ⟨hsome, happlied⟩ := htracks.connected a ha
    rw [statusView_pending hsome happlied, htracks.latest]

section Request

variable (name : String)

theorem wellFormed_request : Json.WellFormed (.dict
    [(pyStr "ip", .str (pyStr name)), (pyStr "username", .str (pyStr name)),
      (pyStr "password", .str (pyStr name))]) := by
  rw [Json.wellFormed_dict]
  constructor
  · exact List.Nodup.map pyStr_injective (l := ["ip", "username", "password"]) (by decide)
  · simp only [List.forall_mem_cons]
    exact ⟨rfl, rfl, rfl, List.forall_mem_nil _⟩

/-- A request whose required fields all are the text `name`. -/
def requestObject : JsonObject := ⟨_, wellFormed_request name⟩

theorem noNan_request : Json.NoNan (.dict (requestObject name).fields) := by
  rw [Json.noNan_dict]
  simp only [requestObject, List.forall_mem_cons]
  exact ⟨rfl, rfl, rfl, List.forall_mem_nil _⟩

def request : Call := .register (requestObject name) (noNan_request name)

end Request

/-- The latest registered profile differs from the one that the last start applied. -/
def History.differ (h : History) : Bool :=
  match h.latest, h.connected with
  | some (.ok p), some a => !Json.equal (.dict p.toDict) (.dict a.toDict)
  | _, _ => false

theorem History.differ_spec {h : History} {a p : Profile} (hdiffer : h.differ = true)
    (ha : h.connected = some a) (hp : h.latest = some (.ok p)) :
    Json.equal (.dict p.toDict) (.dict a.toDict) = false := by
  rw [History.differ, ha, hp] at hdiffer
  rwa [Bool.not_eq_true'] at hdiffer

/-- A start takes the flag down, and a registration behind it up again. -/
theorem pending_profile_request :
    (statusView (fun _ => false) (call (fun _ => false)
      (run (fun _ => false) .fresh [request "a"]).slots (.start .empty true)).2).profilePending =
        false ∧
      (statusView (fun _ => false) (run (fun _ => false) .fresh
        [request "a", .start .empty true, request "b"]).slots).profilePending = true := by
  obtain ⟨-, -, hruns⟩ := pending_profile fun _ => false
  constructor
  · exact (hruns .fresh [request "a"]).2.1 .empty true (by decide +kernel)
  · have hconnected : (run (fun _ => false) .fresh
        [request "a", .start .empty true, request "b"]).connected.isSome = true := by
      decide +kernel
    have hdiffer : (run (fun _ => false) .fresh
        [request "a", .start .empty true, request "b"]).differ = true := by
      decide +kernel
    obtain ⟨a, ha⟩ := Option.isSome_iff_exists.mp hconnected
    exact ((hruns .fresh _).2.2 a ha).mpr fun p hp => History.differ_spec hdiffer ha hp

end Babycat.Profiles
