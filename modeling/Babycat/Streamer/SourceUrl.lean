/-
  Babycat.Streamer.SourceUrl

  The URL of the video source (`camera.py`, `_build_rtsp_url`).

  The credentials are quoted, so they stay in the user part whatever they are.
  Address, port and path are pasted: `roundTrips_iff` is when they come back as
  they were, `rtspUrl_shifted` has two profiles that do not.
-/

import Babycat.Streamer.ProfileFiles
import Babycat.Text.Uri

namespace Babycat.Profiles

open Babycat.Text

-- ============================================================================
-- The URL
-- ============================================================================

/-- The characters of a string without surrogates. -/
def chars (s : PyStr) : List Char := s.map fun c => Char.ofNat c.val

/-- `urllib.parse.quote(s, safe="")`; none when the encoder raises. -/
def quote (s : PyStr) : Option PyStr :=
  if encodable s then some ((quoteAll (chars s)).map codePoint) else none

/-- `_build_rtsp_url`; none when it raises. -/
def buildRtspUrl (printable : CodePoint → Bool) (p : Profile) : Option PyStr :=
  (quote p.username).bind fun user =>
    (quote p.password).map fun password =>
      pyStr "rtsp://" ++ user ++ pyStr ":" ++ password ++ pyStr "@" ++ p.ip ++ pyStr ":" ++
        Json.strOf printable p.rtspPort ++ pyStr "/" ++ p.streamPath

-- ============================================================================
-- The way back
-- ============================================================================

/-- Percent-decoding, for an ASCII text. -/
def percentDecode (s : PyStr) : PyStr := (unquote (chars s)).map codePoint

/-- The user and the password of a user part: what is before the first colon and behind it. -/
def credentials (userinfo : PyStr) : PyStr × PyStr :=
  (percentDecode (userinfo.takeWhile (· ≠ Uri.colon)),
    percentDecode (userinfo.dropWhile (· ≠ Uri.colon)).tail)

/-- The URL is a URI, and its parts are the values of the profile. -/
def RoundTrips (printable : CodePoint → Bool) (p : Profile) : Prop :=
  ∃ url u userinfo, buildRtspUrl printable p = some url ∧ Uri.parse url = some u ∧
    u.scheme = pyStr "rtsp" ∧ u.userinfo = some userinfo ∧
    credentials userinfo = (p.username, p.password) ∧ u.host = p.ip ∧
    u.port = some (Json.strOf printable p.rtspPort) ∧ u.path = Uri.slash :: p.streamPath ∧
    u.query = none ∧ u.fragment = none

section Quote

variable {s : PyStr} {plain : CodePoint → Bool}

theorem chars_map (l : List Char) : chars (l.map codePoint) = l := by
  rw [chars, List.map_map]
  have hid : (fun c : CodePoint => Char.ofNat c.val) ∘ codePoint = id :=
    funext fun c => Char.ofNat_toNat c
  rw [hid, List.map_id]

theorem codePoint_ofNat {c : CodePoint} (h : surrogate c = false) :
    codePoint (Char.ofNat c.val) = c := by
  rw [surrogate, Bool.and_eq_false_iff, decide_eq_false_iff_not, decide_eq_false_iff_not] at h
  have hlt := c.isLt
  have hvalid : c.val.isValidChar := by
    rcases h with h | h
    · exact .inl (by omega)
    · exact .inr ⟨by omega, hlt⟩
  rw [Char.ofNat, dif_pos hvalid]
  rfl

theorem map_chars (h : encodable s = true) : (chars s).map codePoint = s := by
  have hpoints : ∀ c ∈ s, codePoint (Char.ofNat c.val) = c := fun c hc =>
    codePoint_ofNat (encodable_iff.mp h c hc)
  rw [chars, List.map_map]
  exact (List.map_congr_left hpoints).trans (List.map_id s)

/-- What `quote` writes is decoded to what it was. -/
theorem percentDecode_quote {text : PyStr} (h : quote s = some text) : percentDecode text = s := by
  rw [quote] at h
  split_ifs at h with hs
  rw [← Option.some.inj h, percentDecode, chars_map, unquote_quoteAll, map_chars hs]

theorem isHex_upperHex : ∀ n < 16, Uri.isHex (codePoint (upperHex n)) = true := by decide

/-- The bytes that `quote` writes are unreserved, or in an escape. -/
theorem encoded_quoteSafe (hplain : ∀ c, Uri.unreserved c = true → plain c = true)
    (bytes : List UInt8) (rest : PyStr) :
    Uri.encoded plain ((bytes.flatMap quoteSafe).map codePoint ++ rest) =
      Uri.encoded plain rest := by
  induction bytes with
  | nil => rfl
  | cons b bytes ih =>
    rw [List.flatMap_cons, List.map_append, List.append_assoc, quoteSafe]
    split_ifs with hsafe
    · have hunreserved : Uri.unreserved (codePoint (Char.ofNat b.toNat)) = true := by
        rw [Uri.unreserved, codePoint_val, toNat_byteChar]
        exact hsafe
      have hpercent : codePoint (Char.ofNat b.toNat) ≠ Uri.percent := by
        intro heq
        rw [heq] at hunreserved
        exact absurd hunreserved (by decide)
      rw [List.map_cons, List.map_nil, List.singleton_append, Uri.encoded_cons hpercent,
        hplain _ hunreserved, ih, Bool.true_and]
    · have hb : b.toNat < 256 := b.toNat_lt
      have hhigh := isHex_upperHex (b.toNat / 16) (by omega)
      have hlow := isHex_upperHex (b.toNat % 16) (by omega)
      show Uri.encoded plain (Uri.percent :: _ :: _ :: _) = _
      rw [Uri.encoded_percent, hhigh, hlow, Bool.true_and, Bool.true_and]
      exact ih

theorem encoded_quote {text : PyStr} (h : quote s = some text)
    (hplain : ∀ c, Uri.unreserved c = true → plain c = true) (rest : PyStr) :
    Uri.encoded plain (text ++ rest) = Uri.encoded plain rest := by
  rw [quote] at h
  split_ifs at h with hs
  rw [← Option.some.inj h, quoteAll]
  exact encoded_quoteSafe hplain _ rest

theorem quote_isSome : (∃ text, quote s = some text) ↔ encodable s = true := by
  rw [quote]
  split_ifs with h
  · exact iff_of_true ⟨_, rfl⟩ h
  · refine iff_of_false ?_ h
    rintro ⟨text, htext⟩
    cases htext

theorem unreserved_nameChar {c : CodePoint} (h : Uri.unreserved c = true) :
    Uri.nameChar c = true := by
  rw [Uri.nameChar, h, Bool.true_or]

theorem unreserved_userChar {c : CodePoint} (h : Uri.unreserved c = true) :
    Uri.userChar c = true := by
  rw [Uri.userChar, unreserved_nameChar h, Bool.true_or]

/-- The two quoted texts are read apart at the colon between them. -/
theorem credentials_quote {username password user pass : PyStr} (huser : quote username = some user)
    (hpass : quote password = some pass) :
    credentials (user ++ Uri.colon :: pass) = (username, password) := by
  have hplain : Uri.encoded Uri.unreserved user = true := by
    have hempty : Uri.encoded Uri.unreserved (user ++ []) = Uri.encoded Uri.unreserved [] :=
      encoded_quote huser (fun _ h => h) []
    rw [List.append_nil] at hempty
    rw [hempty]
    rfl
  have hcolon : Uri.colon ∉ user := Uri.encoded_not_mem hplain (by decide)
  have hall : ∀ c ∈ user, decide (c ≠ Uri.colon) = true := fun c hc =>
    decide_eq_true fun heq => hcolon (heq ▸ hc)
  have hstop : decide (Uri.colon ≠ Uri.colon) = false := decide_eq_false (not_not_intro rfl)
  rw [credentials, List.takeWhile_append_of_pos hall, List.dropWhile_append_of_pos hall,
    List.takeWhile_cons, List.dropWhile_cons, hstop, if_neg Bool.false_ne_true,
    if_neg Bool.false_ne_true, List.append_nil, List.tail_cons, percentDecode_quote huser,
    percentDecode_quote hpass]

end Quote

-- ============================================================================
-- When the parts come back
-- ============================================================================

section RoundTrip

variable {printable : CodePoint → Bool} {p : Profile}

/-- The parts of the URL, for quoted credentials. -/
def sourceParts (printable : CodePoint → Bool) (p : Profile) (user password : PyStr) : Uri.Parts where
  scheme := pyStr "rtsp"
  userinfo := some (user ++ Uri.colon :: password)
  host := p.ip
  port := some (Json.strOf printable p.rtspPort)
  path := Uri.slash :: p.streamPath
  query := none
  fragment := none

theorem buildRtspUrl_eq {user password : PyStr} (huser : quote p.username = some user)
    (hpassword : quote p.password = some password) :
    buildRtspUrl printable p = some (sourceParts printable p user password).text := by
  have hscheme : pyStr "rtsp://" = pyStr "rtsp" ++ [Uri.colon, Uri.slash, Uri.slash] := by decide
  have hcolon : pyStr ":" = [Uri.colon] := by decide
  have hat : pyStr "@" = [Uri.atSign] := by decide
  have hslash : pyStr "/" = [Uri.slash] := by decide
  rw [buildRtspUrl, huser, Option.bind_some, hpassword, Option.map_some, hscheme, hcolon, hat, hslash]
  simp only [sourceParts, Uri.Parts.text, Uri.Parts.authority, Uri.Parts.userText,
    Uri.Parts.behind, List.append_assoc, List.cons_append, List.nil_append, List.append_nil]

theorem isPath_cons {s : PyStr} :
    Uri.isPath (Uri.slash :: s) = true ↔ Uri.encoded Uri.pathChar s = true := by
  have hslash : Uri.pathChar Uri.slash = true := by decide
  rw [Uri.isPath, Uri.encoded_cons (by decide), hslash, Bool.true_and, List.head?_cons,
    beq_self_eq_true, Bool.or_true, Bool.and_true]

theorem sourceParts_wellFormed {user password : PyStr} (huser : quote p.username = some user)
    (hpassword : quote p.password = some password) :
    (sourceParts printable p user password).WellFormed ↔
      Uri.isHost p.ip = true ∧ Uri.isPort (Json.strOf printable p.rtspPort) = true ∧
        Uri.encoded Uri.pathChar p.streamPath = true := by
  have hscheme : Uri.isScheme (pyStr "rtsp") = true := by decide
  have hpass : Uri.encoded Uri.userChar password = true := by
    have hempty := encoded_quote hpassword (fun _ => unreserved_userChar) []
    rw [List.append_nil] at hempty
    rw [hempty]
    rfl
  have huserinfo : Uri.encoded Uri.userChar (user ++ Uri.colon :: password) = true := by
    rw [encoded_quote huser (fun _ => unreserved_userChar), Uri.encoded_cons (by decide), hpass]
    decide
  simp only [Uri.Parts.WellFormed, sourceParts, hscheme, Option.mem_def, Option.some.injEq,
    forall_eq', huserinfo, isPath_cons, reduceCtorEq, false_implies, implies_true, true_and,
    and_true]

/-- Values that come back have the forms of the grammar. -/
theorem RoundTrips.forms (h : RoundTrips printable p) :
    Uri.isHost p.ip = true ∧ Uri.isPort (Json.strOf printable p.rtspPort) = true ∧
      Uri.encoded Uri.pathChar p.streamPath = true := by
  obtain ⟨url, u, userinfo, -, hparse, -, -, -, hhost, hport, hpath, -, -⟩ := h
  obtain ⟨⟨-, -, hisHost, hisPort, hisPath, -⟩, -⟩ := Uri.parse_eq_some.mp hparse
  rw [hhost] at hisHost
  rw [hpath, isPath_cons] at hisPath
  exact ⟨hisHost, hisPort _ hport, hisPath⟩

/-- The values of a profile come back from its URL if and only if they have the form that the
grammar asks for: the credentials any without surrogates. -/
theorem roundTrips_iff (printable : CodePoint → Bool) (p : Profile) :
    RoundTrips printable p ↔
      encodable p.username = true ∧ encodable p.password = true ∧ Uri.isHost p.ip = true ∧
        Uri.isPort (Json.strOf printable p.rtspPort) = true ∧
        Uri.encoded Uri.pathChar p.streamPath = true := by
  rw [← quote_isSome, ← quote_isSome]
  constructor
  · intro h
    obtain ⟨url, u, userinfo, hurl, -⟩ := id h
    obtain ⟨user, huser, hmap⟩ := Option.bind_eq_some_iff.mp hurl
    obtain ⟨password, hpassword, -⟩ := Option.map_eq_some_iff.mp hmap
    exact ⟨⟨user, huser⟩, ⟨password, hpassword⟩, h.forms⟩
  · rintro ⟨⟨user, huser⟩, ⟨password, hpassword⟩, hforms⟩
    have hwell : (sourceParts printable p user password).WellFormed :=
      (sourceParts_wellFormed huser hpassword).mpr hforms
    exact ⟨_, sourceParts printable p user password, _, buildRtspUrl_eq huser hpassword,
      Uri.parse_eq_some.mpr ⟨hwell, rfl⟩, rfl, rfl, credentials_quote huser hpassword, rfl, rfl,
      rfl, rfl, rfl⟩

/-- A profile with an address and a path, and with port 554. -/
theorem exists_camera (ip path : String) (hip : strip (pyStr ip) = pyStr ip)
    (hfilled : nonBlank (pyStr ip) = true) (hpath : strip (pyStr path) = pyStr path) :
    ∃ p : Profile, p.ip = pyStr ip ∧ p.username = pyStr "admin" ∧ p.password = pyStr "pw" ∧
      p.rtspPort = .str (pyStr "554") ∧ p.streamPath = pyStr path :=
  ⟨{ ip := pyStr ip
     username := pyStr "admin"
     password := pyStr "pw"
     rtspPort := .str (pyStr "554")
     onvifPort := .null
     streamPath := pyStr path
     ip_stripped := hip
     ip_filled := hfilled
     username_stripped := by decide
     username_filled := by decide
     password_filled := by decide
     rtspPort_set := Json.noConfusion
     rtspPort_wellFormed := rfl
     onvifPort_wellFormed := rfl
     streamPath_stripped := hpath }, rfl, rfl, rfl, rfl, rfl⟩

/-- An address of version 6 makes no URI; a question mark takes the path into the query. -/
theorem rtspUrl_shifted :
    (∃ p : Profile, p.ip = pyStr "fe80::1" ∧ p.streamPath = pyStr "stream1" ∧
      (buildRtspUrl (fun _ => false) p).bind Uri.parse = none ∧
      ¬RoundTrips (fun _ => false) p) ∧
    ∃ p : Profile, p.ip = pyStr "10.0.0.5" ∧ p.streamPath = pyStr "live?channel=1" ∧
      ((buildRtspUrl (fun _ => false) p).bind Uri.parse).map (fun u => (u.path, u.query)) =
        some (pyStr "/live", some (pyStr "channel=1")) ∧
      ¬RoundTrips (fun _ => false) p := by
  obtain ⟨p, hip, hname, hpassword, hport, hpath⟩ := exists_camera "fe80::1"
    "stream1" (by decide) (by decide) (by decide)
  obtain ⟨q, qip, qname, qpassword, qport, qpath⟩ := exists_camera "10.0.0.5"
    "live?channel=1" (by decide) (by decide) (by decide)
  refine ⟨⟨p, hip, hpath, ?_, ?_⟩, q, qip, qpath, ?_, ?_⟩
  · rw [buildRtspUrl, hip, hname, hpassword, hport, hpath]
    decide
  · intro h
    have hhost := h.forms.1
    rw [hip] at hhost
    exact absurd hhost (by decide)
  · rw [buildRtspUrl, qip, qname, qpassword, qport, qpath]
    decide
  · intro h
    have hencoded := h.forms.2.2
    rw [qpath] at hencoded
    exact absurd hencoded (by decide)

end RoundTrip

end Babycat.Profiles
