/-
  Babycat.Router.Token

  Access tokens as strings (`create_token`, `verify_token`, FR-001, FR-008).

  A token is header, payload and signature in URL-safe base64 without pads; a
  client may present any string.  HMAC and JSON are parameters of `Jwt`.  In
  `Babycat.Router.Accounts` a token is its payload; `verifyToken_signed` is what
  an unforgeable HMAC makes of that.

  Strings have no lone surrogates: one that has makes `encode` raise, and the
  answer is None.
-/

import Babycat.Recorder.Payload
import Babycat.Router.Accounts
import Babycat.Text.Base64

namespace Babycat.Router

open Babycat.Recorder (Json PyFloat Payload)
open Babycat.Text

-- ============================================================================
-- Tokens
-- ============================================================================

/-- `_b64url_encode` -/
def b64urlEncode (data : List UInt8) : List Char := (urlsafeB64encode data).rdropWhile (· == '=')

/-- `_b64url_decode`; `none` is an exception. -/
def b64urlDecode (s : List Char) : Option (List UInt8) :=
  let padding := 4 - s.length % 4
  urlsafeB64decode (s ++ List.replicate padding '=')

/-- `str.encode()` -/
def encodeUtf8 (s : List Char) : List UInt8 := s.flatMap String.utf8EncodeChar

/-- The deployment values of the tokens, and the functions from the standard library. -/
structure Jwt where
  /-- `JWT_SECRET` -/
  secret : String
  /-- `JWT_EXPIRY` -/
  expiry : ℤ
  /-- `hmac.new(key, message, hashlib.sha256).digest()` -/
  hmac : List UInt8 → List UInt8 → List UInt8
  /-- `json.dumps` -/
  dumps : Json → List Char
  /-- `json.loads` of bytes; `none` is an exception. -/
  loads : List UInt8 → Option Json

/-- What `create_token` puts into a token. -/
structure Issue where
  username : String
  epoch : ℤ
  iat : ℤ
  exp : ℤ
  deriving DecidableEq

def Issue.payload (m : Issue) : Payload :=
  [("sub", .str m.username), ("iat", .int m.iat), ("exp", .int m.exp), ("epoch", .int m.epoch)]

/-- `int(x)` of a float. -/
def intOf (x : ℚ) : ℤ := x.num.tdiv x.den

/-- A JSON number compared with a time; `none` is a `TypeError`. -/
def lessThan (now : ℚ) : Json → Option Bool
  | .int n => some (decide ((n : ℚ) < now))
  | .bool b => some (decide ((b.toNat : ℚ) < now))
  | .float x => some (x.lt now)
  | .null | .str _ | .list _ | .dict _ => none

namespace Jwt

variable (jwt : Jwt)

def headerText : List Char :=
  b64urlEncode (encodeUtf8 (jwt.dumps (.dict [("alg", .str "HS256"), ("typ", .str "JWT")])))

def payloadText (m : Issue) : List Char := b64urlEncode (encodeUtf8 (jwt.dumps (.dict m.payload)))

/-- The HMAC of `f"{header}.{payload}"`. -/
def signature (header payload : List Char) : List UInt8 :=
  jwt.hmac (encodeUtf8 jwt.secret.toList) (encodeUtf8 (header ++ '.' :: payload))

def mint (m : Issue) : List Char :=
  jwt.headerText ++ '.' :: (jwt.payloadText m ++ '.' ::
    b64urlEncode (jwt.signature jwt.headerText (jwt.payloadText m)))

/-- What a call of `create_token` issues; it reads the clock twice. -/
def issue (username : String) (epoch : ℤ) (iatNow expNow : ℚ) : Issue :=
  ⟨username, epoch, intOf iatNow, intOf expNow + jwt.expiry⟩

/-- `create_token` -/
def createToken (username : String) (epoch : ℤ) (iatNow expNow : ℚ) : List Char :=
  jwt.mint (jwt.issue username epoch iatNow expNow)

/-- `verify_token` -/
def verifyToken (token : List Char) (now : ℚ) : Option Payload :=
  match token.splitOn '.' with
  | [header, payload, sig] =>
      match b64urlDecode sig with
      | none => none
      | some given =>
          if given ≠ jwt.signature header payload then none
          else
            match (b64urlDecode payload).bind jwt.loads with
            | some (.dict data) =>
                match lessThan now ((data.lookup "exp").getD (.int 0)) with
                | some false => some data
                | _ => none
            | _ => none
  | _ => none

end Jwt

-- ============================================================================
-- Segments
-- ============================================================================

/-! ## Base64 segments -/

section Segments

variable {a b c d : List Char}

theorem b64urlEncode_eq (data : List UInt8) : b64urlEncode data = urlsafeText data :=
  urlsafeB64encode_strip data

/-- Whatever the length, what `_b64url_encode` strips `_b64url_decode` puts back. -/
theorem b64urlDecode_encode (data : List UInt8) : b64urlDecode (b64urlEncode data) = some data := by
  rw [b64urlDecode, b64urlEncode_eq, urlsafeText_length]
  exact urlsafeB64decode_text (padding_le data)

theorem dot_not_mem_b64url (data : List UInt8) : '.' ∉ b64urlEncode data := by
  rw [b64urlEncode_eq]
  exact fun h => (mem_urlsafeText h).2.1 rfl

/-! ## Splitting at dots -/

/-- No part of a split has the separator. -/
theorem not_mem_of_splitOn {α : Type} [DecidableEq α] {x : α} {s part : List α}
    (h : part ∈ s.splitOn x) : x ∉ part := by
  induction s generalizing part with
  | nil =>
    rw [List.splitOn_nil, List.mem_singleton] at h
    rw [h]
    exact List.not_mem_nil
  | cons y s ih =>
    rw [List.splitOn_cons_eq_if_modifyHead] at h
    by_cases hy : y = x
    · rw [if_pos (beq_iff_eq.mpr hy)] at h
      rcases List.mem_cons.mp h with rfl | h
      · exact List.not_mem_nil
      · exact ih h
    · rw [if_neg (by simpa using hy)] at h
      cases hs : s.splitOn x with
      | nil => exact absurd hs (List.splitOn_ne_nil x s)
      | cons first others =>
        rw [hs] at h
        rcases List.mem_cons.mp h with rfl | h
        · have hfirst : x ∉ first := ih (by rw [hs]; exact List.mem_cons_self)
          rw [List.mem_cons]
          rintro (rfl | hm)
          · exact hy rfl
          · exact hfirst hm
        · exact ih (by rw [hs]; exact List.mem_cons_of_mem _ h)

theorem splitOn_three (ha : '.' ∉ a) (hb : '.' ∉ b) (hc : '.' ∉ c) :
    (a ++ '.' :: (b ++ '.' :: c)).splitOn '.' = [a, b, c] := by
  rw [List.splitOn_append_cons_self_of_not_mem ha, List.splitOn_append_cons_self_of_not_mem hb,
    List.splitOn_eq_singleton hc]

/-- A message has one header and one payload. -/
theorem dotted_unique (ha : '.' ∉ a) (hb : '.' ∉ b) (hc : '.' ∉ c) (hd : '.' ∉ d)
    (h : a ++ '.' :: b = c ++ '.' :: d) : a = c ∧ b = d := by
  have hsplit := congrArg (List.splitOn '.') h
  rw [List.splitOn_append_cons_self_of_not_mem ha, List.splitOn_append_cons_self_of_not_mem hc,
    List.splitOn_eq_singleton hb, List.splitOn_eq_singleton hd] at hsplit
  obtain ⟨hac, hbd⟩ := List.cons.inj hsplit
  exact ⟨hac, (List.cons.inj hbd).1⟩

theorem encodeUtf8_injective (h : encodeUtf8 a = encodeUtf8 b) : a = b := by
  have hbytes : (String.ofList a).toByteArray = (String.ofList b).toByteArray :=
    congrArg List.toByteArray h
  exact String.ofList_injective (String.toByteArray_inj.mp hbytes)

end Segments

-- ============================================================================
-- Verification
-- ============================================================================

namespace Jwt

/-- `json.loads` gives back what `json.dumps` has made of the payload. -/
def JsonRoundTrips (jwt : Jwt) (m : Issue) : Prop :=
  jwt.loads (encodeUtf8 (jwt.dumps (.dict m.payload))) = some (.dict m.payload)

/-- No token that is presented has the HMAC of its first two parts as the third, unless
    `create_token` has computed it for these parts of a token that it has issued. -/
def Unforgeable (jwt : Jwt) (issued : Set Issue) (presented : Set (List Char)) : Prop :=
  ∀ token ∈ presented, ∀ header payload sig, token.splitOn '.' = [header, payload, sig] →
    b64urlDecode sig = some (jwt.signature header payload) →
    ∃ m ∈ issued, encodeUtf8 (header ++ '.' :: payload) =
      encodeUtf8 (jwt.headerText ++ '.' :: jwt.payloadText m)

section Verify

variable {jwt : Jwt} {m : Issue} {token : List Char} {now : ℚ} {data : Payload}

theorem verifyToken_some (h : jwt.verifyToken token now = some data) :
    ∃ header payload sig, token.splitOn '.' = [header, payload, sig] ∧
      b64urlDecode sig = some (jwt.signature header payload) ∧
      (b64urlDecode payload).bind jwt.loads = some (.dict data) ∧
      lessThan now ((data.lookup "exp").getD (.int 0)) = some false := by
  simp only [verifyToken] at h
  split at h
  · rename_i header payload sig hsplit
    split at h
    · cases h
    · rename_i given hgiven
      split at h
      · cases h
      · rename_i hsame
        split at h
        · rename_i items hload
          split at h
          · rename_i hless
            cases h
            exact ⟨header, payload, sig, hsplit, by rw [hgiven, not_not.mp hsame], hload, hless⟩
          · cases h
        · cases h
  · cases h

theorem lookup_exp (m : Issue) : m.payload.lookup "exp" = some (.int m.exp) := rfl

theorem splitOn_mint (m : Issue) : (jwt.mint m).splitOn '.' = [jwt.headerText, jwt.payloadText m,
    b64urlEncode (jwt.signature jwt.headerText (jwt.payloadText m))] :=
  splitOn_three (dot_not_mem_b64url _) (dot_not_mem_b64url _) (dot_not_mem_b64url _)

theorem verifyToken_mint (hjson : jwt.JsonRoundTrips m) :
    jwt.verifyToken (jwt.mint m) now = if now ≤ m.exp then some m.payload else none := by
  have hload : (b64urlDecode (jwt.payloadText m)).bind jwt.loads = some (.dict m.payload) := by
    rw [payloadText, b64urlDecode_encode, Option.bind_some]
    exact hjson
  simp only [verifyToken, splitOn_mint, b64urlDecode_encode, ne_eq, not_true_eq_false, if_false, hload,
    lookup_exp, Option.getD_some, lessThan]
  by_cases hexp : (m.exp : ℚ) < now
  · rw [decide_eq_true hexp, if_neg (not_le.mpr hexp)]
  · rw [decide_eq_false hexp, if_pos (not_lt.mp hexp)]

/-- An accepted payload was issued. -/
theorem verifyToken_issued {issued : Set Issue} {presented : Set (List Char)}
    (hun : jwt.Unforgeable issued presented) (hjson : ∀ m ∈ issued, jwt.JsonRoundTrips m)
    (htoken : token ∈ presented) (h : jwt.verifyToken token now = some data) :
    ∃ m ∈ issued, data = m.payload ∧ now ≤ m.exp := by
  obtain ⟨header, payload, sig, hsplit, hsig, hload, hless⟩ := verifyToken_some h
  have hparts : ∀ part ∈ [header, payload, sig], '.' ∉ part := by
    intro part hpart
    exact not_mem_of_splitOn (hsplit ▸ hpart)
  obtain ⟨m, hm, hmessage⟩ := hun token htoken header payload sig hsplit hsig
  -- the message is that of the issue, and so is its payload
  obtain ⟨-, hpayload⟩ : header = jwt.headerText ∧ payload = jwt.payloadText m :=
    dotted_unique (hparts header (by simp)) (hparts payload (by simp)) (dot_not_mem_b64url _)
      (dot_not_mem_b64url _) (encodeUtf8_injective hmessage)
  rw [hpayload, payloadText, b64urlDecode_encode, Option.bind_some, hjson m hm] at hload
  cases hload
  refine ⟨m, hm, rfl, ?_⟩
  rw [lookup_exp, Option.getD_some, lessThan] at hless
  exact not_lt.mp (of_decide_eq_false (Option.some.inj hless))

end Verify

/-! ## Tokens as their payloads -/

section Signed

variable {jwt : Jwt} {signed : List Claims} {c : Claims} {now : ℚ}

/-- The payload of `Babycat.Router.Accounts` as it is issued. -/
def issueOf (c : Claims) : Issue := ⟨c.sub, c.epoch, c.iat, c.exp⟩

/-- The token of signed claims is accepted when its claims are. -/
theorem verifyToken_claims (hc : c ∈ signed) (hjson : jwt.JsonRoundTrips (issueOf c)) :
    jwt.verifyToken (jwt.mint (issueOf c)) now =
      (Router.verifyToken signed now c).map fun c => (issueOf c).payload := by
  rw [verifyToken_mint hjson, Router.verifyToken]
  by_cases hexp : now ≤ c.exp
  · rw [if_pos (show now ≤ (issueOf c).exp from hexp), if_pos ⟨hc, not_lt.mpr hexp⟩,
      Option.map_some]
  · rw [if_neg (show ¬ now ≤ (issueOf c).exp from hexp), if_neg fun h => hexp (not_lt.mp h.2),
      Option.map_none]

/-- With an unforgeable HMAC an accepted token stands for claims that are signed and accepted. -/
theorem verifyToken_signed {presented : Set (List Char)} {token : List Char} {data : Payload}
    (hun : jwt.Unforgeable {m | ∃ c ∈ signed, m = issueOf c} presented)
    (hjson : ∀ c ∈ signed, jwt.JsonRoundTrips (issueOf c)) (htoken : token ∈ presented)
    (h : jwt.verifyToken token now = some data) :
    ∃ c, Router.verifyToken signed now c = some c ∧ data = (issueOf c).payload := by
  obtain ⟨m, ⟨c, hc, rfl⟩, hdata, hexp⟩ := verifyToken_issued hun
    (fun m ⟨c, hc, hm⟩ => hm ▸ hjson c hc) htoken h
  exact ⟨c, verifyToken_eq_some.mpr ⟨rfl, hc, hexp⟩, hdata⟩

end Signed

end Jwt

/-- Access tokens: what `create_token` issues is accepted up to its expiry and not afterwards, a
    string is accepted only with the HMAC of its first two parts as the third, and with an
    unforgeable HMAC every accepted payload is one that was issued. -/
theorem access_token (jwt : Jwt) :
    (∀ data, b64urlDecode (b64urlEncode data) = some data) ∧
    (∀ username epoch iatNow expNow, let m := jwt.issue username epoch iatNow expNow
      jwt.JsonRoundTrips m → ∀ now : ℚ,
        jwt.verifyToken (jwt.createToken username epoch iatNow expNow) now =
          if now ≤ m.exp then some m.payload else none) ∧
    (∀ token now data, jwt.verifyToken token now = some data →
      ∃ header payload sig, token.splitOn '.' = [header, payload, sig] ∧
        b64urlDecode sig = some (jwt.signature header payload)) ∧
    (∀ issued presented, jwt.Unforgeable issued presented →
      (∀ m ∈ issued, jwt.JsonRoundTrips m) → ∀ token ∈ presented, ∀ now data,
        jwt.verifyToken token now = some data →
          ∃ m ∈ issued, data = m.payload ∧ now ≤ m.exp) := by
  refine ⟨b64urlDecode_encode, fun _ _ _ _ => ?_, fun token now data h => ?_,
    fun issued presented hun hjson token htoken now data h =>
      Jwt.verifyToken_issued hun hjson htoken h⟩
  · intro m hjson now
    exact Jwt.verifyToken_mint hjson
  · obtain ⟨header, payload, sig, hsplit, hsig, -⟩ := Jwt.verifyToken_some h
    exact ⟨header, payload, sig, hsplit, hsig⟩

/-! ## A token -/

def sampleIssue : Issue := ⟨"admin", 3, 1000, 1600⟩

def sampleHeader : List Char := "\x7b\"alg\": \"HS256\", \"typ\": \"JWT\"\x7d".toList

def samplePayload : List Char :=
  "\x7b\"sub\": \"admin\", \"iat\": 1000, \"exp\": 1600, \"epoch\": 3\x7d".toList

/-- The message of `sampleIssue`. -/
def sampleMessage : List UInt8 :=
  encodeUtf8 ("eyJhbGciOiAiSFMyNTYiLCAidHlwIjogIkpXVCJ9." ++
    "eyJzdWIiOiAiYWRtaW4iLCAiaWF0IjogMTAwMCwgImV4cCI6IDE2MDAsICJlcG9jaCI6IDN9").toList

/-- HMAC-SHA256 on the message of `sampleIssue`, another digest on others, and JSON on the values of
    `sampleIssue`. -/
def sampleJwt : Jwt where
  secret := "0123456789abcdef"
  expiry := 600
  hmac _ message :=
    if message = sampleMessage then
      [210, 239, 42, 116, 211, 254, 82, 226, 58, 209, 132, 141, 53, 78, 154, 168, 209, 129, 252,
        167, 22, 254, 255, 68, 81, 229, 114, 97, 224, 136, 217, 54]
    else List.replicate 32 (UInt8.ofNat message.length)
  dumps
    | .dict (("alg", _) :: _) => sampleHeader
    | _ => samplePayload
  loads bytes := if bytes = encodeUtf8 samplePayload then some (.dict sampleIssue.payload) else none

/-- The token of `sampleIssue` with another payload in front of its signature. -/
def forgedToken : List Char :=
  sampleJwt.headerText ++ '.' :: (b64urlEncode (encodeUtf8 "\x7b\"sub\": \"root\"\x7d".toList) ++
    '.' :: b64urlEncode (sampleJwt.signature sampleJwt.headerText
      (sampleJwt.payloadText sampleIssue)))

theorem access_token_sample :
    (sampleJwt.verifyToken (sampleJwt.createToken "admin" 3 (2001 / 2) (4003 / 4)) 1600 =
        some sampleIssue.payload ∧
      sampleJwt.verifyToken (sampleJwt.createToken "admin" 3 (2001 / 2) (4003 / 4)) 1601 = none) ∧
    ∃ m ∈ ({sampleIssue} : Set Issue), sampleIssue.payload = m.payload ∧ (1600 : ℚ) ≤ m.exp := by
  have hissue : sampleJwt.issue "admin" 3 (2001 / 2) (4003 / 4) = sampleIssue := by
    with_unfolding_all decide
  have hjson : sampleJwt.JsonRoundTrips sampleIssue := by
    show (if encodeUtf8 samplePayload = encodeUtf8 samplePayload then
      some (Json.dict sampleIssue.payload) else none) = _
    exact if_pos rfl
  have hmint : sampleJwt.createToken "admin" 3 (2001 / 2) (4003 / 4) =
      sampleJwt.mint sampleIssue := by rw [Jwt.createToken, hissue]
  have hround := (access_token sampleJwt).2.1 "admin" 3 (2001 / 2) (4003 / 4) (hissue ▸ hjson)
  have hun : sampleJwt.Unforgeable {sampleIssue} {sampleJwt.mint sampleIssue, forgedToken} := by
    rintro token (rfl | rfl) header payload sig hsplit hsig
    · rw [Jwt.splitOn_mint] at hsplit
      obtain ⟨hheader, hothers⟩ := List.cons.inj hsplit
      exact ⟨sampleIssue, rfl, by rw [← hheader, ← (List.cons.inj hothers).1]⟩
    · -- the digest of the forged message is not the signature
      have hforged : ∀ parts, forgedToken.splitOn '.' = parts → ∀ s ∈ parts.getLast?,
          b64urlDecode s ≠ some (sampleJwt.signature (parts.headD []) ((parts.tail).headD [])) := by
        rintro parts rfl
        decide +kernel
      exact absurd hsig (hforged _ hsplit sig rfl)
  have hissued := (access_token sampleJwt).2.2.2 {sampleIssue}
    {sampleJwt.mint sampleIssue, forgedToken} hun (fun m hm => hm ▸ hjson)
    (sampleJwt.mint sampleIssue) (.inl rfl) 1600 sampleIssue.payload
  rw [hissue] at hround
  refine ⟨⟨?_, ?_⟩, hissued ?_⟩
  · rw [hround, if_pos (by norm_num [sampleIssue])]
  · rw [hround, if_neg (by norm_num [sampleIssue])]
  · rw [← hmint, hround, if_pos (by norm_num [sampleIssue])]

end Babycat.Router
