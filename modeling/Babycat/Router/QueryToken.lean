/-
  Babycat.Router.QueryToken

  A token in the query string (`require_auth`, `relay_raw`, `_MaskTokenFilter`):
  the framework's parameters decide who is let in, `parse_qsl` what the upstream
  gets, and a regular expression over the raw target what the log shows.

  `noLeak_iff` is when the three agree; `noLeak_escaped` is a target on which the
  log shows the token.
-/

import Babycat.Router.Token
import Babycat.Text.Masking
import Babycat.Text.PyStr
import Babycat.Text.Url

namespace Babycat.Router

open Babycat.Text

-- ============================================================================
-- The three readers
-- ============================================================================

abbrev Params := List (List Char × List Char)

def tokenName : List Char := "token".toList

/-- `request.query_params.get("token")`: of several the last. -/
def tokenParam (query : List Char) : Option (List Char) :=
  (((parseQsl query).filter (·.1 = tokenName)).getLast?).map (·.2)

/-- The token that `require_auth` takes; `none` is its first 401. -/
def takenToken (authorization query : List Char) : Option (List Char) :=
  let token :=
    if "Bearer ".toList.isPrefixOf authorization then some (authorization.drop 7)
    else tokenParam query
  token.filter (· ≠ [])

/-- What `_strip_token` keeps. -/
def kept (query : List Char) : Params := (parseQsl query).filter (·.1 ≠ tokenName)

/-- `_strip_token` -/
def stripToken (query : Option (List Char)) : Option (List Char) :=
  match query with
  | none => none
  | some query =>
      if query = [] then none
      else
        let text := urlencode (kept query)
        if text = [] then none else some text

/-- `_target_url` -/
def targetUrl (base path : List Char) (query : Option (List Char)) : List Char :=
  match query with
  | none => base ++ path
  | some query => if query = [] then base ++ path else base ++ path ++ '?' :: query

/-- `_TOKEN_QUERY_RE` and its substitution. -/
def tokenQueryRe : Masking Char where
  name := tokenName
  sign := '='
  stops := fun c => c = '&' || isSpace (codePoint c) || c = '"'
  stars := "***".toList

inductive LogArg where
  | str (s : List Char)
  | num (n : ℤ)
  deriving DecidableEq

/-- `_MaskTokenFilter.filter` -/
def maskTokens (args : List LogArg) : List LogArg :=
  args.map fun
    | .str s => .str (tokenQueryRe.mask s)
    | .num n => .num n

-- ============================================================================
-- One request
-- ============================================================================

/-- A request that `relay_raw` relays.  The framework builds `request.url` from the decoded
path, so its query need not be the query string. -/
structure RelayRequest where
  /-- The query string, raw. -/
  query : List Char
  /-- `request.url.query` -/
  urlQuery : List Char
  /-- `base` and `path` of the call of `relay_raw`; a path parameter is decoded. -/
  base : List Char
  path : List Char
  /-- The quoted path of the access log, and the other values of its record. -/
  loggedPath : List Char
  client : List Char
  method : List Char
  version : List Char
  status : ℤ

namespace RelayRequest

variable (r : RelayRequest)

/-- The URL that `relay_raw` opens. -/
def upstreamUrl : List Char := targetUrl r.base r.path (stripToken (some r.urlQuery))

/-- The target as the server logs it. -/
def target : List Char := if r.query = [] then r.loggedPath else r.loggedPath ++ '?' :: r.query

/-- `record.args` of the access log. -/
def accessArgs : List LogArg :=
  [.str r.client, .str r.method, .str r.target, .str r.version, .num r.status]

/-- What the upstream reads for parameters. -/
def received : Params := parseQsl (queryOf r.upstreamUrl)

/-- No text that is read as the token stands in a logged string, and the upstream gets the other
parameters as they were, and no token. -/
def NoLeak (token : List Char) : Prop :=
  (∀ p ∈ r.received, p.1 ≠ tokenName) ∧ r.received = kept r.query ∧
    ∀ s, .str s ∈ maskTokens r.accessArgs → ∀ R, unquotePlus R = token → ¬R <:+: s

/-- What is read of a query that a path has started: the first parameter behind it goes into the
path's last one. -/
def readJoined (own : List Char) : Params → Params
  | [] => parseQsl own
  | p :: rest => parseQsl (own ++ '?' :: writeParam p) ++ rest

/-- A decoded path with a question mark or a number sign has a query or a fragment of its own. -/
def PassesOthers : Prop :=
  if '#' ∈ r.base ++ r.path then parseQsl (queryOf (r.base ++ r.path)) = kept r.query
  else if '?' ∈ r.base ++ r.path then
    readJoined (queryOf (r.base ++ r.path)) (kept r.urlQuery) = kept r.query
  else kept r.urlQuery = kept r.query

/-- Wherever the raw strings have a text that is read as the token, it is behind a key. -/
def BehindKeys (token : List Char) : Prop :=
  ∀ s, .str s ∈ r.accessArgs → ∀ u R v, s = u ++ R ++ v → unquotePlus R = token →
    tokenQueryRe.Behind u

end RelayRequest

/-- Neither the sign of the key nor the mask is part of it, and it does not start with what ends a
masked text. -/
structure TokenText (token : List Char) : Prop where
  sign : '=' ∉ token
  star : '*' ∉ token
  head : ∀ c ∈ token.head?, tokenQueryRe.stops c = false

-- ============================================================================
-- What the upstream reads
-- ============================================================================

section Upstream

variable {r : RelayRequest} {base path query token : List Char}

theorem targetUrl_stripToken (base path query : List Char) :
    targetUrl base path (stripToken (some query)) =
      if kept query = [] then base ++ path
      else base ++ path ++ '?' :: urlencode (kept query) := by
  rw [stripToken]
  split_ifs with hquery hkept hkept
  · rfl
  · rw [hquery] at hkept
    exact absurd rfl hkept
  · rw [if_pos (urlencode_eq_nil.mpr hkept)]
    rfl
  · have hfull : urlencode (kept query) ≠ [] := fun h => hkept (urlencode_eq_nil.mp h)
    rw [if_neg hfull, targetUrl, if_neg hfull]

theorem parseQsl_joined (own : List Char) {params : Params} (hparams : params ≠ []) :
    parseQsl (own ++ '?' :: urlencode params) = RelayRequest.readJoined own params := by
  cases params with
  | nil => exact absurd rfl hparams
  | cons p rest =>
    rw [RelayRequest.readJoined]
    by_cases hrest : rest = []
    · rw [hrest, List.append_nil, urlencode, List.map_singleton, List.intercalate_singleton]
    · rw [urlencode_cons p hrest, ← List.cons_append, ← List.append_assoc, parseQsl_append,
        parseQsl_urlencode]

/-- The upstream gets the other parameters exactly when they pass. -/
theorem received_eq_iff : r.received = kept r.query ↔ r.PassesOthers := by
  have hsigns : ∀ c ∈ ['#', '?'], c ∉ urlencode (kept r.urlQuery) := fun c hc hmem =>
    mem_urlencode hmem hc
  rw [RelayRequest.received, RelayRequest.upstreamUrl, targetUrl_stripToken,
    RelayRequest.PassesOthers]
  have hfragment : '#' ∉ '?' :: urlencode (kept r.urlQuery) := by
    rw [List.mem_cons]
    exact not_or_intro (by decide) (hsigns '#' (by decide))
  by_cases hhash : '#' ∈ r.base ++ r.path
  · rw [if_pos hhash]
    split_ifs with hkept
    · rfl
    · rw [queryOf_fragment hhash]
  rw [if_neg hhash]
  by_cases hquery : '?' ∈ r.base ++ r.path
  · rw [if_pos hquery]
    split_ifs with hkept
    · rw [hkept, RelayRequest.readJoined]
    · rw [queryOf_started hhash hquery hfragment, parseQsl_joined _ hkept]
  · rw [if_neg hquery]
    split_ifs with hkept
    · rw [queryOf_none hquery, hkept]
      rfl
    · rw [queryOf_append hhash hquery (hsigns '#' (by decide)), parseQsl_urlencode]

theorem kept_ne_token {p : List Char × List Char} (h : p ∈ kept query) : p.1 ≠ tokenName :=
  of_decide_eq_true (List.mem_filter.mp h).2

end Upstream

-- ============================================================================
-- What the log shows
-- ============================================================================

section Log

variable {r : RelayRequest} {token R s : List Char}

theorem key_not_stops : ∀ c ∈ tokenQueryRe.key, tokenQueryRe.stops c = false := by
  have hall : tokenQueryRe.key.all (fun c => !tokenQueryRe.stops c) = true := by decide
  intro c hc
  exact Bool.not_eq_true' _ |>.mp (List.all_eq_true.mp hall c hc)

/-- A text that is read as the token is masked like the token. -/
theorem spelled_spec (htoken : token ≠ []) (htext : TokenText token)
    (hread : unquotePlus R = token) :
    R ≠ [] ∧ tokenQueryRe.sign ∉ R ∧ (∀ c ∈ tokenQueryRe.stars, c ∉ R) ∧
      ∀ c ∈ R.head?, tokenQueryRe.stops c = false := by
  subst hread
  refine ⟨?_, ?_, ?_, ?_⟩
  · rintro rfl
    exact htoken rfl
  · exact fun hmem =>
      htext.sign (mem_unquotePlus (by decide) (by decide) (by decide) (by decide) hmem)
  · intro c hc hmem
    have hstar : c = '*' := List.eq_of_mem_replicate (n := 3) hc
    subst hstar
    exact htext.star (mem_unquotePlus (by decide) (by decide) (by decide) (by decide) hmem)
  · intro c hc
    cases R with
    | nil => cases hc
    | cons d R =>
      obtain rfl : d = c := Option.some.inj hc
      by_cases hplus : d = '+'
      · rw [hplus]
        decide
      by_cases hpercent : d = '%'
      · rw [hpercent]
        decide
      · exact htext.head d (by rw [unquotePlus_cons hplus hpercent]; rfl)

/-- The log shows no text that is read as the token exactly when each is behind a key. -/
theorem log_iff (htoken : token ≠ []) (htext : TokenText token) :
    (∀ s, .str s ∈ maskTokens r.accessArgs → ∀ R, unquotePlus R = token → ¬R <:+: s) ↔
      r.BehindKeys token := by
  have hshown : ∀ {R s : List Char}, unquotePlus R = token →
      (R <:+: tokenQueryRe.mask s ↔ tokenQueryRe.Shown R s) := by
    intro R s hread
    obtain ⟨hR, hsign, hstars, hhead⟩ := spelled_spec htoken htext hread
    exact Masking.infix_mask_iff key_not_stops hR hsign hstars hhead
  constructor
  · intro h s hs u R v hsplit hread
    by_contra hnot
    have hmasked : .str (tokenQueryRe.mask s) ∈ maskTokens r.accessArgs :=
      List.mem_map_of_mem hs
    exact h _ hmasked R hread ((hshown hread).mpr ⟨u, v, hsplit, hnot⟩)
  · intro h s hs R hread hinfix
    obtain ⟨arg, harg, heq⟩ := List.mem_map.mp hs
    cases arg with
    | num n => cases heq
    | str raw =>
      obtain rfl := LogArg.str.inj heq
      obtain ⟨u, v, hsplit, hnot⟩ := (hshown hread).mp hinfix
      exact hnot (h raw harg u R v hsplit hread)

/-- No character of URL-safe base64 is a sign, a star or an end. -/
theorem urlsafeChar_plain : ∀ v : Fin 64,
    urlsafeEncodeChar (base64Char v) ∉ ['=', '*'] ∧
      tokenQueryRe.stops (urlsafeEncodeChar (base64Char v)) = false := by decide

theorem b64urlEncode_plain {data : List UInt8} {c : Char} (hc : c ∈ b64urlEncode data) :
    c ∉ ['=', '*'] ∧ tokenQueryRe.stops c = false := by
  rw [b64urlEncode_eq] at hc
  obtain ⟨v, hv, rfl⟩ := List.mem_map.mp hc
  exact urlsafeChar_plain ⟨v, sextets_lt data v hv⟩

/-- Every token that `create_token` issues is such a text. -/
theorem tokenText_mint (jwt : Jwt) (m : Issue) : TokenText (jwt.mint m) := by
  have hdot : '.' ∉ ['=', '*'] ∧ tokenQueryRe.stops '.' = false := by decide
  have hplain : ∀ c ∈ jwt.mint m, c ∉ ['=', '*'] ∧ tokenQueryRe.stops c = false := by
    intro c hc
    rcases List.mem_append.mp hc with hc | hc
    · exact b64urlEncode_plain hc
    rcases List.mem_cons.mp hc with rfl | hc
    · exact hdot
    rcases List.mem_append.mp hc with hc | hc
    · exact b64urlEncode_plain hc
    rcases List.mem_cons.mp hc with rfl | hc
    · exact hdot
    · exact b64urlEncode_plain hc
  refine ⟨fun h => (hplain _ h).1 (by decide), fun h => (hplain _ h).1 (by decide), fun c hc => ?_⟩
  exact (hplain c (List.mem_of_mem_head? hc)).2

end Log

/-- A token that is taken from the query leaks neither to the upstream nor into the log exactly
when the other parameters pass and every text that is read as it is behind a key. -/
theorem noLeak_iff (r : RelayRequest) {token : List Char}
    (htaken : takenToken [] r.query = some token) (htext : TokenText token) :
    r.NoLeak token ↔ r.PassesOthers ∧ r.BehindKeys token := by
  have htoken : token ≠ [] := by
    have hsome := (Option.filter_eq_some_iff.mp htaken).2
    exact of_decide_eq_true hsome
  rw [RelayRequest.NoLeak, log_iff htoken htext, received_eq_iff]
  refine ⟨fun h => h.2, fun h => ⟨?_, h⟩⟩
  intro p hp
  rw [received_eq_iff.mpr h.1] at hp
  exact kept_ne_token hp

/-! ## Two targets -/

def clipsRequest (query : String) : RelayRequest where
  query := query.toList
  urlQuery := query.toList
  base := "http://recorder:8080".toList
  path := "/clips".toList
  loggedPath := "/clips".toList
  client := "10.0.0.7:50312".toList
  method := "GET".toList
  version := "1.1".toList
  status := 200

def accessTokenText : List Char := "eyJh.eyJz.c2ln".toList

theorem tokenText_sample : TokenText accessTokenText := by
  refine ⟨by decide, by decide, fun c hc => ?_⟩
  obtain rfl : 'e' = c := Option.some.inj hc
  decide

theorem noLeak_plain :
    takenToken [] (clipsRequest "a=1&token=eyJh.eyJz.c2ln&b=%20").query = some accessTokenText ∧
      ((clipsRequest "a=1&token=eyJh.eyJz.c2ln&b=%20").NoLeak accessTokenText ↔
        (clipsRequest "a=1&token=eyJh.eyJz.c2ln&b=%20").PassesOthers ∧
          (clipsRequest "a=1&token=eyJh.eyJz.c2ln&b=%20").BehindKeys accessTokenText) :=
  have htaken : takenToken [] (clipsRequest "a=1&token=eyJh.eyJz.c2ln&b=%20").query =
      some accessTokenText := by decide
  ⟨htaken, noLeak_iff _ htaken tokenText_sample⟩

/-- The name of the parameter may be escaped. -/
theorem noLeak_escaped :
    takenToken [] (clipsRequest "%74oken=eyJh.eyJz.c2ln").query = some accessTokenText ∧
      TokenText accessTokenText ∧
        ¬(clipsRequest "%74oken=eyJh.eyJz.c2ln").NoLeak accessTokenText := by
  refine ⟨by decide, tokenText_sample, fun h => ?_⟩
  have hlogged : .str "/clips?%74oken=eyJh.eyJz.c2ln".toList ∈
      maskTokens (clipsRequest "%74oken=eyJh.eyJz.c2ln").accessArgs := by decide
  exact h.2.2 _ hlogged accessTokenText (by decide) ⟨"/clips?%74oken=".toList, [], by decide⟩

end Babycat.Router
