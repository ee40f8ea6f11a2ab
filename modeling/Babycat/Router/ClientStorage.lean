/-
  Babycat.Router.ClientStorage

  The documents that clients keep with the router, one for each account and key
  (`main.py`, `get_client_storage` and `put_client_storage`; FR-059).

  A document is parsed, dumped, stored, parsed again and rendered.  The parser
  and the dump take numbers that are not finite, the renderer of the framework
  does not, so such a document is accepted and cannot be served.
-/

import Babycat.Text.JsonNesting
import Babycat.Text.JsonRoundTrip

namespace Babycat.Storage

open Babycat.Text

-- ============================================================================
-- The renderer of the framework
-- ============================================================================

/-- A number of the value itself is finite. -/
def finiteOwn : Json → Bool
  | .float x => x.isFinite
  | _ => true

/-- No key of the value itself is left out. -/
def keptOwn (drops : PyStr → Bool) : Json → Bool
  | .dict items => items.all fun f => !drops f.1
  | _ => true

open Json (depth nesting)

/-- A value that comes out of the renderer as it is: its numbers are finite, none of its keys is
    left out, and it is not nested deeper than the renderer goes. -/
structure Plain (drops : PyStr → Bool) (deepest : ℕ) (j : Json) : Prop where
  finite : Json.all finiteOwn j = true
  kept : Json.all (keptOwn drops) j = true
  shallow : depth j ≤ deepest

instance (drops : PyStr → Bool) (deepest : ℕ) (j : Json) : Decidable (Plain drops deepest j) :=
  decidable_of_iff (Json.all finiteOwn j = true ∧ Json.all (keptOwn drops) j = true ∧
    depth j ≤ deepest) ⟨fun h => ⟨h.1, h.2.1, h.2.2⟩, fun h => ⟨h.finite, h.kept, h.shallow⟩⟩

/-- `jsonable_encoder` and `JSONResponse` of the framework: the value that the answer holds, or none
    when they raise. -/
structure Renderer where
  render : Json → Option Json
  /-- The keys that the encoder leaves out (`_sa...`). -/
  drops : PyStr → Bool
  deepest : ℕ
  deepest_pos : 0 < deepest
  returns_iff : ∀ j, Json.WellFormed j → Json.Encodable j →
    (render j = some j ↔ Plain drops deepest j)

/-- How deep lists and dicts may stand inside each other before the interpreter raises
    `RecursionError`: where the framework decodes a body, where a document is encoded, and where a
    row is decoded. -/
structure Limits where
  body : ℕ
  encode : ℕ
  row : ℕ
  row_pos : 0 < row

-- ============================================================================
-- The handlers
-- ============================================================================

/-- An answer of status 200, or one of an error. -/
inductive Reply
  | ok (body : Json)
  | error (status : ℕ)

def Reply.status : Reply → ℕ
  | .ok _ => 200
  | .error status => status

/-- `[a-z0-9_-]` -/
def keyPoint (c : CodePoint) : Bool :=
  (97 ≤ c.val && c.val ≤ 122) || (48 ≤ c.val && c.val ≤ 57) || c = codePoint '_' ||
    c = codePoint '-'

/-- `_CLIENT_STORAGE_KEY_RE.fullmatch` -/
def validKey (key : PyStr) : Bool := 1 ≤ key.length && key.length ≤ 64 && key.all keyPoint

/-- The length of the UTF-8 encoding of a code point. -/
def utf8Size (c : CodePoint) : ℕ :=
  if c.val < 0x80 then 1 else if c.val < 0x800 then 2 else if c.val < 0x10000 then 3 else 4

/-- `len(data.encode())` -/
def encodedLength (data : PyStr) : ℕ := (data.map utf8Size).sum

def maxBytes : ℕ := 512 * 1024

/-- The separators of `json.dumps`. -/
def spaced : Json.Style where
  indent := none
  afterComma := [codePoint ' ']
  afterColon := [codePoint ' ']
  comma_blank := Json.space_blank
  colon_blank := Json.space_blank

/-- The table `client_storage`, by account and key. -/
abbrev Table := PyStr × PyStr → Option PyStr

def emptyTable : Table := fun _ => none

/-- What the framework makes of a returned value. -/
def Renderer.answer (R : Renderer) (j : Json) : Reply :=
  match R.render j with
  | some body => .ok body
  | none => .error 500

/-- `get_client_storage` -/
def getDocument (R : Renderer) (L : Limits) (table : Table) (account key : PyStr) : Reply :=
  if validKey key then
    match table (account, key) with
    | none => R.answer (.dict [])
    | some data =>
        -- a `RecursionError` is no `ValueError`
        if L.row < nesting data then .error 500
        else R.answer ((Json.loads data).getD (.dict []))
  else .error 400

/-- The document of a body, as the framework hands it to the handler.  A text that the decoder gives
    up on, and a value that is not a dict, are answered with 400 (`_validation_as_400`). -/
def bodyDocument (L : Limits) (body : PyStr) : Option (List (PyStr × Json)) :=
  if L.body < nesting body then none
  else
    match Json.loads body with
    | some (.dict document) => some document
    | _ => none

/-- `put_client_storage`, for the text of the body. -/
def putDocument (L : Limits) (table : Table) (account key body : PyStr) : Table × Reply :=
  match bodyDocument L body with
  | some document =>
      if validKey key then
        let data := Json.dumps spaced (.dict document)
        -- `json.dumps` and `data.encode()` raise
        if L.encode < depth (.dict document) then (table, .error 500)
        else if !encodable data then (table, .error 500)
        else if maxBytes < encodedLength data then (table, .error 413)
        else (Function.update table (account, key) (some data),
          .ok (.dict [(pyStr "ok", .bool true)]))
      else (table, .error 400)
  | none => (table, .error 400)

-- ============================================================================
-- Runs
-- ============================================================================

inductive Request
  | put (account key body : PyStr)
  | get (account key : PyStr)

/-- The account and the key of the request. -/
def Request.pair : Request → PyStr × PyStr
  | .put account key _ => (account, key)
  | .get account key => (account, key)

def serve (R : Renderer) (L : Limits) (table : Table) : Request → Table × Reply
  | .put account key body => putDocument L table account key body
  | .get account key => (table, getDocument R L table account key)

/-- The table and the answered requests of a run. -/
structure Run where
  table : Table
  answered : List (Request × Reply)

def Run.step (R : Renderer) (L : Limits) (run : Run) (r : Request) : Run :=
  ⟨(serve R L run.table r).1, run.answered ++ [(r, (serve R L run.table r).2)]⟩

def runOf (R : Renderer) (L : Limits) (requests : List Request) : Run :=
  requests.foldl (Run.step R L) ⟨emptyTable, []⟩

/-- What an answered request makes of the document of a pair. -/
def noteAnswer (pair : PyStr × PyStr) (document : Json) : Request × Reply → Json
  | (.put account key body, .ok _) =>
      if (account, key) = pair then (Json.loads body).getD document else document
  | _ => document

/-- The document of the last `PUT` on the pair that was answered with 200, or the empty one. -/
def latest (answered : List (Request × Reply)) (pair : PyStr × PyStr) : Json :=
  answered.foldl (noteAnswer pair) (.dict [])

section Runs

variable {R : Renderer} {L : Limits} {table : Table} {account key body : PyStr}
variable {requests : List Request}

theorem bodyDocument_eq {document : List (PyStr × Json)}
    (h : bodyDocument L body = some document) :
    Json.loads body = some (.dict document) := by
  rw [bodyDocument] at h
  split_ifs at h
  split at h
  · rename_i found hloads
    rw [hloads, Option.some.inj h]
  · cases h

/-- A `PUT` stores its document, or changes nothing. -/
theorem putDocument_cases (L : Limits) (table : Table) (account key body : PyStr) :
    (∃ document answer, Json.loads body = some (.dict document) ∧
        Json.Encodable (.dict document) ∧
        putDocument L table account key body =
          (Function.update table (account, key) (some (Json.dumps spaced (.dict document))),
            .ok answer)) ∨
      ∃ status, putDocument L table account key body = (table, .error status) := by
  simp only [putDocument]
  split
  · rename_i document hbody
    split_ifs with hkey hdeep hencodable hsize
    · exact .inr ⟨500, rfl⟩
    · exact .inr ⟨500, rfl⟩
    · exact .inr ⟨413, rfl⟩
    · rw [Bool.not_eq_true', Bool.not_eq_false] at hencodable
      exact .inl ⟨document, _, bodyDocument_eq hbody,
        (Json.encodable_dumps spaced _).mp hencodable, rfl⟩
    · exact .inr ⟨400, rfl⟩
  · exact .inr ⟨400, rfl⟩

theorem runOf_append (r : Request) :
    runOf R L (requests ++ [r]) = (runOf R L requests).step R L r := by
  rw [runOf, List.foldl_append]
  rfl

/-- What the table holds for a pair is the dump of its document. -/
def Held (table : Table) (pair : PyStr × PyStr) (document : Json) : Prop :=
  Json.WellFormed document ∧ Json.Encodable document ∧
    match table pair with
    | none => document = .dict []
    | some data => data = Json.dumps spaced document

theorem held_empty (pair : PyStr × PyStr) : Held emptyTable pair (.dict []) := ⟨rfl, rfl, rfl⟩

/-- A request keeps what is held up to date. -/
theorem held_step {run : Run} {pair : PyStr × PyStr}
    (h : Held run.table pair (latest run.answered pair)) (r : Request) :
    Held (run.step R L r).table pair (latest (run.step R L r).answered pair) := by
  have hlatest : latest (run.step R L r).answered pair =
      noteAnswer pair (latest run.answered pair) (r, (serve R L run.table r).2) := by
    rw [latest, Run.step, List.foldl_append]
    rfl
  rw [hlatest]
  cases r with
  | get account key => exact h
  | put account key body =>
    rcases putDocument_cases L run.table account key body with
      ⟨document, answer, hbody, henc, hput⟩ | ⟨status, hput⟩
    · simp only [Run.step, serve, hput, noteAnswer, hbody, Option.getD_some]
      by_cases hpair : (account, key) = pair
      · rw [if_pos hpair, hpair, Held, Function.update_self]
        exact ⟨Json.loads_wellFormed hbody, henc, rfl⟩
      · rw [if_neg hpair, Held, Function.update_of_ne (Ne.symm hpair)]
        exact h
    · simp only [Run.step, serve, hput, noteAnswer]
      exact h

theorem held_run (pair : PyStr × PyStr) :
    Held (runOf R L requests).table pair (latest (runOf R L requests).answered pair) := by
  induction requests using List.reverseRecOn with
  | nil => exact held_empty pair
  | append_singleton requests r ih =>
    rw [runOf_append]
    exact held_step ih r

/-- The document of a pair is served if and only if it is decoded again and comes out of the
    renderer as it is. -/
theorem getDocument_iff {document : Json} (hkey : validKey key = true)
    (h : Held table (account, key) document) :
    getDocument R L table account key = .ok document ↔
      depth document ≤ L.row ∧ Plain R.drops R.deepest document := by
  obtain ⟨hwell, henc, htable⟩ := h
  have hrenders : R.answer document = .ok document ↔ Plain R.drops R.deepest document := by
    rw [← R.returns_iff document hwell henc, Renderer.answer]
    cases R.render document with
    | none => exact ⟨fun h => (by cases h), fun h => (by cases h)⟩
    | some body =>
      exact ⟨fun h => congrArg some (Reply.ok.inj h),
        fun h => congrArg Reply.ok (Option.some.inj h)⟩
  rw [getDocument, if_pos hkey]
  cases hrow : table (account, key) with
  | none =>
    rw [hrow] at htable
    subst htable
    exact hrenders.trans (and_iff_right L.row_pos).symm
  | some data =>
    rw [hrow] at htable
    simp only at htable ⊢
    rw [htable, Json.nesting_dumps, Json.loads_dumps spaced hwell]
    by_cases hdeep : L.row < depth document
    · rw [if_pos hdeep]
      exact iff_of_false (fun h => by cases h) fun h => absurd h.1 (Nat.not_le_of_lt hdeep)
    · rw [if_neg hdeep]
      exact hrenders.trans (and_iff_right (Nat.le_of_not_lt hdeep)).symm

/-- What a request leaves for a pair depends on what was there for it. -/
theorem serve_same {other : Table} {pair : PyStr × PyStr} (h : table pair = other pair)
    (r : Request) : (serve R L table r).1 pair = (serve R L other r).1 pair := by
  cases r with
  | get account key => exact h
  | put account key body =>
    have hupdate : ∀ data : Option PyStr, Function.update table (account, key) data pair =
        Function.update other (account, key) data pair := by
      intro data
      by_cases hpair : pair = (account, key)
      · rw [hpair, Function.update_self, Function.update_self]
      · rw [Function.update_of_ne hpair, Function.update_of_ne hpair, h]
    simp only [serve, putDocument]
    split
    · split_ifs
      · exact h
      · exact h
      · exact h
      · exact hupdate _
      · exact h
    · exact h

/-- A request on another pair changes nothing for a pair. -/
theorem serve_other {pair : PyStr × PyStr} {r : Request} (h : r.pair ≠ pair) :
    (serve R L table r).1 pair = table pair := by
  cases r with
  | get account key => rfl
  | put account key body =>
    rcases putDocument_cases L table account key body with
      ⟨document, answer, -, -, hput⟩ | ⟨status, hput⟩
    · rw [serve, hput]
      exact Function.update_of_ne (Ne.symm h) _ _
    · rw [serve, hput]

/-- The requests on other pairs do not count for a pair. -/
theorem table_filter (pair : PyStr × PyStr) :
    (runOf R L requests).table pair =
      (runOf R L (requests.filter fun r => r.pair = pair)).table pair := by
  induction requests using List.reverseRecOn with
  | nil => rfl
  | append_singleton requests r ih =>
    rw [runOf_append, List.filter_append, List.filter_singleton]
    by_cases hr : r.pair = pair
    · rw [decide_eq_true hr, cond_true, runOf_append]
      exact serve_same ih r
    · rw [decide_eq_false hr, cond_false, List.append_nil, ← ih]
      exact serve_other hr

/-- After any run, a `GET` on a valid key answers with the document of the last accepted `PUT` on
    the pair if and only if that is not nested too deep for the decoder and comes out of the
    renderer as it is; it answers as after the requests on the pair alone; and a `PUT` that is not
    accepted changes nothing. -/
theorem getDocument_latest_iff (R : Renderer) (L : Limits) (requests : List Request)
    (account key : PyStr) (hkey : validKey key = true) :
    (getDocument R L (runOf R L requests).table account key =
        .ok (latest (runOf R L requests).answered (account, key)) ↔
      depth (latest (runOf R L requests).answered (account, key)) ≤ L.row ∧
        Plain R.drops R.deepest (latest (runOf R L requests).answered (account, key))) ∧
    getDocument R L (runOf R L requests).table account key =
      getDocument R L (runOf R L (requests.filter fun r => r.pair = (account, key))).table account
        key ∧
    ∀ table account key body status, (putDocument L table account key body).2 = .error status →
      (putDocument L table account key body).1 = table := by
  refine ⟨getDocument_iff hkey (held_run (account, key)), ?_, ?_⟩
  · rw [getDocument, getDocument, ← table_filter]
  · intro table account key body status herror
    rcases putDocument_cases L table account key body with
      ⟨document, answer, -, -, hput⟩ | ⟨status, hput⟩
    · rw [hput] at herror
      cases herror
    · rw [hput]

end Runs

/-! ## A number that is not finite -/

/-- A renderer that leaves out the keys with `_sa` in front, for values without such keys. -/
def plainRenderer : Renderer where
  render j := if Plain (fun key => (pyStr "_sa").isPrefixOf key) 300 j then some j else none
  drops key := (pyStr "_sa").isPrefixOf key
  deepest := 300
  deepest_pos := by decide
  returns_iff j _ _ := by
    split_ifs with h
    · exact iff_of_true rfl h
    · exact iff_of_false (fun hnone => by cases hnone) h

/-- Limits of the size of the interpreter's default. -/
def sampleLimits : Limits := ⟨900, 900, 900, by decide⟩

def admin : PyStr := pyStr "admin"
def pets : PyStr := pyStr "pets"

/-- `{"weight": 4.5}` -/
def light : PyStr := pyStr "\x7b\"weight\": 4.5\x7d"

/-- `{"weight": 1e999}` -/
def heavy : PyStr := pyStr "\x7b\"weight\": 1e999\x7d"

/-- Two accounts and two keys. -/
def keptRequests : List Request :=
  [.put admin pets light, .put (pyStr "guest") pets heavy, .put admin (pyStr "rooms") heavy]

/-- A document is served whatever the other pairs hold. -/
theorem getDocument_latest_light :
    getDocument plainRenderer sampleLimits (runOf plainRenderer sampleLimits keptRequests).table
        admin pets =
          .ok (latest (runOf plainRenderer sampleLimits keptRequests).answered (admin, pets)) ∧
      (putDocument sampleLimits emptyTable admin pets light).2.status = 200 :=
  ⟨(getDocument_latest_iff plainRenderer sampleLimits keptRequests admin pets (by decide)).1.mpr
    (by decide +kernel), by decide +kernel⟩

/-- A number that overflows is accepted, and then the document cannot be served. -/
theorem getDocument_heavy :
    (putDocument sampleLimits emptyTable admin pets heavy).2.status = 200 ∧
      (getDocument plainRenderer sampleLimits
        (runOf plainRenderer sampleLimits [.put admin pets heavy]).table admin pets).status = 500 :=
  ⟨by decide +kernel, by decide +kernel⟩

end Babycat.Storage
