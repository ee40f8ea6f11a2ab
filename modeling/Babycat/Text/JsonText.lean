/-
  Babycat.Text.JsonText

  `json.dumps(value, ensure_ascii=False)` and `json.loads`.

  A `Style` is what the arguments `indent` and `separators` set.  The decoder
  takes `NaN` and the infinities, joins the escapes of a surrogate pair, and
  lets the last of equal keys win.  Its functions have a bound on their steps,
  for which the length of the text is enough.
-/

import Babycat.Text.JsonNumber

namespace Babycat.Text.Json

-- ============================================================================
-- Strings
-- ============================================================================

def quote : CodePoint := codePoint '"'
def backslash : CodePoint := codePoint '\\'

/-- The code points with a short escape, and the letter of it. -/
def escapes : List (CodePoint × CodePoint) :=
  [(backslash, backslash), (quote, quote), (8, codePoint 'b'), (12, codePoint 'f'),
    (10, codePoint 'n'), (13, codePoint 'r'), (9, codePoint 't')]

/-- The escape of a code point. -/
def escape (c : CodePoint) : PyStr :=
  match escapes.lookup c with
  | some letter => [backslash, letter]
  | none =>
      if c.val < 32 then
        [backslash, codePoint 'u', codePoint '0', codePoint '0',
          codePoint (c.val / 16).digitChar, codePoint (c.val % 16).digitChar]
      else [c]

/-- `json.dumps` of a string. -/
def stringText (s : PyStr) : PyStr := quote :: (s.flatMap escape ++ [quote])

/-- The letters of the escapes that are read, and what they stand for. -/
def letters : List (CodePoint × CodePoint) :=
  (codePoint '/', codePoint '/') :: escapes.map fun e => (e.2, e.1)

/-- The value of a hexadecimal digit. -/
def hexDigit (c : CodePoint) : Option ℕ :=
  if 48 ≤ c.val ∧ c.val ≤ 57 then some (c.val - 48)
  else if 97 ≤ c.val ∧ c.val ≤ 102 then some (c.val - 87)
  else if 65 ≤ c.val ∧ c.val ≤ 70 then some (c.val - 55)
  else none

/-- Four hexadecimal digits, and the rest. -/
def readHex4 : PyStr → Option (ℕ × PyStr)
  | a :: b :: c :: d :: rest =>
      match hexDigit a, hexDigit b, hexDigit c, hexDigit d with
      | some a, some b, some c, some d => some (((a * 16 + b) * 16 + c) * 16 + d, rest)
      | _, _, _, _ => none
  | _ => none

/-- The low surrogate of a pair, if its escape follows. -/
def readLow : PyStr → Option (ℕ × PyStr)
  | c :: u :: rest =>
      if c = backslash && u = codePoint 'u' then
        match readHex4 rest with
        | some (low, rest) => if 0xDC00 ≤ low ∧ low ≤ 0xDFFF then some (low, rest) else none
        | none => none
      else none
  | _ => none

/-- What follows the backslash of an escape. -/
def readEscape : PyStr → Option (CodePoint × PyStr)
  | [] => none
  | letter :: rest =>
      if letter = codePoint 'u' then
        match readHex4 rest with
        | none => none
        | some (high, rest) =>
            if 0xD800 ≤ high ∧ high ≤ 0xDBFF then
              match readLow rest with
              | some (low, rest) =>
                  some (Fin.ofNat 0x110000 (0x10000 + (high - 0xD800) * 0x400 + (low - 0xDC00)), rest)
              | none => some (Fin.ofNat 0x110000 high, rest)
            else some (Fin.ofNat 0x110000 high, rest)
      else (letters.lookup letter).map fun c => (c, rest)

/-- `scanstring`: the string up to its closing quotation mark, and the rest. -/
def scanString : ℕ → PyStr → Option (PyStr × PyStr)
  | 0, _ => none
  | _, [] => none
  | n + 1, c :: rest =>
      if c = quote then some ([], rest)
      else if c = backslash then
        match readEscape rest with
        | none => none
        | some (d, rest) => (scanString n rest).map fun r => (d :: r.1, r.2)
      else if c.val < 32 then none
      else (scanString n rest).map fun r => (c :: r.1, r.2)

-- ============================================================================
-- The encoder
-- ============================================================================

/-- The blanks between the tokens. -/
def isBlank (c : CodePoint) : Bool := c = 32 || c = 9 || c = 10 || c = 13

def comma : CodePoint := codePoint ','
def colon : CodePoint := codePoint ':'
def openList : CodePoint := codePoint '['
def closeList : CodePoint := codePoint ']'
def openDict : CodePoint := codePoint '\x7b'
def closeDict : CodePoint := codePoint '\x7d'

/-- The layout of a document: the blanks of one level of indentation, if it has lines, and those
    behind the commas and the colons. -/
structure Style where
  indent : Option ℕ
  afterComma : PyStr
  afterColon : PyStr
  comma_blank : ∀ c ∈ afterComma, isBlank c = true
  colon_blank : ∀ c ∈ afterColon, isBlank c = true

theorem nothing_blank : ∀ c ∈ ([] : PyStr), isBlank c = true := List.forall_mem_nil _

theorem space_blank : ∀ c ∈ [codePoint ' '], isBlank c = true :=
  List.forall_mem_singleton.mpr rfl

/-- `json.dump(..., indent=2)` -/
def indented : Style where
  indent := some 2
  afterComma := []
  afterColon := [codePoint ' ']
  comma_blank := nothing_blank
  colon_blank := space_blank

/-- The start of a line inside `depth` containers. -/
def Style.line (st : Style) (depth : ℕ) : PyStr :=
  match st.indent with
  | none => []
  | some width => 10 :: List.replicate (width * depth) 32

def word (s : String) : PyStr := pyStr s

mutual

/-- `json.dumps` inside `depth` containers. -/
def dumpsAt (st : Style) (depth : ℕ) : Json → PyStr
  | .null => word "null"
  | .bool true => word "true"
  | .bool false => word "false"
  | .int n => intText n
  | .float .nan => word "NaN"
  | .float (.number negative n le) =>
      if n = infinityAt then signText negative ++ word "Infinity" else floatText negative n le
  | .str s => stringText s
  | .list [] => [openList, closeList]
  | .list (item :: items) =>
      openList :: (st.line (depth + 1) ++ dumpsAt st (depth + 1) item ++
        dumpsItems st (depth + 1) items ++ st.line depth ++ [closeList])
  | .dict [] => [openDict, closeDict]
  | .dict (field :: fields) =>
      openDict :: (st.line (depth + 1) ++ dumpsField st (depth + 1) field ++
        dumpsFields st (depth + 1) fields ++ st.line depth ++ [closeDict])

/-- The items behind the first one. -/
def dumpsItems (st : Style) (depth : ℕ) : List Json → PyStr
  | [] => []
  | item :: items =>
      comma :: (st.afterComma ++ st.line depth ++ dumpsAt st depth item ++
        dumpsItems st depth items)

def dumpsField (st : Style) (depth : ℕ) : PyStr × Json → PyStr
  | (key, value) => stringText key ++ colon :: (st.afterColon ++ dumpsAt st depth value)

/-- The fields behind the first one. -/
def dumpsFields (st : Style) (depth : ℕ) : List (PyStr × Json) → PyStr
  | [] => []
  | field :: fields =>
      comma :: (st.afterComma ++ st.line depth ++ dumpsField st depth field ++
        dumpsFields st depth fields)

end

/-- `json.dumps(value, ensure_ascii=False)` in a style. -/
def dumps (st : Style) (value : Json) : PyStr := dumpsAt st 0 value

-- ============================================================================
-- The decoder
-- ============================================================================

def skipBlanks (s : PyStr) : PyStr := s.dropWhile isBlank

/-- A literal at the start of a text. -/
def readWord (w : String) (value : Json) (s : PyStr) : Option (Json × PyStr) :=
  if (pyStr w).isPrefixOf s then some (value, s.drop (pyStr w).length) else none

/-- A literal or a number. -/
def scanScalar (s : PyStr) : Option (Json × PyStr) :=
  (readWord "null" .null s).orElse fun _ =>
  (readWord "true" (.bool true) s).orElse fun _ =>
  (readWord "false" (.bool false) s).orElse fun _ =>
  (readWord "NaN" (.float .nan) s).orElse fun _ =>
  (readWord "Infinity" (.float (.number false infinityAt le_rfl)) s).orElse fun _ =>
  (readWord "-Infinity" (.float (.number true infinityAt le_rfl)) s).orElse fun _ =>
  (readNumber s).map fun r => (r.1.toJson, r.2)

mutual

/-- `scan_once`, with a bound on the steps. -/
def scanValue : ℕ → PyStr → Option (Json × PyStr)
  | 0, _ => none
  | _, [] => none
  | n + 1, c :: rest =>
      if c = quote then (scanString n rest).map fun r => (.str r.1, r.2)
      else if c = openDict then
        match skipBlanks rest with
        | [] => none
        | d :: rest =>
            if d = closeDict then some (.dict [], rest)
            else (scanFields n (d :: rest)).map fun r =>
              (.dict (r.1.foldl (fun items f => setItem f.1 f.2 items) []), r.2)
      else if c = openList then
        match skipBlanks rest with
        | [] => none
        | d :: rest =>
            if d = closeList then some (.list [], rest)
            else (scanItems n (d :: rest)).map fun r => (.list r.1, r.2)
      else scanScalar (c :: rest)

/-- The items of a list up to its end. -/
def scanItems : ℕ → PyStr → Option (List Json × PyStr)
  | 0, _ => none
  | n + 1, s =>
      match scanValue n s with
      | none => none
      | some (item, s) =>
          match skipBlanks s with
          | [] => none
          | d :: s =>
              if d = closeList then some ([item], s)
              else if d = comma then (scanItems n (skipBlanks s)).map fun r => (item :: r.1, r.2)
              else none

/-- The fields of a dict up to its end. -/
def scanFields : ℕ → PyStr → Option (List (PyStr × Json) × PyStr)
  | 0, _ => none
  | _, [] => none
  | n + 1, c :: s =>
      if c ≠ quote then none
      else
        match scanString n s with
        | none => none
        | some (key, s) =>
            match skipBlanks s with
            | [] => none
            | d :: s =>
                if d ≠ colon then none
                else
                  match scanValue n (skipBlanks s) with
                  | none => none
                  | some (value, s) =>
                      match skipBlanks s with
                      | [] => none
                      | d :: s =>
                          if d = closeDict then some ([(key, value)], s)
                          else if d = comma then
                            (scanFields n (skipBlanks s)).map fun r => ((key, value) :: r.1, r.2)
                          else none

end

/-- `json.loads` -/
def loads (s : PyStr) : Option Json :=
  match scanValue (s.length + 1) (skipBlanks s) with
  | some (value, rest) => if skipBlanks rest = [] then some value else none
  | none => none

end Babycat.Text.Json
