/-
  Babycat.Text.Repr

  `str(value)` of a decoded JSON value: the string itself, and `repr` of
  everything else.

  A code point outside ASCII is escaped unless it is printable, a property of
  Unicode that the results hold for whatever it is.
-/

import Babycat.Text.JsonText

namespace Babycat.Text.Json

/-- `digits` hexadecimal digits of a number. -/
def hexText (digits n : ℕ) : PyStr :=
  (List.range digits).reverse.map fun k => codePoint (n / 16 ^ k % 16).digitChar

/-- A code point inside the quotation marks of `repr`. -/
def reprPoint (printable : CodePoint → Bool) (mark c : CodePoint) : PyStr :=
  if c = mark || c = backslash then [backslash, c]
  else if c = codePoint '\t' then [backslash, codePoint 't']
  else if c = codePoint '\n' then [backslash, codePoint 'n']
  else if c = codePoint '\r' then [backslash, codePoint 'r']
  else if c.val < 32 || c.val = 127 then [backslash, codePoint 'x'] ++ hexText 2 c.val
  else if c.val < 127 || printable c then [c]
  else if c.val < 0x100 then [backslash, codePoint 'x'] ++ hexText 2 c.val
  else if c.val < 0x10000 then [backslash, codePoint 'u'] ++ hexText 4 c.val
  else [backslash, codePoint 'U'] ++ hexText 8 c.val

/-- `repr` of a string: in apostrophes, or in quotation marks if it has apostrophes only. -/
def reprStr (printable : CodePoint → Bool) (s : PyStr) : PyStr :=
  let apostrophe := codePoint '\''
  let mark := if s.contains apostrophe && !s.contains quote then quote else apostrophe
  mark :: (s.flatMap (reprPoint printable mark) ++ [mark])

mutual

/-- `repr` -/
def repr (printable : CodePoint → Bool) : Json → PyStr
  | .null => word "None"
  | .bool true => word "True"
  | .bool false => word "False"
  | .int n => intText n
  | .float .nan => word "nan"
  | .float (.number negative n le) =>
      if n = infinityAt then signText negative ++ word "inf" else floatText negative n le
  | .str s => reprStr printable s
  | .list [] => word "[]"
  | .list (item :: items) =>
      openList :: (repr printable item ++ reprItems printable items ++ [closeList])
  | .dict [] => [openDict, closeDict]
  | .dict (field :: fields) =>
      openDict :: (reprField printable field ++ reprFields printable fields ++ [closeDict])

/-- The items behind the first one. -/
def reprItems (printable : CodePoint → Bool) : List Json → PyStr
  | [] => []
  | item :: items => word ", " ++ repr printable item ++ reprItems printable items

def reprField (printable : CodePoint → Bool) : PyStr × Json → PyStr
  | (key, value) => reprStr printable key ++ word ": " ++ repr printable value

/-- The fields behind the first one. -/
def reprFields (printable : CodePoint → Bool) : List (PyStr × Json) → PyStr
  | [] => []
  | field :: fields => word ", " ++ reprField printable field ++ reprFields printable fields

end

/-- `str` -/
def strOf (printable : CodePoint → Bool) : Json → PyStr
  | .str s => s
  | value => repr printable value

end Babycat.Text.Json
