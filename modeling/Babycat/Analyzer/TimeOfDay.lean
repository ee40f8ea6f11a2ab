/-
  Babycat.Analyzer.TimeOfDay

  The times of the presets (`settings.py`, `_parse_hhmm`).

  `int` is what `_parse_hhmm` accepts for the hours and the minutes: a sign, up
  to 4300 decimal digits of any script with single underscores between them,
  blanks around.
-/

import Babycat.Text.PyStr
import Mathlib.Data.List.SplitOn

namespace Babycat.Settings

open Babycat.Text

/-- `unicodedata.decimal`. -/
def decimal (c : CodePoint) : Option ℕ :=
  (decimalZeros.find? fun z => z ≤ c.val && c.val < z + 10).map (c.val - ·)

def underscore : CodePoint := codePoint '_'

/-- Digits with single underscores between them, read from the left. -/
def digits (acc : ℕ) : PyStr → Option ℕ
  | [] => some acc
  | [c] => (decimal c).map fun d => 10 * acc + d
  | c :: next :: cs =>
      if c = underscore then
        match decimal next with
        | some d => digits (10 * acc + d) cs
        | none => none
      else
        match decimal c with
        | some d => digits (10 * acc + d) (next :: cs)
        | none => none

/-- The most digits that `int` takes. -/
def maxStrDigits : ℕ := 4300

/-- An unsigned literal: it starts with a digit, and has not too many. -/
def natLiteral : PyStr → Option ℕ
  | [] => none
  | c :: cs =>
      if maxStrDigits < ((c :: cs).filter (· != underscore)).length then none
      else (decimal c).bind fun d => digits d cs

/-- The blanks that `int` skips: unlike `str.strip` not the separators U+001C to U+001F. -/
def isIntBlank (c : CodePoint) : Bool := isSpace c && !(0x1C ≤ c.val && c.val ≤ 0x1F)

/-- `int(text)` -/
def int (text : PyStr) : Option ℤ :=
  match stripBy isIntBlank text with
  | [] => none
  | c :: cs =>
      if c = codePoint '-' then (natLiteral cs).map fun n => -(n : ℤ)
      else if c = codePoint '+' then (natLiteral cs).map fun n => (n : ℤ)
      else (natLiteral (c :: cs)).map fun n => (n : ℤ)

/-- `_parse_hhmm`: minutes since midnight, or `none` when malformed. -/
def parseHhmm (value : PyStr) : Option ℤ :=
  match value.splitOn (codePoint ':') with
  | [hours, minutes] =>
      match int hours, int minutes with
      | some h, some m => if 0 ≤ h ∧ h ≤ 23 ∧ 0 ≤ m ∧ m ≤ 59 then some (h * 60 + m) else none
      | _, _ => none
  | _ => none

end Babycat.Settings
