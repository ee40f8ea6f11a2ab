/-
  Babycat.Analyzer.Settings

  The analyzer's settings (`settings.py`): prompt, trigger keywords, label
  vocabulary, time-ranged presets and the analysis-active flag.

  The texts are Python strings: a client can put an unpaired surrogate into any
  of them, and the UTF-8 encoder of the settings file then refuses it
  (`Saved.encodable`).
-/

import Babycat.Analyzer.TimeOfDay

namespace Babycat.Analyzer

open Babycat.Text (PyStr pyStr codePoint)

/-- `sub in s`. -/
def isSubstring (sub s : PyStr) : Bool := s.tails.any fun t => sub.isPrefixOf t

/-- A label vocabulary, in insertion order. -/
abbrev Labels := List (PyStr × List PyStr)

/-- A time-ranged preset. -/
structure Preset where
  id : PyStr
  start : PyStr
  stop : PyStr
  prompt : Option PyStr
  labels : Option Labels
  deriving DecidableEq

/-- The range of the preset contains the minute of the day. -/
def Preset.hit (p : Preset) (minutes : ℤ) : Bool :=
  match Settings.parseHhmm p.start, Settings.parseHhmm p.stop with
  | some start, some stop =>
      if start = stop then false
      else if start < stop then decide (start ≤ minutes ∧ minutes < stop)
      else decide (start ≤ minutes ∨ minutes < stop)
  | _, _ => false

/-- `resolve_preset`. -/
def resolvePreset (presets : List Preset) (minutes : ℤ) : Option Preset :=
  presets.find? fun p => p.hit minutes

/-- What `save` writes and `load` returns. -/
structure Saved where
  prompt : PyStr
  keywords : List PyStr
  labels : Labels
  presets : List Preset
  analysisActive : Bool
  deriving DecidableEq

/-! ## The encoder of the settings file -/

def encodableLabels (labels : Labels) : Bool :=
  labels.all fun group => Text.encodable group.1 && group.2.all Text.encodable

def Preset.encodable (p : Preset) : Bool :=
  Text.encodable p.id && Text.encodable p.start && Text.encodable p.stop &&
    p.prompt.all Text.encodable && p.labels.all encodableLabels

/-- `json.dump` into the file raises nothing: `ensure_ascii` is off, so every text has to be
    encoded. -/
def Saved.encodable (saved : Saved) : Bool :=
  Text.encodable saved.prompt && saved.keywords.all Text.encodable &&
    encodableLabels saved.labels && saved.presets.all Preset.encodable

end Babycat.Analyzer
