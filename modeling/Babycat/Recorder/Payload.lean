/-
  Babycat.Recorder.Payload

  The JSON body of a notification, and the Python values that the recorder
  makes of it.
-/

import Mathlib.Algebra.Order.Field.Rat

namespace Babycat.Recorder

/-- A Python float; the finite ones are exact. -/
inductive PyFloat
  | finite (q : ℚ)
  | infinite (negative : Bool)
  | nan
  deriving DecidableEq

namespace PyFloat

def sub : PyFloat → PyFloat → PyFloat
  | .finite a, .finite b => .finite (a - b)
  | .finite _, .infinite negative => .infinite !negative
  | .infinite negative, .finite _ => .infinite negative
  | .infinite negative, .infinite other => if negative = other then .nan else .infinite negative
  | .nan, _ | _, .nan => .nan

/-- `x < c`: nothing holds of `nan`. -/
def lt (c : ℚ) : PyFloat → Bool
  | .finite a => decide (a < c)
  | .infinite negative => negative
  | .nan => false

def isFinite : PyFloat → Bool
  | .finite _ => true
  | _ => false

end PyFloat

/-- A decoded JSON value; the decoder takes `Infinity` and `NaN`. -/
inductive Json
  | null
  | bool (b : Bool)
  | int (n : ℤ)
  | float (x : PyFloat)
  | str (s : String)
  | list (items : List Json)
  | dict (items : List (String × Json))

namespace Json

/-- The truth value of Python. -/
def truthy : Json → Bool
  | .null => false
  | .bool b => b
  | .int n => n != 0
  | .float x => x != .finite 0
  | .str s => s != ""
  | .list items => !items.isEmpty
  | .dict items => !items.isEmpty

/-- What a loop over the value goes through; `none` is a `TypeError`. -/
def iterate : Json → Option (List Json)
  | .str s => some (s.toList.map fun c => .str c.toString)
  | .list items => some items
  | .dict items => some (items.map fun item => .str item.1)
  | _ => none

end Json

/-- The object in the body of `/notify`. -/
abbrev Payload := List (String × Json)

/-- `payload.get(key)`. -/
def Payload.get (p : Payload) (key : String) : Json := (p.lookup key).getD .null

end Babycat.Recorder
