/-
  Babycat.Text.Json

  JSON values as Python holds them: `None`, `bool`, `int`, `float`, `str`,
  `list` and `dict`.

  A `dict` is the list of its items in the order of insertion.  `WellFormed`
  says that its keys are distinct, as `json.loads` leaves them.
-/

import Babycat.Text.Double
import Babycat.Text.PyStr

namespace Babycat.Text

/-- A decoded JSON value. -/
inductive Json
  | null
  | bool (b : Bool)
  | int (n : ℤ)
  | float (x : Double)
  | str (s : PyStr)
  | list (items : List Json)
  | dict (items : List (PyStr × Json))

namespace Json

/-- `d.get(key)` -/
def get (items : List (PyStr × Json)) (key : PyStr) : Json := (items.lookup key).getD .null

theorem get_nil (key : PyStr) : get [] key = .null := rfl

theorem get_cons (k : PyStr) (v : Json) (items : List (PyStr × Json)) (key : PyStr) :
    get ((k, v) :: items) key = if key = k then v else get items key := by
  rw [get, get, List.lookup_cons]
  by_cases h : key = k
  · rw [if_pos h, beq_iff_eq.mpr h]
    rfl
  · rw [if_neg h, beq_eq_false_iff_ne.mpr h]

/-- `key in d` -/
def has (items : List (PyStr × Json)) (key : PyStr) : Bool := (items.lookup key).isSome

theorem has_nil (key : PyStr) : has [] key = false := rfl

theorem has_cons (k : PyStr) (v : Json) (items : List (PyStr × Json)) (key : PyStr) :
    has ((k, v) :: items) key = (decide (key = k) || has items key) := by
  rw [has, has, List.lookup_cons]
  by_cases h : key = k
  · rw [beq_iff_eq.mpr h, decide_eq_true h, Bool.true_or]
    rfl
  · rw [beq_eq_false_iff_ne.mpr h, decide_eq_false h, Bool.false_or]

/-- `d[key] = value` -/
def setItem {α : Type} (key : PyStr) (value : α) : List (PyStr × α) → List (PyStr × α)
  | [] => [(key, value)]
  | (k, v) :: items => if k = key then (k, value) :: items else (k, v) :: setItem key value items

/-- `d.get(key, default)` -/
def getOr (items : List (PyStr × Json)) (key : String) (default : Json) : Json :=
  if has items (pyStr key) then get items (pyStr key) else default

/-- `bool(value)` -/
def truthy : Json → Bool
  | .null => false
  | .bool b => b
  | .int n => n != 0
  | .float .nan => true
  | .float (.number _ n _) => n != 0
  | .str s => s != []
  | .list items => !items.isEmpty
  | .dict items => !items.isEmpty

end Json

end Babycat.Text
