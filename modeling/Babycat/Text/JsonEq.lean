/-
  Babycat.Text.JsonEq

  `==` between decoded JSON values.

  Numbers are equal by value, `True` and `1` and `1.0` alike; dicts whatever
  their order.  A value without a NaN equals itself (`equal_refl`).  A NaN
  equals none, except that lists and dicts take the very same object for equal,
  which is left out here.
-/

import Babycat.Text.JsonWellFormed

namespace Babycat.Text.Json

-- ============================================================================
-- Equality
-- ============================================================================

/-- One in units of the smallest float. -/
def unitsPerOne : ℕ := 2 ^ 1074

/-- The value of a number. -/
inductive NumberValue
  | finite (amount : ℤ)
  | infinite (negative : Bool)
  deriving DecidableEq

/-- The value of a number in units; none for a NaN and for what is no number. -/
def numberValue : Json → Option NumberValue
  | .bool b => some (.finite (b.toNat * unitsPerOne))
  | .int n => some (.finite (n * unitsPerOne))
  | .float (.number negative n _) =>
      if n = infinityAt then some (.infinite negative)
      else some (.finite (if negative then -(units n) else units n))
  | _ => none

def equalNumbers (a b : Json) : Bool :=
  (numberValue a).isSome && decide (numberValue a = numberValue b)

mutual

/-- `a == b` -/
def equal : Json → Json → Bool
  | .null, .null => true
  | .str s, .str t => decide (s = t)
  | .list items, .list others => equalItems items others
  | .dict fields, .dict others => fields.length == others.length && equalFields fields others
  | a, b => equalNumbers a b

def equalItems : List Json → List Json → Bool
  | [], [] => true
  | item :: items, other :: others => equal item other && equalItems items others
  | _, _ => false

/-- Each field is in the other dict, with an equal value. -/
def equalFields : List (PyStr × Json) → List (PyStr × Json) → Bool
  | [], _ => true
  | field :: fields, others =>
      (match others.lookup field.1 with
        | some value => equal field.2 value
        | none => false) && equalFields fields others

end

-- ============================================================================
-- Without a NaN
-- ============================================================================

def noNan : Json → Bool
  | .float .nan => false
  | _ => true

/-- No NaN anywhere in the value. -/
def NoNan (j : Json) : Prop := all noNan j = true

instance (j : Json) : Decidable (NoNan j) := inferInstanceAs (Decidable (_ = true))

section Refl

theorem noNan_list {items : List Json} : NoNan (.list items) ↔ ∀ x ∈ items, NoNan x :=
  (all_list items).trans (and_iff_right rfl)

theorem noNan_dict {items : List (PyStr × Json)} :
    NoNan (.dict items) ↔ ∀ f ∈ items, NoNan f.2 :=
  (all_dict items).trans (and_iff_right rfl)

theorem lookup_of_mem {items : List (PyStr × Json)} (hkeys : (items.map Prod.fst).Nodup)
    {f : PyStr × Json} (hf : f ∈ items) : items.lookup f.1 = some f.2 := by
  induction items with
  | nil => cases hf
  | cons g items ih =>
    obtain ⟨k, v⟩ := g
    obtain ⟨hnew, hkeys⟩ := List.nodup_cons.mp hkeys
    rw [List.lookup_cons]
    rcases List.mem_cons.mp hf with rfl | hf
    · rw [beq_self_eq_true]
    · have hne : f.1 ≠ k := fun heq => hnew (List.mem_map.mpr ⟨f, hf, heq⟩)
      rw [beq_eq_false_iff_ne.mpr hne]
      exact ih hkeys hf

theorem equalItems_refl {items : List Json} (h : ∀ x ∈ items, equal x x = true) :
    equalItems items items = true := by
  induction items with
  | nil => rw [equalItems]
  | cons item items ih =>
    rw [List.forall_mem_cons] at h
    rw [equalItems, h.1, ih h.2]
    rfl

theorem equalFields_of_lookup {fields others : List (PyStr × Json)}
    (hlookup : ∀ f ∈ fields, others.lookup f.1 = some f.2)
    (h : ∀ f ∈ fields, equal f.2 f.2 = true) : equalFields fields others = true := by
  induction fields with
  | nil => rw [equalFields]
  | cons f fields ih =>
    rw [List.forall_mem_cons] at hlookup h
    rw [equalFields, hlookup.1, ih hlookup.2 h.2]
    exact (Bool.and_true _).trans h.1

theorem equalNumbers_refl {j : Json} (h : (numberValue j).isSome = true) :
    equalNumbers j j = true := by
  rw [equalNumbers, h, decide_eq_true rfl]
  rfl

/-- A value that the decoder yields, without a NaN, equals itself. -/
theorem equal_refl {j : Json} (h : WellFormed j) (hnan : NoNan j) : equal j j = true := by
  induction j using items_induction with
  | null => rw [equal]
  | bool b => exact equalNumbers_refl rfl
  | int n => exact equalNumbers_refl rfl
  | float x =>
    cases x with
    | nan => cases hnan
    | number negative n le =>
      refine equalNumbers_refl ?_
      rw [numberValue]
      split_ifs <;> rfl
  | str s =>
    rw [equal]
    exact decide_eq_true rfl
  | list items ih =>
    rw [wellFormed_list] at h
    rw [noNan_list] at hnan
    rw [equal]
    exact equalItems_refl fun x hx => ih x hx (h x hx) (hnan x hx)
  | dict items ih =>
    rw [wellFormed_dict] at h
    rw [noNan_dict] at hnan
    rw [equal, beq_self_eq_true, Bool.true_and]
    exact equalFields_of_lookup (fun f hf => lookup_of_mem h.1 hf)
      fun f hf => ih f hf (h.2 f hf) (hnan f hf)

end Refl

end Babycat.Text.Json
