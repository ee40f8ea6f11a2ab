/-
  Babycat.Text.Wildcard

  Patterns with wildcards, over any alphabet.

  A pattern is a list of places: `one p` takes one element that `p` accepts,
  `many` takes any number of elements.  A pattern without `many` matches element
  by element; `many` at both ends makes a pattern that is looked for anywhere
  in the text.
-/

import Mathlib.Data.List.Infix
import Mathlib.Data.List.Forall2

namespace Babycat.Text

universe u v

/-- A place of a pattern. -/
inductive Wild (α : Type u)
  | one (p : α → Bool)
  | many

namespace Wild

variable {α : Type u} {β : Type v}

/-- The pattern takes the whole text. -/
def fits : List (Wild α) → List α → Bool
  | [], s => s.isEmpty
  | one _ :: _, [] => false
  | one p :: ps, c :: s => p c && fits ps s
  | many :: ps, s => s.tails.any (fits ps)

/-- The pattern of a text, whose elements stand for what `r` relates to them. -/
def lits (r : β → α → Bool) (xs : List β) : List (Wild α) := xs.map fun x => one (r x)

@[simp] theorem fits_nil (s : List α) : fits [] s = true ↔ s = [] := by
  simp [fits]

@[simp] theorem fits_one_nil (p : α → Bool) (ps : List (Wild α)) : fits (one p :: ps) [] = false :=
  rfl

@[simp] theorem fits_one_cons (p : α → Bool) (ps : List (Wild α)) (c : α) (s : List α) :
    fits (one p :: ps) (c :: s) = (p c && fits ps s) := rfl

theorem fits_many (ps : List (Wild α)) (s : List α) :
    fits (many :: ps) s = true ↔ ∃ t, t <:+ s ∧ fits ps t = true := by
  rw [fits, List.any_eq_true]
  simp only [List.mem_tails]

/-- A text that fits two patterns in a row is cut in two. -/
theorem fits_append (ps qs : List (Wild α)) (s : List α) :
    fits (ps ++ qs) s = true ↔ ∃ a b, s = a ++ b ∧ fits ps a = true ∧ fits qs b = true := by
  induction ps generalizing s with
  | nil => simp
  | cons w ps ih =>
    cases w with
    | one p =>
      cases s with
      | nil =>
        simp only [List.cons_append, fits_one_nil, Bool.false_eq_true, false_iff]
        rintro ⟨a, b, hab, ha, -⟩
        obtain ⟨rfl, rfl⟩ := List.append_eq_nil_iff.mp hab.symm
        simp at ha
      | cons c s =>
        rw [List.cons_append, fits_one_cons, Bool.and_eq_true, ih]
        constructor
        · rintro ⟨hc, a, b, rfl, ha, hb⟩
          exact ⟨c :: a, b, rfl, by simp [hc, ha], hb⟩
        · rintro ⟨a, b, hab, ha, hb⟩
          cases a with
          | nil => simp at ha
          | cons d a =>
            obtain ⟨rfl, rfl⟩ := List.cons.inj hab
            rw [fits_one_cons, Bool.and_eq_true] at ha
            exact ⟨ha.1, a, b, rfl, ha.2, hb⟩
    | many =>
      rw [List.cons_append, fits_many]
      constructor
      · rintro ⟨t, ⟨pre, rfl⟩, ht⟩
        obtain ⟨a, b, rfl, ha, hb⟩ := (ih t).mp ht
        exact ⟨pre ++ a, b, (List.append_assoc pre a b).symm,
          (fits_many ps _).mpr ⟨a, List.suffix_append _ _, ha⟩, hb⟩
      · rintro ⟨a, b, rfl, ha, hb⟩
        obtain ⟨t, ⟨pre, rfl⟩, ht⟩ := (fits_many ps a).mp ha
        refine ⟨t ++ b, ⟨pre, (List.append_assoc pre t b).symm⟩, (ih _).mpr ⟨t, b, rfl, ht, hb⟩⟩

/-- A pattern without wildcards takes what is related to it element by element. -/
theorem fits_lits (r : β → α → Bool) (xs : List β) (s : List α) :
    fits (lits r xs) s = true ↔ List.Forall₂ (fun x c => r x c = true) xs s := by
  induction xs generalizing s with
  | nil => simp [lits]
  | cons x xs ih =>
    cases s with
    | nil => simp [lits]
    | cons c s =>
      have htail : fits (xs.map fun x => one (r x)) s = true ↔
          List.Forall₂ (fun x c => r x c = true) xs s := ih s
      simp [lits, htail]

/-- Wildcards at both ends: the pattern fits a stretch of the text. -/
theorem fits_infix (ps : List (Wild α)) (s : List α) :
    fits (many :: (ps ++ [many])) s = true ↔ ∃ t, t <:+: s ∧ fits ps t = true := by
  have hany : ∀ b : List α, fits [many] b = true := fun b =>
    (fits_many [] b).mpr ⟨[], List.nil_suffix, rfl⟩
  rw [fits_many]
  constructor
  · rintro ⟨t, ⟨pre, rfl⟩, ht⟩
    obtain ⟨a, b, rfl, ha, -⟩ := (fits_append ps [many] t).mp ht
    exact ⟨a, ⟨pre, b, by rw [List.append_assoc]⟩, ha⟩
  · rintro ⟨t, ⟨pre, post, rfl⟩, ht⟩
    exact ⟨t ++ post, ⟨pre, (List.append_assoc pre t post).symm⟩,
      (fits_append ps [many] _).mpr ⟨t, post, rfl, ht, hany post⟩⟩

end Wild

end Babycat.Text
