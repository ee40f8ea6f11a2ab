/-
  Babycat.Text.Like

  The `LIKE` operator of SQL as SQLite has it: `%` takes any characters, `_` one
  character, and letters of ASCII are compared without their case.
-/

import Babycat.Text.Wildcard

namespace Babycat.Text

/-- What a character of the pattern takes. -/
def likePlace (c : Char) : Wild Char :=
  if c = '%' then .many
  else if c = '_' then .one fun _ => true
  else .one fun d => d.toLower == c.toLower

/-- `text LIKE pattern` -/
def like (pattern text : List Char) : Bool := Wild.fits (pattern.map likePlace) text

/-- A text without its case, as far as it is in ASCII. -/
def foldCase (s : List Char) : List Char := s.map Char.toLower

/-- Every character of the pattern stands for itself. -/
def PlainPattern (pattern : List Char) : Prop := '%' ∉ pattern ∧ '_' ∉ pattern

theorem like_infix (pattern text : List Char) :
    like ('%' :: (pattern ++ ['%'])) text = true ↔
      ∃ t, t <:+: text ∧ like pattern t = true := by
  rw [like, List.map_cons, List.map_append]
  exact Wild.fits_infix (pattern.map likePlace) text

theorem like_append (p q text : List Char) :
    like (p ++ q) text = true ↔
      ∃ a b, text = a ++ b ∧ like p a = true ∧ like q b = true := by
  rw [like, List.map_append]
  exact Wild.fits_append _ _ text

/-- A text is like itself, whatever wildcards are in it. -/
theorem like_self (text : List Char) : like text text = true := by
  induction text with
  | nil => rfl
  | cons c text ih =>
    rw [like, List.map_cons, likePlace]
    split
    · exact (Wild.fits_many _ _).mpr ⟨text, List.suffix_cons c text, ih⟩
    · split
      · rw [Wild.fits_one_cons, Bool.true_and]
        exact ih
      · rw [Wild.fits_one_cons, beq_self_eq_true, Bool.true_and]
        exact ih

/-- Without wildcards, `LIKE` compares the texts without their case. -/
theorem like_plain {pattern text : List Char} (h : PlainPattern pattern) :
    like pattern text = true ↔ foldCase text = foldCase pattern := by
  induction pattern generalizing text with
  | nil => simp [like, foldCase]
  | cons c pattern ih =>
    obtain ⟨hpercent, hunder⟩ := h
    have hc : likePlace c = .one fun d => d.toLower == c.toLower := by
      have hc : c ≠ '%' := fun heq => hpercent (heq ▸ List.mem_cons_self)
      have hc' : c ≠ '_' := fun heq => hunder (heq ▸ List.mem_cons_self)
      rw [likePlace, if_neg hc, if_neg hc']
    have hrest : PlainPattern pattern :=
      ⟨fun hmem => hpercent (List.mem_cons_of_mem c hmem),
        fun hmem => hunder (List.mem_cons_of_mem c hmem)⟩
    cases text with
    | nil => simp [like, hc, foldCase]
    | cons d text =>
      have htail : Wild.fits (pattern.map likePlace) text = true ↔
          foldCase text = foldCase pattern := ih hrest
      rw [like, List.map_cons, hc, Wild.fits_one_cons, Bool.and_eq_true, htail, beq_iff_eq]
      exact List.cons_eq_cons.symm

/-- A character that is no wildcard and no letter. -/
theorem like_singleton {c : Char} {text : List Char} (h : PlainPattern [c])
    (hcase : ∀ d : Char, d.toLower = c.toLower → d = c) :
    like [c] text = true ↔ text = [c] := by
  rw [like_plain h]
  constructor
  · intro hfold
    cases text with
    | nil => cases hfold
    | cons d text =>
      obtain ⟨hd, hrest⟩ := List.cons.inj hfold
      rw [hcase d hd, List.map_eq_nil_iff.mp hrest]
  · rintro rfl
    rfl

end Babycat.Text
