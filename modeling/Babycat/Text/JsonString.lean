/-
  Babycat.Text.JsonString

  Strings in JSON, as `json.dumps` writes them without `ensure_ascii`.

  The escape of a character is read back by `unescape`, so the body of a string
  ends at the first quotation mark that is not escaped (`escapeText_unique`),
  and a quotation mark inside it is that of the text (`quote_in_escapeText`).
-/

import Mathlib.Data.List.Infix
import Mathlib.Data.Nat.Notation

namespace Babycat.Text

/-- The characters with a short escape. -/
def escapeTable : List (Char × Char) :=
  [('\\', '\\'), ('"', '"'), ('\x08', 'b'), ('\x0c', 'f'), ('\n', 'n'), ('\r', 'r'), ('\t', 't')]

/-- The escape of a character of a string. -/
def escape (c : Char) : List Char :=
  match escapeTable.lookup c with
  | some letter => ['\\', letter]
  | none =>
      if c.toNat < 32 then
        ['\\', 'u', '0', '0', (c.toNat / 16).digitChar, (c.toNat % 16).digitChar]
      else [c]

def escapeText (s : List Char) : List Char := s.flatMap escape

/-- `json.dumps` of a string. -/
def jsonString (s : List Char) : List Char := '"' :: (escapeText s ++ ['"'])

/-- The strings of a list behind the first one, and the end of the list. -/
def jsonRest : List (List Char) → List Char
  | [] => [']']
  | s :: rest => ',' :: ' ' :: (jsonString s ++ jsonRest rest)

/-- `json.dumps` of a list of strings. -/
def jsonArray : List (List Char) → List Char
  | [] => ['[', ']']
  | s :: rest => '[' :: (jsonString s ++ jsonRest rest)

-- ============================================================================
-- Reading an escape
-- ============================================================================

/-- The value of a hexadecimal digit. -/
def hexValue (c : Char) : ℕ := if c.toNat < 58 then c.toNat - 48 else c.toNat - 87

/-- The first character of the body of a string, and the rest of the text. -/
def unescape : List Char → Option (Char × List Char)
  | '\\' :: 'u' :: _ :: _ :: high :: low :: s =>
      some (Char.ofNat (16 * hexValue high + hexValue low), s)
  | '\\' :: letter :: s => (escapeTable.find? fun e => e.2 == letter).map fun e => (e.1, s)
  | '"' :: _ => none
  | c :: s => some (c, s)
  | [] => none

/-- The three kinds of characters. -/
theorem escape_cases (c : Char) :
    (∃ letter, (c, letter) ∈ escapeTable ∧ escape c = ['\\', letter]) ∨
    (c.toNat < 32 ∧
      escape c = ['\\', 'u', '0', '0', (c.toNat / 16).digitChar, (c.toNat % 16).digitChar]) ∨
    (c ≠ '"' ∧ c ≠ '\\' ∧ escape c = [c]) := by
  unfold escape
  cases h : escapeTable.lookup c with
  | some letter =>
    obtain ⟨a, b, heq, -⟩ := List.lookup_eq_some_iff.mp h
    exact .inl ⟨letter, heq ▸ List.mem_append_right a List.mem_cons_self, rfl⟩
  | none =>
    have habsent := List.lookup_eq_none_iff.mp h
    by_cases hlow : c.toNat < 32
    · exact .inr (.inl ⟨hlow, if_pos hlow⟩)
    · refine .inr (.inr ⟨?_, ?_, if_neg hlow⟩)
      · rintro rfl
        exact absurd (habsent ('"', '"') (by decide)) (by decide)
      · rintro rfl
        exact absurd (habsent ('\\', '\\') (by decide)) (by decide)

theorem unescape_escape (c : Char) (s : List Char) : unescape (escape c ++ s) = some (c, s) := by
  obtain ⟨letter, hmem, heq⟩ | ⟨hlow, heq⟩ | ⟨hquote, hback, heq⟩ := escape_cases c
  · have htable : ∀ e ∈ escapeTable, e.2 ≠ 'u' ∧
        (escapeTable.find? fun e' => e'.2 == e.2) = some e := by decide
    obtain ⟨hletter, hfind⟩ := htable _ hmem
    rw [heq]
    simp [unescape, hletter, hfind]
  · have hhex : ∀ n < 32, Char.ofNat (16 * hexValue (n / 16).digitChar +
        hexValue (n % 16).digitChar) = Char.ofNat n := by decide
    have hc := hhex c.toNat hlow
    rw [Char.ofNat_toNat] at hc
    rw [heq]
    simp only [List.cons_append, List.nil_append, unescape, hc]
  · rw [heq]
    simp [unescape, hback]

theorem escape_prefix_unique {c d : Char} {s t : List Char}
    (h : escape c ++ s = escape d ++ t) : c = d ∧ s = t := by
  have hread := (unescape_escape c s).symm.trans ((congrArg unescape h).trans (unescape_escape d t))
  exact Prod.mk.inj (Option.some.inj hread)

/-- An escape does not start with a quotation mark. -/
theorem escape_ne_quote {c : Char} {s t : List Char} : escape c ++ s ≠ '"' :: t := by
  intro h
  have hread := (unescape_escape c s).symm.trans (congrArg unescape h)
  cases hread

/-- The body of a string ends at the first quotation mark that is not escaped. -/
theorem escapeText_unique {s t x y : List Char}
    (h : escapeText s ++ '"' :: x = escapeText t ++ '"' :: y) : s = t ∧ x = y := by
  induction s generalizing t with
  | nil =>
    cases t with
    | nil => exact ⟨rfl, (List.cons.inj h).2⟩
    | cons d t =>
      rw [escapeText, List.flatMap_nil, escapeText, List.flatMap_cons, List.append_assoc] at h
      exact absurd h.symm escape_ne_quote
  | cons c s ih =>
    rw [escapeText, List.flatMap_cons, List.append_assoc] at h
    cases t with
    | nil => exact absurd h escape_ne_quote
    | cons d t =>
      rw [escapeText, List.flatMap_cons, List.append_assoc] at h
      obtain ⟨rfl, hrest⟩ := escape_prefix_unique h
      obtain ⟨rfl, rfl⟩ := ih hrest
      exact ⟨rfl, rfl⟩

/-- The escape of no other character has a quotation mark. -/
theorem quote_in_escape {c : Char} {a b : List Char} (h : escape c = a ++ '"' :: b) :
    c = '"' ∧ b = [] := by
  have hmem : '"' ∈ escape c := h ▸ List.mem_append_right a List.mem_cons_self
  have hc : c = '"' := by
    obtain ⟨letter, htable, heq⟩ | ⟨hlow, heq⟩ | ⟨hquote, -, heq⟩ := escape_cases c
    · have hall : ∀ e ∈ escapeTable, '"' ∈ ['\\', e.2] → e.1 = '"' := by decide
      exact hall _ htable (heq ▸ hmem)
    · have hhex : ∀ n < 32, '"' ∉
          ['\\', 'u', '0', '0', (n / 16).digitChar, (n % 16).digitChar] := by decide
      exact absurd (heq ▸ hmem) (hhex c.toNat hlow)
    · rw [heq, List.mem_singleton] at hmem
      exact absurd hmem.symm hquote
  refine ⟨hc, ?_⟩
  have hlen := congrArg List.length h
  rw [hc] at h
  cases a with
  | nil => exact absurd (List.cons.inj h).1 (by decide)
  | cons d a =>
    rw [hc, List.length_append, List.length_cons, List.length_cons] at hlen
    have htwo : (escape '"').length = 2 := by decide
    exact List.eq_nil_of_length_eq_zero (by omega)

/-- A quotation mark in the body of a string is one of the text. -/
theorem quote_in_escapeText {s a b : List Char} (h : escapeText s = a ++ '"' :: b) :
    ∃ x y, s = x ++ '"' :: y ∧ b = escapeText y := by
  induction s generalizing a with
  | nil => simp [escapeText] at h
  | cons c s ih =>
    rw [escapeText, List.flatMap_cons] at h
    rcases List.append_eq_append_iff.mp h with ⟨a', rfl, hrest⟩ | ⟨b', hc, hb⟩
    · obtain ⟨x, y, rfl, hy⟩ := ih hrest
      exact ⟨c :: x, y, rfl, hy⟩
    · cases b' with
      | nil =>
        obtain ⟨x, y, rfl, hy⟩ := ih (a := []) hb.symm
        exact ⟨c :: x, y, rfl, hy⟩
      | cons d b' =>
        obtain ⟨rfl, rfl⟩ := List.cons.inj hb
        obtain ⟨rfl, rfl⟩ := quote_in_escape hc
        exact ⟨[], s, rfl, rfl⟩

-- ============================================================================
-- Where a string stands in a list
-- ============================================================================

/-- `u` stands between two quotation marks of the text. -/
def Quoted (text u : List Char) : Prop := '"' :: (u ++ ['"']) <:+: text

/-- The closing quotation mark of a string is followed by a comma and the next string. -/
theorem closing_quote {t post : List Char} {rest : List (List Char)}
    (h : escapeText t ++ '"' :: post = jsonRest rest) : t = [',', ' '] ∧ rest ≠ [] := by
  cases rest with
  | nil =>
    have hmem : '"' ∈ jsonRest [] := h ▸ List.mem_append_right _ List.mem_cons_self
    exact absurd hmem (by decide)
  | cons s rest =>
    have hsep : jsonRest (s :: rest) =
        escapeText [',', ' '] ++ '"' :: (escapeText s ++ ['"'] ++ jsonRest rest) := rfl
    rw [hsep] at h
    exact ⟨(escapeText_unique h).1, List.cons_ne_nil s rest⟩

/-- A quotation mark in front of an escaped text: it is inside the first string, it ends it, or it
    comes later. -/
theorem quote_in_string {s t pre post : List Char} {rest : List (List Char)}
    (h : pre ++ '"' :: (escapeText t ++ '"' :: post) = jsonString s ++ jsonRest rest) :
    '"' :: t <:+ '"' :: s ∨ (t = [',', ' '] ∧ rest ≠ []) ∨
      ∃ pre', jsonRest rest = pre' ++ '"' :: (escapeText t ++ '"' :: post) := by
  have hbody : pre ++ '"' :: (escapeText t ++ '"' :: post) =
      '"' :: (escapeText s ++ '"' :: jsonRest rest) := by
    rw [h, jsonString, List.cons_append, List.append_assoc]
    rfl
  cases pre with
  | nil =>
    obtain ⟨rfl, -⟩ := escapeText_unique (List.cons.inj hbody).2
    exact .inl (List.suffix_refl _)
  | cons c pre =>
    have hrest := (List.cons.inj hbody).2
    rcases List.append_eq_append_iff.mp hrest with ⟨a, hs, htail⟩ | ⟨b, hpre, htail⟩
    · cases a with
      | nil => exact .inr (.inl (closing_quote (List.cons.inj htail).2))
      | cons d a =>
        obtain ⟨rfl, htail'⟩ := List.cons.inj htail
        obtain ⟨x, y, rfl, rfl⟩ := quote_in_escapeText hs
        obtain ⟨rfl, -⟩ := escapeText_unique htail'
        exact .inl ((List.suffix_append x _).trans (List.suffix_cons _ _))
    · cases b with
      | nil => exact .inr (.inl (closing_quote (List.cons.inj htail).2.symm))
      | cons d b => exact .inr (.inr ⟨b, (List.cons.inj htail).2⟩)

/-- Neither the comma nor the blank is a quotation mark. -/
theorem quote_behind_separator {s x pre : List Char} {rest : List (List Char)}
    (h : jsonRest (s :: rest) = pre ++ '"' :: x) :
    ∃ pre', jsonString s ++ jsonRest rest = pre' ++ '"' :: x := by
  rw [jsonRest] at h
  cases pre with
  | nil => exact absurd (List.cons.inj h).1 (by decide)
  | cons c pre =>
    have h := (List.cons.inj h).2
    cases pre with
    | nil => exact absurd (List.cons.inj h).1 (by decide)
    | cons d pre => exact ⟨pre, (List.cons.inj h).2⟩

/-- The quotation marks of a list of strings. -/
theorem quote_in_strings {s t pre post : List Char} {rest : List (List Char)}
    (h : pre ++ '"' :: (escapeText t ++ '"' :: post) = jsonString s ++ jsonRest rest) :
    (∃ l ∈ s :: rest, '"' :: t <:+ '"' :: l) ∨ t = [',', ' '] ∧ rest ≠ [] := by
  induction rest generalizing s pre with
  | nil =>
    rcases quote_in_string h with hin | hend | ⟨pre', hlater⟩
    · exact .inl ⟨s, List.mem_cons_self, hin⟩
    · exact .inr hend
    · have hmem : '"' ∈ jsonRest [] := hlater ▸ List.mem_append_right pre' List.mem_cons_self
      exact absurd hmem (by decide)
  | cons s' rest ih =>
    rcases quote_in_string h with hin | hend | ⟨pre', hlater⟩
    · exact .inl ⟨s, List.mem_cons_self, hin⟩
    · exact .inr hend
    · obtain ⟨pre, hnext⟩ := quote_behind_separator hlater
      rcases ih hnext.symm with ⟨l, hl, hsuffix⟩ | ⟨hsep, -⟩
      · exact .inl ⟨l, List.mem_cons_of_mem s hl, hsuffix⟩
      · exact .inr ⟨hsep, List.cons_ne_nil s' rest⟩

theorem escapeText_append (s t : List Char) :
    escapeText (s ++ t) = escapeText s ++ escapeText t := List.flatMap_append

/-- A string stands at the end of every string that ends in it behind a quotation mark. -/
theorem quoted_of_suffix {t l : List Char} (h : '"' :: t <:+ '"' :: l) :
    Quoted (jsonString l) (escapeText t) := by
  rcases List.suffix_cons_iff.mp h with heq | ⟨x, rfl⟩
  · rw [(List.cons.inj heq).2]
    exact List.infix_rfl
  · refine ⟨'"' :: (escapeText x ++ ['\\']), [], ?_⟩
    have hquote : escapeText ('"' :: t) = '\\' :: '"' :: escapeText t := rfl
    simp [jsonString, escapeText_append, hquote]

theorem jsonString_inside_rest {l : List Char} {rest : List (List Char)} (h : l ∈ rest) :
    jsonString l <:+: jsonRest rest := by
  induction rest with
  | nil => cases h
  | cons s rest ih =>
    rw [jsonRest]
    rcases List.mem_cons.mp h with rfl | h
    · exact ⟨[',', ' '], jsonRest rest, rfl⟩
    · exact (ih h).trans ⟨',' :: ' ' :: jsonString s, [], by simp⟩

theorem jsonString_inside {l : List Char} {ls : List (List Char)} (h : l ∈ ls) :
    jsonString l <:+: jsonArray ls := by
  cases ls with
  | nil => cases h
  | cons s rest =>
    rw [jsonArray]
    rcases List.mem_cons.mp h with rfl | h
    · exact ⟨['['], jsonRest rest, rfl⟩
    · exact (jsonString_inside_rest h).trans ⟨'[' :: jsonString s, [], by simp⟩

/-- A string stands between quotation marks of a list when it is one of the list, stands behind a
    quotation mark at the end of one, or is what separates two. -/
theorem quoted_escapeText {t : List Char} {ls : List (List Char)} :
    Quoted (jsonArray ls) (escapeText t) ↔
      (∃ l ∈ ls, '"' :: t <:+ '"' :: l) ∨ t = [',', ' '] ∧ 2 ≤ ls.length := by
  constructor
  · rintro ⟨pre, post, h⟩
    cases ls with
    | nil =>
      have hmem : '"' ∈ jsonArray [] := h ▸ List.mem_append_left post
        (List.mem_append_right pre List.mem_cons_self)
      exact absurd hmem (by decide)
    | cons s rest =>
      have h' : pre ++ '"' :: (escapeText t ++ '"' :: post) =
          '[' :: (jsonString s ++ jsonRest rest) := by
        rw [← jsonArray, ← h]
        simp
      cases pre with
      | nil => exact absurd (List.cons.inj h').1 (by decide)
      | cons c pre =>
        rcases quote_in_strings (List.cons.inj h').2 with hin | ⟨hsep, hrest⟩
        · exact .inl hin
        · have := List.length_pos_iff.mpr hrest
          exact .inr ⟨hsep, by rw [List.length_cons]; omega⟩
  · rintro (⟨l, hl, hsuffix⟩ | ⟨rfl, htwo⟩)
    · exact (quoted_of_suffix hsuffix).trans (jsonString_inside hl)
    · obtain ⟨s, s', rest, rfl⟩ : ∃ s s' rest, ls = s :: s' :: rest := by
        match ls, htwo with
        | s :: s' :: rest, _ => exact ⟨s, s', rest, rfl⟩
      refine ⟨'[' :: '"' :: escapeText s, escapeText s' ++ '"' :: jsonRest rest, ?_⟩
      simp [jsonArray, jsonRest, jsonString, escapeText, escape, escapeTable, List.lookup_cons,
        List.lookup_nil]

end Babycat.Text
