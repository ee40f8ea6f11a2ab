/-
  Babycat.Text.JsonNesting

  How deep a JSON text nests its lists and dicts, as the decoder counts the
  calls of itself towards the recursion limit.

  The text of a value nests as deep as the value.
-/

import Babycat.Text.JsonPoints

namespace Babycat.Text.Json

-- ============================================================================
-- Values
-- ============================================================================

mutual

/-- How many lists and dicts stand inside each other. -/
def depth : Json → ℕ
  | .list items => depthItems items + 1
  | .dict items => depthFields items + 1
  | _ => 0

def depthItems : List Json → ℕ
  | [] => 0
  | item :: items => max (depth item) (depthItems items)

def depthFields : List (PyStr × Json) → ℕ
  | [] => 0
  | field :: fields => max (depth field.2) (depthFields fields)

end

-- ============================================================================
-- Texts
-- ============================================================================

/-- Where the next code point stands. -/
inductive Place
  | text
  | string
  | escaped

/-- What is counted up to a place of a text. -/
structure Nest where
  place : Place
  depth : ℕ
  deepest : ℕ

def Nest.step (n : Nest) (c : CodePoint) : Nest :=
  match n.place with
  | .escaped => { n with place := .string }
  | .string =>
      if c = backslash then { n with place := .escaped }
      else if c = quote then { n with place := .text }
      else n
  | .text =>
      if c = quote then { n with place := .string }
      else if c = openList || c = openDict then
        { n with depth := n.depth + 1, deepest := max n.deepest (n.depth + 1) }
      else if c = closeList || c = closeDict then { n with depth := n.depth - 1 }
      else n

def Nest.over (n : Nest) (s : PyStr) : Nest := s.foldl Nest.step n

/-- The calls of the decoder that are inside each other for a JSON text. -/
def nesting (s : PyStr) : ℕ := (Nest.over ⟨.text, 0, 0⟩ s).deepest

section Nesting

variable {st : Style} {n : Nest}

theorem Nest.over_append (n : Nest) (s t : PyStr) : n.over (s ++ t) = (n.over s).over t :=
  List.foldl_append

theorem Nest.over_cons (n : Nest) (c : CodePoint) (s : PyStr) :
    n.over (c :: s) = (n.step c).over s := rfl

/-- A code point that neither opens nor closes anything. -/
def silent (c : CodePoint) : Bool :=
  !(c = quote || c = openList || c = openDict || c = closeList || c = closeDict)

theorem Nest.step_silent {c : CodePoint} (hn : n.place = .text) (hc : silent c = true) :
    n.step c = n := by
  simp only [silent, Bool.not_eq_true', Bool.or_eq_false_iff, decide_eq_false_iff_not] at hc
  obtain ⟨⟨⟨⟨hquote, hlist⟩, hdict⟩, hendList⟩, hendDict⟩ := hc
  simp only [Nest.step, hn, hquote, hlist, hdict, hendList, hendDict, if_false, decide_false,
    Bool.or_self, Bool.false_eq_true]

theorem Nest.over_silent (hn : n.place = .text) {s : PyStr} (hs : ∀ c ∈ s, silent c = true) :
    n.over s = n := by
  induction s with
  | nil => rfl
  | cons c s ih =>
    obtain ⟨hc, hs⟩ := List.forall_mem_cons.mp hs
    rw [Nest.over_cons, Nest.step_silent hn hc, ih hs]

theorem silent_blank {c : CodePoint} (h : isBlank c = true) : silent c = true := by
  simp only [isBlank, Bool.or_eq_true, decide_eq_true_eq] at h
  rcases h with ((rfl | rfl) | rfl) | rfl <;> decide

theorem silent_numeric {c : CodePoint} (h : numeric c = true) : silent c = true := by
  simp only [numeric, isDigit, Bool.or_eq_true, Bool.and_eq_true, decide_eq_true_eq] at h
  rcases h with (((⟨hlow, hhigh⟩ | rfl) | rfl) | rfl) | rfl
  · simp only [silent, Bool.not_eq_true', Bool.or_eq_false_iff, decide_eq_false_iff_not]
    refine ⟨⟨⟨⟨?_, ?_⟩, ?_⟩, ?_⟩, ?_⟩ <;> rintro rfl
    · exact absurd hlow (by decide)
    all_goals exact absurd hhigh (by decide)
  all_goals decide

theorem Numeric.silent {s : PyStr} (hs : Numeric s) : ∀ c ∈ s, silent c = true :=
  fun c hc => silent_numeric (hs c hc)

theorem silent_word {w : String} (h : (word w).all silent = true) :
    ∀ c ∈ word w, silent c = true := List.all_eq_true.mp h

theorem Style.line_silent (st : Style) (depth : ℕ) : ∀ c ∈ st.line depth, silent c = true := by
  unfold Style.line
  cases st.indent with
  | none => exact List.forall_mem_nil _
  | some width =>
    refine List.forall_mem_cons.mpr ⟨by decide, fun c hc => ?_⟩
    rw [List.eq_of_mem_replicate hc]
    decide

-- ============================================================================
-- The text of a value
-- ============================================================================

/-- Inside a string, an escape ends where it begins. -/
theorem Nest.over_escape (hn : n.place = .string) (c : CodePoint) : n.over (escape c) = n := by
  obtain ⟨place, depth, deepest⟩ := n
  cases hn
  have hescaped : ∀ letter,
      Nest.over ⟨.string, depth, deepest⟩ [backslash, letter] = ⟨.string, depth, deepest⟩ :=
    fun letter => rfl
  have hplain : ∀ d, d ≠ backslash → d ≠ quote →
      Nest.step ⟨.string, depth, deepest⟩ d = ⟨.string, depth, deepest⟩ := by
    intro d hbackslash hquote
    simp only [Nest.step, hbackslash, hquote, if_false]
  unfold escape
  cases hlookup : escapes.lookup c with
  | some letter => exact hescaped letter
  | none =>
    by_cases hc : c.val < 32
    · have hdigit : ∀ d < 16, codePoint d.digitChar ≠ backslash ∧
          codePoint d.digitChar ≠ quote := by decide
      have hhigh := hdigit (c.val / 16) (by omega)
      have hlow := hdigit (c.val % 16) (by omega)
      simp only [if_pos hc]
      rw [← List.singleton_append, ← List.singleton_append (l := _ :: _), ← List.append_assoc,
        Nest.over_append, List.singleton_append, hescaped]
      simp only [Nest.over_cons, hplain _ (by decide : codePoint '0' ≠ backslash) (by decide),
        hplain _ hhigh.1 hhigh.2, hplain _ hlow.1 hlow.2]
      rfl
    · simp only [if_neg hc]
      have hne : ∀ e ∈ escapes, c ≠ e.1 := by
        intro e he heq
        rw [List.lookup_eq_none_iff] at hlookup
        exact absurd heq (by simpa using hlookup e he)
      exact hplain c (hne (backslash, backslash) (by decide)) (hne (quote, quote) (by decide))

theorem Nest.over_stringText (hn : n.place = .text) (s : PyStr) : n.over (stringText s) = n := by
  obtain ⟨place, depth, deepest⟩ := n
  cases hn
  have hbody : Nest.over ⟨.string, depth, deepest⟩ (s.flatMap escape) =
      ⟨.string, depth, deepest⟩ := by
    induction s with
    | nil => rfl
    | cons c s ih => rw [List.flatMap_cons, Nest.over_append, Nest.over_escape rfl, ih]
  have hquote : Nest.step ⟨.text, depth, deepest⟩ quote = ⟨.string, depth, deepest⟩ := rfl
  rw [stringText, Nest.over_cons, hquote, Nest.over_append, hbody]
  rfl

/-- The text of a value, behind `d` lists and dicts that are open. -/
def Nests (st : Style) (j : Json) : Prop :=
  ∀ k d m, d ≤ m →
    Nest.over ⟨.text, d, m⟩ (dumpsAt st k j) = ⟨.text, d, max m (d + depth j)⟩

theorem nests_silent {j : Json} (hdepth : depth j = 0)
    (h : ∀ k, ∀ c ∈ dumpsAt st k j, silent c = true) : Nests st j := by
  intro k d m hd
  rw [Nest.over_silent rfl (h k), hdepth, Nat.add_zero, max_eq_left hd]

theorem nests_items {items : List Json} (h : ∀ x ∈ items, Nests st x) (k : ℕ) {d m : ℕ}
    (hd : d ≤ m) :
    Nest.over ⟨.text, d, m⟩ (dumpsItems st k items) =
      ⟨.text, d, max m (d + depthItems items)⟩ := by
  induction items generalizing m with
  | nil =>
    rw [depthItems, Nat.add_zero, max_eq_left hd]
    rfl
  | cons item items ih =>
    obtain ⟨hitem, hitems⟩ := List.forall_mem_cons.mp h
    have hcomma : Nest.step ⟨.text, d, m⟩ comma = ⟨.text, d, m⟩ :=
      Nest.step_silent rfl (by decide)
    rw [dumpsItems, Nest.over_cons, hcomma, Nest.over_append, Nest.over_append, Nest.over_append,
      Nest.over_silent rfl fun c hc => silent_blank (st.comma_blank c hc),
      Nest.over_silent rfl (st.line_silent k), hitem k d m hd,
      ih hitems (hd.trans (le_max_left _ _)), depthItems, max_assoc, Nat.add_max_add_left]

theorem nests_field {field : PyStr × Json} (h : Nests st field.2) (k : ℕ) {d m : ℕ}
    (hd : d ≤ m) :
    Nest.over ⟨.text, d, m⟩ (dumpsField st k field) = ⟨.text, d, max m (d + depth field.2)⟩ := by
  obtain ⟨key, value⟩ := field
  have hcolon : Nest.step ⟨.text, d, m⟩ colon = ⟨.text, d, m⟩ := Nest.step_silent rfl (by decide)
  rw [dumpsField, Nest.over_append, Nest.over_stringText rfl, Nest.over_cons, hcolon,
    Nest.over_append, Nest.over_silent rfl fun c hc => silent_blank (st.colon_blank c hc),
    h k d m hd]

theorem nests_fields {fields : List (PyStr × Json)} (h : ∀ f ∈ fields, Nests st f.2) (k : ℕ)
    {d m : ℕ} (hd : d ≤ m) :
    Nest.over ⟨.text, d, m⟩ (dumpsFields st k fields) =
      ⟨.text, d, max m (d + depthFields fields)⟩ := by
  induction fields generalizing m with
  | nil =>
    rw [depthFields, Nat.add_zero, max_eq_left hd]
    rfl
  | cons field fields ih =>
    obtain ⟨hfield, hfields⟩ := List.forall_mem_cons.mp h
    have hcomma : Nest.step ⟨.text, d, m⟩ comma = ⟨.text, d, m⟩ :=
      Nest.step_silent rfl (by decide)
    rw [dumpsFields, Nest.over_cons, hcomma, Nest.over_append, Nest.over_append, Nest.over_append,
      Nest.over_silent rfl fun c hc => silent_blank (st.comma_blank c hc),
      Nest.over_silent rfl (st.line_silent k), nests_field hfield k hd,
      ih hfields (hd.trans (le_max_left _ _)), depthFields, max_assoc, Nat.add_max_add_left]

/-- An opening bracket, what is inside, and the closing bracket. -/
theorem nests_inside {d m inner : ℕ} {s : PyStr} (first last : CodePoint)
    (hfirst : first = openList ∨ first = openDict) (hlast : last = closeList ∨ last = closeDict)
    (hd : d ≤ m)
    (hs : Nest.over ⟨.text, d + 1, max m (d + 1)⟩ s =
      ⟨.text, d + 1, max (max m (d + 1)) (d + 1 + inner)⟩) :
    Nest.over ⟨.text, d, m⟩ (first :: (s ++ [last])) = ⟨.text, d, max m (d + (inner + 1))⟩ := by
  have hopen : Nest.step ⟨.text, d, m⟩ first = ⟨.text, d + 1, max m (d + 1)⟩ := by
    rcases hfirst with rfl | rfl <;> rfl
  have hclose : ∀ deepest, Nest.step ⟨.text, d + 1, deepest⟩ last = ⟨.text, d, deepest⟩ := by
    intro deepest
    rcases hlast with rfl | rfl <;> rfl
  have hdeepest : max (max m (d + 1)) (d + 1 + inner) = max m (d + (inner + 1)) := by omega
  rw [Nest.over_cons, hopen, Nest.over_append, hs, hdeepest]
  exact hclose _

theorem nests_nothing (d m : ℕ) :
    Nest.over ⟨.text, d + 1, max m (d + 1)⟩ [] =
      ⟨.text, d + 1, max (max m (d + 1)) (d + 1 + 0)⟩ := by
  rw [Nat.add_zero, max_eq_left (le_max_right _ _)]
  rfl

/-- The first of several items, the others, and the lines around them. -/
theorem nests_first {d m a b : ℕ} {s t line₁ line₂ : PyStr}
    (hline₁ : ∀ c ∈ line₁, silent c = true) (hline₂ : ∀ c ∈ line₂, silent c = true)
    (hs : Nest.over ⟨.text, d, m⟩ s = ⟨.text, d, max m (d + a)⟩)
    (ht : Nest.over ⟨.text, d, max m (d + a)⟩ t = ⟨.text, d, max (max m (d + a)) (d + b)⟩) :
    Nest.over ⟨.text, d, m⟩ (line₁ ++ s ++ t ++ line₂) = ⟨.text, d, max m (d + max a b)⟩ := by
  rw [Nest.over_append, Nest.over_append, Nest.over_append, Nest.over_silent rfl hline₁, hs, ht,
    Nest.over_silent rfl hline₂, max_assoc, Nat.add_max_add_left]

theorem nests (st : Style) (j : Json) : Nests st j := by
  induction j using items_induction with
  | null => exact nests_silent rfl fun k => silent_word rfl
  | bool b =>
    cases b with
    | true => exact nests_silent rfl fun k => silent_word rfl
    | false => exact nests_silent rfl fun k => silent_word rfl
  | int n => exact nests_silent rfl fun k => (numeric_intText n).silent
  | float x =>
    cases x with
    | nan => exact nests_silent rfl fun k => silent_word rfl
    | number negative n le =>
      refine nests_silent rfl fun k c hc => ?_
      rw [dumpsAt] at hc
      split at hc
      · rcases List.mem_append.mp hc with hc | hc
        · exact (numeric_signText negative).silent c hc
        · exact silent_word (w := "Infinity") rfl c hc
      · exact (numeric_floatText negative n le).silent c hc
  | str s =>
    intro k d m hd
    have hdepth : depth (.str s) = 0 := rfl
    rw [dumpsAt, Nest.over_stringText rfl, hdepth, Nat.add_zero, max_eq_left hd]
  | list items ih =>
    intro k d m hd
    cases items with
    | nil =>
      exact nests_inside (s := []) openList closeList (.inl rfl) (.inl rfl) hd (nests_nothing d m)
    | cons item items =>
      obtain ⟨hitem, hitems⟩ := List.forall_mem_cons.mp ih
      have hd' : d + 1 ≤ max m (d + 1) := le_max_right _ _
      exact nests_inside openList closeList (.inl rfl) (.inl rfl) hd
        (nests_first (st.line_silent _) (st.line_silent _) (hitem (k + 1) _ _ hd')
          (nests_items hitems (k + 1) (hd'.trans (le_max_left _ _))))
  | dict items ih =>
    intro k d m hd
    cases items with
    | nil =>
      exact nests_inside (s := []) openDict closeDict (.inr rfl) (.inr rfl) hd (nests_nothing d m)
    | cons field fields =>
      obtain ⟨hfield, hfields⟩ := List.forall_mem_cons.mp ih
      have hd' : d + 1 ≤ max m (d + 1) := le_max_right _ _
      exact nests_inside openDict closeDict (.inr rfl) (.inr rfl) hd
        (nests_first (st.line_silent _) (st.line_silent _) (nests_field hfield (k + 1) hd')
          (nests_fields hfields (k + 1) (hd'.trans (le_max_left _ _))))

/-- The text of a value nests as deep as the value. -/
theorem nesting_dumps (st : Style) (j : Json) : nesting (dumps st j) = depth j := by
  rw [nesting, dumps, nests st j 0 0 0 le_rfl, Nat.zero_max, Nat.zero_add]

end Nesting

end Babycat.Text.Json
