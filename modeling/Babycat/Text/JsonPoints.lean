/-
  Babycat.Text.JsonPoints

  The code points of a document that `json.dumps(value, ensure_ascii=False)`
  writes: those of the strings of the value, printable ASCII, and the blanks of
  the style.

  So the document is encodable if and only if the strings of the value are, and
  it has no carriage return.
-/

import Babycat.Text.JsonWellFormed

namespace Babycat.Text.Json

-- ============================================================================
-- Numbers
-- ============================================================================

/-- A text of printable ASCII. -/
def Printable (s : PyStr) : Prop := ∀ c ∈ s, 32 ≤ c.val ∧ c.val < 128

section Printable

theorem Printable.append {s t : PyStr} (hs : Printable s) (ht : Printable t) :
    Printable (s ++ t) := fun c hc => (List.mem_append.mp hc).elim (hs c) (ht c)

theorem Printable.cons {c : CodePoint} {s : PyStr} (hc : 32 ≤ c.val ∧ c.val < 128)
    (hs : Printable s) : Printable (c :: s) := List.forall_mem_cons.mpr ⟨hc, hs⟩

theorem Printable.ite {P : Prop} [Decidable P] {s t : PyStr} (hs : Printable s)
    (ht : Printable t) : Printable (if P then s else t) := by
  split
  · exact hs
  · exact ht

theorem printable_of_all {s : PyStr} (h : (s.all fun c => 32 ≤ c.val && c.val < 128) = true) :
    Printable s := by
  intro c hc
  have hall := List.all_eq_true.mp h c hc
  rwa [Bool.and_eq_true, decide_eq_true_eq, decide_eq_true_eq] at hall

theorem printable_nil : Printable [] := List.forall_mem_nil _

theorem printable_replicate (n : ℕ) {c : CodePoint} (hc : 32 ≤ c.val ∧ c.val < 128) :
    Printable (List.replicate n c) := by
  intro d hd
  rw [List.eq_of_mem_replicate hd]
  exact hc

end Printable

/-- The characters of the numbers that are written. -/
def numeric (c : CodePoint) : Bool :=
  isDigit c || c = minus || c = dot || c = codePoint '+' || c = codePoint 'e'

def Numeric (s : PyStr) : Prop := ∀ c ∈ s, numeric c = true

section Numeric

theorem Numeric.append {s t : PyStr} (hs : Numeric s) (ht : Numeric t) : Numeric (s ++ t) :=
  fun c hc => (List.mem_append.mp hc).elim (hs c) (ht c)

theorem Numeric.cons {c : CodePoint} {s : PyStr} (hc : numeric c = true) (hs : Numeric s) :
    Numeric (c :: s) := List.forall_mem_cons.mpr ⟨hc, hs⟩

theorem Numeric.of_subset {s t : PyStr} (hs : Numeric s) (h : ∀ c ∈ t, c ∈ s) : Numeric t :=
  fun c hc => hs c (h c hc)

theorem Numeric.ite {P : Prop} [Decidable P] {s t : PyStr} (hs : Numeric s) (ht : Numeric t) :
    Numeric (if P then s else t) := by
  split
  · exact hs
  · exact ht

theorem numeric_nil : Numeric [] := List.forall_mem_nil _

theorem numeric_replicate (n : ℕ) {c : CodePoint} (hc : numeric c = true) :
    Numeric (List.replicate n c) := by
  intro d hd
  rw [List.eq_of_mem_replicate hd]
  exact hc

theorem numeric_natText (n : ℕ) : Numeric (natText n) := by
  intro c hc
  simp only [numeric, natText_digits n c hc, Bool.true_or]

theorem numeric_signText (negative : Bool) : Numeric (signText negative) := by
  cases negative with
  | true => exact numeric_nil.cons (by decide)
  | false => exact numeric_nil

theorem numeric_intText (n : ℤ) : Numeric (intText n) :=
  (Numeric.ite (numeric_nil.cons (by decide)) numeric_nil).append (numeric_natText _)

theorem numeric_decimalText (digits : ℕ) (exponent : ℤ) :
    Numeric (decimalText digits exponent) := by
  have hzero : numeric (codePoint '0') = true := by decide
  have hdot : numeric dot = true := by decide
  unfold decimalText
  generalize hds : (if digits = 0 then natText 0
    else ((natText digits).reverse.dropWhile (· = codePoint '0')).reverse) = ds
  have hnumeric : Numeric ds := by
    rw [← hds]
    refine (numeric_natText 0).ite ((numeric_natText digits).of_subset fun c hc => ?_)
    rw [List.mem_reverse] at hc
    exact List.mem_reverse.mp ((List.dropWhile_suffix _).subset hc)
  have htake : ∀ n, Numeric (ds.take n) := fun n =>
    hnumeric.of_subset fun c hc => List.mem_of_mem_take hc
  have hdrop : ∀ n, Numeric (ds.drop n) := fun n =>
    hnumeric.of_subset fun c hc => List.mem_of_mem_drop hc
  refine Numeric.ite ?_ (Numeric.ite ?_ (Numeric.ite ?_ ?_))
  · refine Numeric.append (Numeric.append (Numeric.append (Numeric.append
      (Numeric.append (htake 1) (numeric_nil.ite ((hdrop 1).cons hdot))) ?_) ?_) ?_)
      (numeric_natText _)
    · exact numeric_nil.cons (by decide)
    · exact numeric_nil.cons (by split <;> decide)
    · exact (numeric_nil.cons hzero).ite numeric_nil
  · exact Numeric.append (Numeric.append ((numeric_nil.cons hdot).cons hzero)
      (numeric_replicate _ hzero)) hnumeric
  · exact Numeric.append (hnumeric.append (numeric_replicate _ hzero))
      ((numeric_nil.cons hzero).cons hdot)
  · exact Numeric.append ((htake _).append (numeric_nil.cons hdot)) (hdrop _)

theorem numeric_exactText (n : ℕ) : Numeric (exactText n) := by
  have he : Numeric [codePoint 'e', minus] :=
    (numeric_nil.cons (by decide)).cons (by decide)
  exact ((numeric_natText _).append he).append (numeric_natText _)

theorem numeric_floatText (negative : Bool) (n : ℕ) (le : n ≤ infinityAt) :
    Numeric (floatText negative n le) := by
  unfold floatText
  generalize htexts : (if n = 0 then [(0, 0)] else decimals n).map
    (fun d => signText negative ++ decimalText d.1 d.2) = texts
  have hall : ∀ text ∈ texts, Numeric text := by
    intro text hmem
    rw [← htexts] at hmem
    obtain ⟨d, -, rfl⟩ := List.mem_map.mp hmem
    exact (numeric_signText negative).append (numeric_decimalText _ _)
  show Numeric (Option.getD _ _)
  cases hfind : texts.find? fun text =>
      readNumber text = some (.float (.number negative n le), []) with
  | some text => exact hall text (List.mem_of_find?_eq_some hfind)
  | none => exact (numeric_signText negative).append (numeric_exactText n)

theorem Numeric.printable {s : PyStr} (hs : Numeric s) : Printable s := by
  intro c hc
  have hnumeric := hs c hc
  simp only [numeric, isDigit, Bool.or_eq_true, Bool.and_eq_true, decide_eq_true_eq] at hnumeric
  rcases hnumeric with (((⟨hlow, hhigh⟩ | rfl) | rfl) | rfl) | rfl
  · exact ⟨by omega, by omega⟩
  all_goals decide

end Numeric

-- ============================================================================
-- Documents
-- ============================================================================

/-- The strings of a value itself: a string, or the keys of a dict. -/
def ownText : Json → PyStr
  | .str s => s
  | .dict items => items.flatMap Prod.fst
  | _ => []

section Documents

variable {st : Style} {p : CodePoint → Bool}

/-- A check of code points that the blanks of a style and printable ASCII pass. -/
structure Passes (st : Style) (p : CodePoint → Bool) : Prop where
  printable : ∀ c, 32 ≤ c.val → c.val < 128 → p c = true
  newline : p 10 = true
  comma : ∀ c ∈ st.afterComma, p c = true
  colon : ∀ c ∈ st.afterColon, p c = true

theorem Passes.all_printable (hp : Passes st p) {s : PyStr} (hs : Printable s) :
    s.all p = true :=
  List.all_eq_true.mpr fun c hc => hp.printable c (hs c hc).1 (hs c hc).2

theorem Passes.line (hp : Passes st p) (depth : ℕ) : (st.line depth).all p = true := by
  unfold Style.line
  cases st.indent with
  | none => rfl
  | some width =>
    have hspaces : Printable (List.replicate (width * depth) 32) :=
      printable_replicate _ (by decide)
    show (List.all (10 :: List.replicate (width * depth) 32) p) = true
    rw [List.all_cons, hp.newline, hp.all_printable hspaces]
    rfl

/-- A control character is written in ASCII, any other code point stands for itself or is. -/
theorem Passes.escape (hp : Passes st p) (c : CodePoint) :
    (escape c).all p = (c.val < 32 || p c) := by
  have hbackslash : 32 ≤ backslash.val ∧ backslash.val < 128 := by decide
  unfold Json.escape
  cases hlookup : escapes.lookup c with
  | some letter =>
    have hall : ∀ e ∈ escapes, Printable [backslash, e.2] ∧
        (e.1.val < 32 ∨ (32 ≤ e.1.val ∧ e.1.val < 128)) := by
      simp only [escapes, List.forall_mem_cons]
      refine ⟨?_, ?_, ?_, ?_, ?_, ?_, ?_, fun e he => absurd he List.not_mem_nil⟩ <;>
        exact ⟨(printable_nil.cons (by decide)).cons hbackslash, by decide⟩
    obtain ⟨l₁, l₂, hl, -⟩ := List.lookup_eq_some_iff.mp hlookup
    obtain ⟨hprintable, hc⟩ := hall (c, letter) (hl ▸ List.mem_append_right l₁ List.mem_cons_self)
    rw [hp.all_printable hprintable]
    rcases hc with hc | hc
    · rw [decide_eq_true hc, Bool.true_or]
    · rw [hp.printable c hc.1 hc.2, Bool.or_true]
  | none =>
    by_cases hc : c.val < 32
    · have hdigit : ∀ d < 16, 32 ≤ (codePoint d.digitChar).val ∧
          (codePoint d.digitChar).val < 128 := by decide
      have hprintable : Printable [backslash, codePoint 'u', codePoint '0', codePoint '0',
          codePoint (c.val / 16).digitChar, codePoint (c.val % 16).digitChar] :=
        (((((printable_nil.cons (hdigit _ (by omega))).cons (hdigit _ (by omega))).cons
          (by decide)).cons (by decide)).cons (by decide)).cons hbackslash
      simp only [if_pos hc, hp.all_printable hprintable, decide_eq_true hc, Bool.true_or]
    · simp only [if_neg hc, decide_eq_false hc, Bool.false_or, List.all_cons, List.all_nil,
        Bool.and_true]

/-- The check of the text of a string. -/
def passesText (p : CodePoint → Bool) (s : PyStr) : Bool := s.all fun c => c.val < 32 || p c

theorem Passes.stringText (hp : Passes st p) (s : PyStr) :
    (stringText s).all p = passesText p s := by
  have hquote : p quote = true := hp.printable quote (by decide) (by decide)
  have hbody : (s.flatMap Json.escape).all p = passesText p s := by
    rw [passesText]
    induction s with
    | nil => rfl
    | cons c s ih => rw [List.flatMap_cons, List.all_append, hp.escape, ih, List.all_cons]
  rw [Json.stringText, List.all_cons, List.all_append, hbody, List.all_cons, List.all_nil, hquote]
  simp

theorem Passes.field (hp : Passes st p) (depth : ℕ) (field : PyStr × Json) :
    (dumpsField st depth field).all p =
      (passesText p field.1 && (dumpsAt st depth field.2).all p) := by
  obtain ⟨key, value⟩ := field
  have hcolon : p Json.colon = true := hp.printable _ (by decide) (by decide)
  rw [dumpsField, List.all_append, hp.stringText, List.all_cons, hcolon, List.all_append,
    List.all_eq_true.mpr hp.colon, Bool.true_and, Bool.true_and]

theorem Passes.items (hp : Passes st p) (depth : ℕ) (items : List Json) :
    (dumpsItems st depth items).all p = items.all fun x => (dumpsAt st depth x).all p := by
  have hcomma : p Json.comma = true := hp.printable _ (by decide) (by decide)
  induction items with
  | nil => rfl
  | cons item items ih =>
    rw [dumpsItems, List.all_cons, hcomma, List.all_append, List.all_append, List.all_append,
      List.all_eq_true.mpr hp.comma, hp.line, ih, List.all_cons]
    simp only [Bool.true_and]

theorem Passes.fields (hp : Passes st p) (depth : ℕ) (fields : List (PyStr × Json)) :
    (dumpsFields st depth fields).all p = fields.all fun f => (dumpsField st depth f).all p := by
  have hcomma : p Json.comma = true := hp.printable _ (by decide) (by decide)
  induction fields with
  | nil => rfl
  | cons field fields ih =>
    rw [dumpsFields, List.all_cons, hcomma, List.all_append, List.all_append, List.all_append,
      List.all_eq_true.mpr hp.comma, hp.line, ih, List.all_cons]
    simp only [Bool.true_and]

theorem passesText_flatMap (fields : List (PyStr × Json)) :
    passesText p (fields.flatMap Prod.fst) = true ↔ ∀ f ∈ fields, passesText p f.1 = true := by
  simp only [passesText, List.all_eq_true, List.mem_flatMap]
  exact ⟨fun h f hf c hc => h c ⟨f, hf, hc⟩, fun h c ⟨f, hf, hc⟩ => h f hf c hc⟩

/-- A document passes if and only if the strings of its value do. -/
theorem Passes.dumpsAt (hp : Passes st p) (j : Json) (depth : ℕ) :
    (dumpsAt st depth j).all p = true ↔ all (fun v => passesText p (ownText v)) j = true := by
  have hscalar : ∀ s : PyStr, Printable s → (s.all p = true ↔ passesText p [] = true) :=
    fun s hs => iff_of_true (hp.all_printable hs) rfl
  induction j using items_induction generalizing depth with
  | null => exact hscalar _ (printable_of_all rfl)
  | bool b =>
    cases b with
    | true => exact hscalar _ (printable_of_all rfl)
    | false => exact hscalar _ (printable_of_all rfl)
  | int n => exact hscalar _ (numeric_intText n).printable
  | float x =>
    cases x with
    | nan => exact hscalar _ (printable_of_all rfl)
    | number negative n le =>
      exact hscalar _ (Printable.ite ((numeric_signText negative).printable.append
        (printable_of_all rfl)) (numeric_floatText negative n le).printable)
  | str s =>
    rw [Json.dumpsAt, hp.stringText]
    rfl
  | list items ih =>
    have hopen : p openList = true := hp.printable _ (by decide) (by decide)
    have hclose : p closeList = true := hp.printable _ (by decide) (by decide)
    have hown : passesText p (ownText (.list items)) = true := rfl
    have hitem : ∀ x ∈ items, ∀ depth, (Json.dumpsAt st depth x).all p = true ↔
        all (fun v => passesText p (ownText v)) x = true := ih
    rw [all_list, and_iff_right hown]
    cases items with
    | nil => simp [Json.dumpsAt, hopen, hclose]
    | cons item items =>
      rw [Json.dumpsAt]
      simp only [List.all_cons, List.all_append, List.all_nil, hopen, hclose, hp.line, hp.items,
        Bool.true_and, Bool.and_true, Bool.and_eq_true]
      rw [hitem item List.mem_cons_self, List.all_eq_true, List.forall_mem_cons]
      exact and_congr_right fun _ => forall₂_congr fun x hx =>
        hitem x (List.mem_cons_of_mem item hx) _
  | dict items ih =>
    have hopen : p openDict = true := hp.printable _ (by decide) (by decide)
    have hclose : p closeDict = true := hp.printable _ (by decide) (by decide)
    have hfield : ∀ f ∈ items, ∀ depth, (dumpsField st depth f).all p = true ↔
        passesText p f.1 = true ∧ all (fun v => passesText p (ownText v)) f.2 = true := by
      intro f hf depth
      rw [hp.field, Bool.and_eq_true]
      exact and_congr_right fun _ => ih f hf depth
    rw [all_dict, ownText, passesText_flatMap, ← forall₂_and]
    cases items with
    | nil => simp [Json.dumpsAt, hopen, hclose]
    | cons field fields =>
      rw [Json.dumpsAt]
      simp only [List.all_cons, List.all_append, List.all_nil, hopen, hclose, hp.line, hp.fields,
        Bool.true_and, Bool.and_true, Bool.and_eq_true]
      rw [hfield field List.mem_cons_self, List.all_eq_true, List.forall_mem_cons]
      exact and_congr_right fun _ => forall₂_congr fun f hf =>
        hfield f (List.mem_cons_of_mem field hf) _

end Documents

/-- A check of the strings of a value itself: they can be encoded. -/
def encodableOwn (j : Json) : Bool := encodable (ownText j)

/-- All strings of a value can be encoded. -/
def Encodable (j : Json) : Prop := all encodableOwn j = true

instance (j : Json) : Decidable (Encodable j) := inferInstanceAs (Decidable (_ = true))

section Encodable

theorem encodable_str {s : PyStr} : Encodable (.str s) ↔ encodable s = true := Iff.rfl

theorem encodable_list {items : List Json} :
    Encodable (.list items) ↔ ∀ x ∈ items, Encodable x :=
  (all_list items).trans (and_iff_right rfl)

theorem encodable_dict {items : List (PyStr × Json)} :
    Encodable (.dict items) ↔ ∀ f ∈ items, encodable f.1 = true ∧ Encodable f.2 := by
  have hkeys : encodable (items.flatMap Prod.fst) = true ↔ ∀ f ∈ items, encodable f.1 = true := by
    simp only [encodable_iff, List.mem_flatMap]
    exact ⟨fun h f hf c hc => h c ⟨f, hf, hc⟩, fun h c ⟨f, hf, hc⟩ => h f hf c hc⟩
  rw [Encodable, all_dict, encodableOwn, ownText, hkeys, ← forall₂_and]
  rfl

end Encodable

section File

variable (st : Style)

/-- `json.dumps(value, ensure_ascii=False).encode()` raises if and only if a string of the value
    has a surrogate. -/
theorem encodable_dumps (j : Json) : encodable (dumps st j) = true ↔ Encodable j := by
  have hblank : ∀ c, isBlank c = true → (!surrogate c) = true := by
    intro c hc
    simp only [isBlank, Bool.or_eq_true, decide_eq_true_eq] at hc
    rcases hc with ((rfl | rfl) | rfl) | rfl <;> rfl
  have hpasses : Passes st fun c => !surrogate c :=
    { printable := by
        intro c hlow hhigh
        rw [surrogate, Bool.not_eq_true', Bool.and_eq_false_iff, decide_eq_false_iff_not]
        omega
      newline := rfl
      comma := fun c hc => hblank c (st.comma_blank c hc)
      colon := fun c hc => hblank c (st.colon_blank c hc) }
  have hown : (fun v => passesText (fun c => !surrogate c) (ownText v)) = encodableOwn := by
    funext v
    refine congrArg (List.all (ownText v)) (funext fun c => ?_)
    by_cases hc : c.val < 32
    · have hs : surrogate c = false := by
        rw [surrogate, Bool.and_eq_false_iff, decide_eq_false_iff_not]
        omega
      simp only [hs, Bool.not_false, Bool.or_true]
    · simp only [decide_eq_false hc, Bool.false_or]
  rw [Encodable, ← hown]
  exact hpasses.dumpsAt j 0

/-- A document has no carriage return of its own, so a text file gives it back. -/
theorem universalNewlines_dumps (j : Json) (hcomma : codePoint '\r' ∉ st.afterComma)
    (hcolon : codePoint '\r' ∉ st.afterColon) : universalNewlines (dumps st j) = dumps st j := by
  have hpasses : Passes st fun c => c != codePoint '\r' :=
    { printable := by
        intro c hlow _
        rw [bne_iff_ne]
        rintro rfl
        exact absurd hlow (by decide)
      newline := rfl
      comma := fun c hc => bne_iff_ne.mpr (ne_of_mem_of_not_mem hc hcomma)
      colon := fun c hc => bne_iff_ne.mpr (ne_of_mem_of_not_mem hc hcolon) }
  have hown : ∀ s, passesText (fun c => c != codePoint '\r') s = true := by
    intro s
    rw [passesText, List.all_eq_true]
    intro c _
    by_cases hc : c = codePoint '\r'
    · rw [hc]
      rfl
    · rw [bne_iff_ne.mpr hc, Bool.or_true]
  have hall := all_of_forall (fun v => hown (ownText v)) j
  refine universalNewlines_eq_self fun hmem => ?_
  have hne := List.all_eq_true.mp ((hpasses.dumpsAt j 0).mpr hall) _ hmem
  exact bne_iff_ne.mp hne rfl

end File

-- ============================================================================
-- Documents on one line
-- ============================================================================

/-- A text without control characters. -/
def OneLine (s : PyStr) : Prop := ∀ c ∈ s, 32 ≤ c.val

section OneLine

variable {st : Style} {s t : PyStr}

theorem Printable.oneLine (h : Printable s) : OneLine s := fun c hc => (h c hc).1

theorem OneLine.append (hs : OneLine s) (ht : OneLine t) : OneLine (s ++ t) :=
  List.forall_mem_append.mpr ⟨hs, ht⟩

theorem OneLine.cons {c : CodePoint} (hc : 32 ≤ c.val) (hs : OneLine s) : OneLine (c :: s) :=
  List.forall_mem_cons.mpr ⟨hc, hs⟩

theorem oneLine_nil : OneLine [] := List.forall_mem_nil _

theorem oneLine_escape (c : CodePoint) : OneLine (escape c) := by
  have hbackslash : 32 ≤ backslash.val := by decide
  unfold escape
  cases hlookup : escapes.lookup c with
  | some letter =>
    have hall : ∀ e ∈ escapes, OneLine [backslash, e.2] := by
      simp only [escapes, List.forall_mem_cons]
      refine ⟨?_, ?_, ?_, ?_, ?_, ?_, ?_, fun e he => absurd he List.not_mem_nil⟩ <;>
        exact (oneLine_nil.cons (by decide)).cons hbackslash
    obtain ⟨l₁, l₂, hl, -⟩ := List.lookup_eq_some_iff.mp hlookup
    exact hall (c, letter) (hl ▸ List.mem_append_right l₁ List.mem_cons_self)
  | none =>
    by_cases hc : c.val < 32
    · have hdigit : ∀ d < 16, 32 ≤ (codePoint d.digitChar).val := by decide
      simp only [if_pos hc]
      refine OneLine.cons hbackslash (OneLine.cons (by decide) (OneLine.cons (by decide)
        (OneLine.cons (by decide) (OneLine.cons ?_ (OneLine.cons ?_ oneLine_nil)))))
      · exact hdigit _ (by omega)
      · exact hdigit _ (by omega)
    · simp only [if_neg hc]
      exact oneLine_nil.cons (Nat.le_of_not_lt hc)

theorem oneLine_stringText (s : PyStr) : OneLine (stringText s) := by
  have hquote : 32 ≤ quote.val := by decide
  refine OneLine.cons hquote (OneLine.append (fun d hd => ?_) (oneLine_nil.cons hquote))
  obtain ⟨c, -, hd⟩ := List.mem_flatMap.mp hd
  exact oneLine_escape c d hd

/-- A style without lines and without control characters behind its tokens. -/
structure Flat (st : Style) : Prop where
  indent : st.indent = none
  comma : OneLine st.afterComma
  colon : OneLine st.afterColon

theorem Flat.line (hst : Flat st) (depth : ℕ) : OneLine (st.line depth) := by
  rw [Style.line, hst.indent]
  exact oneLine_nil

theorem Flat.dumpsItems (hst : Flat st) (depth : ℕ) (items : List Json)
    (h : ∀ x ∈ items, OneLine (dumpsAt st depth x)) : OneLine (dumpsItems st depth items) := by
  induction items with
  | nil => exact oneLine_nil
  | cons item items ih =>
    obtain ⟨hitem, hitems⟩ := List.forall_mem_cons.mp h
    exact OneLine.cons (by decide)
      (((hst.comma.append (hst.line depth)).append hitem).append (ih hitems))

theorem Flat.dumpsField (hst : Flat st) (depth : ℕ) (field : PyStr × Json)
    (h : OneLine (dumpsAt st depth field.2)) : OneLine (dumpsField st depth field) := by
  obtain ⟨key, value⟩ := field
  exact (oneLine_stringText key).append ((hst.colon.append h).cons (by decide))

theorem Flat.dumpsFields (hst : Flat st) (depth : ℕ) (fields : List (PyStr × Json))
    (h : ∀ f ∈ fields, OneLine (dumpsAt st depth f.2)) :
    OneLine (dumpsFields st depth fields) := by
  induction fields with
  | nil => exact oneLine_nil
  | cons field fields ih =>
    obtain ⟨hfield, hfields⟩ := List.forall_mem_cons.mp h
    exact OneLine.cons (by decide) (((hst.comma.append (hst.line depth)).append
      (hst.dumpsField depth field hfield)).append (ih hfields))

/-- In such a style every document is one line. -/
theorem Flat.dumpsAt (hst : Flat st) (j : Json) (depth : ℕ) : OneLine (dumpsAt st depth j) := by
  induction j using items_induction generalizing depth with
  | null => exact (printable_of_all rfl).oneLine
  | bool b =>
    cases b with
    | true => exact (printable_of_all rfl).oneLine
    | false => exact (printable_of_all rfl).oneLine
  | int n => exact (numeric_intText n).printable.oneLine
  | float x =>
    cases x with
    | nan => exact (printable_of_all rfl).oneLine
    | number negative n le =>
      exact (Printable.ite ((numeric_signText negative).printable.append (printable_of_all rfl))
        (numeric_floatText negative n le).printable).oneLine
  | str s => exact oneLine_stringText s
  | list items ih =>
    cases items with
    | nil => exact (printable_of_all rfl).oneLine
    | cons item items =>
      obtain ⟨hitem, hitems⟩ := List.forall_mem_cons.mp ih
      exact OneLine.cons (by decide) (((((hst.line _).append (hitem _)).append
        (hst.dumpsItems _ items fun x hx => hitems x hx _)).append (hst.line _)).append
        (oneLine_nil.cons (by decide)))
  | dict items ih =>
    cases items with
    | nil => exact (printable_of_all rfl).oneLine
    | cons field fields =>
      obtain ⟨hfield, hfields⟩ := List.forall_mem_cons.mp ih
      exact OneLine.cons (by decide) (((((hst.line _).append
        (hst.dumpsField _ field (hfield _))).append
        (hst.dumpsFields _ fields fun f hf => hfields f hf _)).append (hst.line _)).append
        (oneLine_nil.cons (by decide)))

end OneLine

end Babycat.Text.Json
