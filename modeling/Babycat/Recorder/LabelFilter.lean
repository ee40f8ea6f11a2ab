/-
  Babycat.Recorder.LabelFilter

  The label filter of the inference history (`list_inferences`, FR-056).

  The labels of a row are stored as a JSON array, and the filter looks for the
  label in its quoted form by `LIKE`.  Wherever the label is a member it is
  found; it is also found where the stored text has another stretch between two
  quotation marks that is like it.  `NoFalseHit` says that it has none.
-/

import Babycat.Text.JsonString
import Babycat.Text.Like
import Babycat.Recorder.Payload

namespace Babycat.Recorder

open Babycat.Text

-- ============================================================================
-- The table
-- ============================================================================

/-- A row of `inferences`; the column `labels` is the JSON text of the list. -/
structure InferenceEntry where
  id : ℕ
  createdAt : String
  vlmText : String
  labels : List (List Char)
  preset : String
  model : String
  elapsedMs : Option ℤ
  deriving DecidableEq

/-- The rows in the order of their ids. -/
structure InferenceTable where
  rows : List InferenceEntry
  increasing : rows.Pairwise fun r s => r.id < s.id

/-- `[l for l in labels if isinstance(l, str)] if isinstance(labels, list) else []` -/
def labelsOf : Json → List (List Char)
  | .list items => items.filterMap fun
      | .str s => some s.toList
      | _ => none
  | _ => []

/-- `post_inference` and `insert_inference`, with the values that the endpoint reads of the
    payload and an id that no row before has had. -/
def InferenceTable.post (table : InferenceTable) (id : ℕ) (createdAt vlmText : String)
    (labels : Json) (preset model : String) (elapsedMs : Option ℤ)
    (hid : ∀ r ∈ table.rows, r.id < id) : InferenceTable where
  rows := table.rows ++ [⟨id, createdAt, vlmText, labelsOf labels, preset, model, elapsedMs⟩]
  increasing := by
    rw [List.pairwise_append]
    refine ⟨table.increasing, List.pairwise_singleton _ _, ?_⟩
    intro r hr s hs
    rw [List.mem_singleton.mp hs]
    exact hid r hr

-- ============================================================================
-- The query
-- ============================================================================

/-- The longest pattern of `LIKE`, in bytes. -/
def likeMaxPattern : ℕ := 50000

inductive QueryError
  /-- "LIKE or GLOB pattern too complex" -/
  | patternTooComplex
  deriving DecidableEq

structure InferenceList where
  inferences : List InferenceEntry
  total : ℕ
  deriving DecidableEq

/-- `ORDER BY id DESC LIMIT ? OFFSET ?` -/
def newestPage (rows : List InferenceEntry) (limit offset : ℕ) : List InferenceEntry :=
  (rows.reverse.drop offset).take limit

/-- `f'%{json.dumps(label, ensure_ascii=False)}%'` -/
def labelPattern (label : List Char) : List Char := '%' :: (jsonString label ++ ['%'])

/-- The pattern is within the limit of `LIKE`. -/
def ShortPattern (label : List Char) : Prop :=
  ((labelPattern label).map Char.utf8Size).sum ≤ likeMaxPattern

instance (label : List Char) : Decidable (ShortPattern label) :=
  inferInstanceAs (Decidable (_ ≤ _))

/-- `labels LIKE ?` of a row. -/
def InferenceEntry.hit (label : List Char) (row : InferenceEntry) : Bool :=
  like (labelPattern label) (jsonArray row.labels)

/-- The rows of the `WHERE` clause; the pattern is looked at when there is a row. -/
def InferenceTable.select (table : InferenceTable) (label : List Char) :
    Except QueryError (List InferenceEntry) :=
  match label with
  | [] => .ok table.rows
  | label =>
      if table.rows ≠ [] ∧ ¬ ShortPattern label then .error .patternTooComplex
      else .ok (table.rows.filter (InferenceEntry.hit label))

/-- `list_inferences` with a label, and without dates: the total and the page are two statements,
    with the rows that are there when each is executed. -/
def listBetween (counted selected : InferenceTable) (label : Option (List Char))
    (limit offset : ℕ) : Except QueryError InferenceList := do
  let all ← counted.select (label.getD [])
  let rows ← selected.select (label.getD [])
  .ok ⟨newestPage rows limit offset, all.length⟩

/-- The answer when nothing is written between the two. -/
def InferenceTable.listInferences (table : InferenceTable) (label : Option (List Char))
    (limit offset : ℕ) : Except QueryError InferenceList :=
  listBetween table table label limit offset

-- ============================================================================
-- What the filter is for
-- ============================================================================

/-- Every page has the rows with the label, and the total counts them. -/
def ExactLabel (table : InferenceTable) (label : List Char) : Prop :=
  ∀ limit offset, table.listInferences (some label) limit offset =
    let rows := table.rows.filter fun row => decide (label ∈ row.labels)
    .ok ⟨newestPage rows limit offset, rows.length⟩

/-- No row without the label has a stretch between two quotation marks that is like it. -/
structure NoFalseHit (table : InferenceTable) (label : List Char) : Prop where
  short : table.rows ≠ [] → ShortPattern label
  apart : ∀ row ∈ table.rows, label ∉ row.labels →
    ∀ u, Quoted (jsonArray row.labels) u → like (escapeText label) u = false

/-- What that means of a label without wildcards: no row without it has the label in another
    case, or a label that ends in it behind a quotation mark; and where the label is what
    separates two others, no row without it has two. -/
def LabelsApart (table : InferenceTable) (label : List Char) : Prop :=
  ∀ row ∈ table.rows, label ∉ row.labels →
    (∀ l ∈ row.labels, ¬ '"' :: foldCase label <:+ '"' :: foldCase l) ∧
    (label = [',', ' '] → row.labels.length < 2)

-- ============================================================================
-- Letters
-- ============================================================================

theorem toLower_eq_self {c : Char} (h : 128 ≤ c.toNat) : c.toLower = c := by
  unfold Char.toLower
  refine dif_neg fun hrange => ?_
  have hle : c.toNat ≤ 'Z'.toNat := hrange.2
  exact absurd (le_trans h hle) (by decide)

/-- Small letters are escaped like capital ones. -/
theorem escape_toLower (c : Char) : escape c.toLower = foldCase (escape c) := by
  by_cases hascii : c.toNat < 128
  · have hall : ∀ n < 128, escape (Char.ofNat n).toLower = foldCase (escape (Char.ofNat n)) := by
      decide
    have hc := hall c.toNat hascii
    rwa [Char.ofNat_toNat] at hc
  · have hself := toLower_eq_self (not_lt.mp hascii)
    obtain ⟨letter, hmem, -⟩ | ⟨hlow, -⟩ | ⟨-, -, heq⟩ := escape_cases c
    · have htable : ∀ e ∈ escapeTable, e.1.toNat < 128 := by decide
      exact absurd (htable _ hmem) hascii
    · omega
    · rw [hself, heq, foldCase, List.map_singleton, hself]

/-- A mark that no letter is a case of. -/
theorem eq_of_toLower {c mark : Char} (hmark : mark ∈ ['"', ',', ' ']) (h : c.toLower = mark) :
    c = mark := by
  by_cases hascii : c.toNat < 128
  · have hall : ∀ n < 128, (Char.ofNat n).toLower ∈ ['"', ',', ' '] →
        Char.ofNat n = (Char.ofNat n).toLower := by decide
    have hc := hall c.toNat hascii
    rw [Char.ofNat_toNat] at hc
    exact (hc (h ▸ hmark)).trans h
  · rw [← h, toLower_eq_self (not_lt.mp hascii)]

theorem foldCase_append (s t : List Char) : foldCase (s ++ t) = foldCase s ++ foldCase t :=
  List.map_append

theorem foldCase_escapeText (s : List Char) :
    foldCase (escapeText s) = escapeText (foldCase s) := by
  induction s with
  | nil => rfl
  | cons c s ih =>
    have hcons : ∀ (d : Char) (s : List Char), escapeText (d :: s) = escape d ++ escapeText s :=
      fun d s => List.flatMap_cons
    rw [hcons, foldCase_append, ih, ← escape_toLower]
    exact (hcons _ _).symm

theorem foldCase_jsonString (s : List Char) :
    foldCase (jsonString s) = jsonString (foldCase s) := by
  rw [jsonString, jsonString, ← foldCase_escapeText]
  exact congrArg ('"' :: ·) (foldCase_append _ _)

theorem foldCase_jsonRest (ls : List (List Char)) :
    foldCase (jsonRest ls) = jsonRest (ls.map foldCase) := by
  induction ls with
  | nil => rfl
  | cons s rest ih =>
    rw [List.map_cons, jsonRest, jsonRest, ← foldCase_jsonString, ← ih, ← foldCase_append]
    rfl

theorem foldCase_jsonArray (ls : List (List Char)) :
    foldCase (jsonArray ls) = jsonArray (ls.map foldCase) := by
  cases ls with
  | nil => rfl
  | cons s rest =>
    rw [List.map_cons, jsonArray, jsonArray, ← foldCase_jsonString, ← foldCase_jsonRest,
      ← foldCase_append]
    rfl

/-- An escape brings no wildcard. -/
theorem plainPattern_escapeText {s : List Char} (h : PlainPattern s) :
    PlainPattern (escapeText s) := by
  have hwild : ∀ w ∈ ['%', '_'], ∀ c : Char, w ∈ escape c → c = w := by
    intro w hw c hmem
    obtain ⟨letter, htable, heq⟩ | ⟨hlow, heq⟩ | ⟨-, -, heq⟩ := escape_cases c
    · have hall : (['%', '_'].all fun w => escapeTable.all fun e => w ∉ ['\\', e.2]) = true := by
        decide
      have hw' := List.all_eq_true.mp (List.all_eq_true.mp hall w hw) _ htable
      exact absurd (heq ▸ hmem) (of_decide_eq_true hw')
    · have hall : (['%', '_'].all fun w => ∀ n < 32, w ∉
          ['\\', 'u', '0', '0', (n / 16).digitChar, (n % 16).digitChar]) = true := by decide
      have hw' := of_decide_eq_true (List.all_eq_true.mp hall w hw)
      exact absurd (heq ▸ hmem) (hw' c.toNat hlow)
    · rw [heq, List.mem_singleton] at hmem
      exact hmem.symm
  constructor
  · intro hmem
    obtain ⟨c, hc, hin⟩ := List.mem_flatMap.mp hmem
    exact h.1 (hwild '%' (by decide) c hin ▸ hc)
  · intro hmem
    obtain ⟨c, hc, hin⟩ := List.mem_flatMap.mp hmem
    exact h.2 (hwild '_' (by decide) c hin ▸ hc)

-- ============================================================================
-- Hits
-- ============================================================================

theorem like_quote (text : List Char) : like ['"'] text = true ↔ text = ['"'] :=
  like_singleton (by unfold PlainPattern; decide) fun _ h => eq_of_toLower (by decide) h

theorem like_jsonString {label text : List Char} :
    like (jsonString label) text = true ↔
      ∃ u, text = '"' :: (u ++ ['"']) ∧ like (escapeText label) u = true := by
  have hparts : jsonString label = ['"'] ++ (escapeText label ++ ['"']) := rfl
  rw [hparts, like_append]
  constructor
  · rintro ⟨a, b, rfl, ha, hb⟩
    obtain ⟨u, c, rfl, hu, hc⟩ := (like_append _ _ b).mp hb
    rw [(like_quote a).mp ha, (like_quote c).mp hc]
    exact ⟨u, rfl, hu⟩
  · rintro ⟨u, rfl, hu⟩
    exact ⟨['"'], u ++ ['"'], rfl, (like_quote _).mpr rfl,
      (like_append _ _ _).mpr ⟨u, ['"'], rfl, hu, (like_quote _).mpr rfl⟩⟩

/-- A row is found by a stretch between two quotation marks that is like the label. -/
theorem hit_iff {label : List Char} {row : InferenceEntry} :
    row.hit label = true ↔
      ∃ u, Quoted (jsonArray row.labels) u ∧ like (escapeText label) u = true := by
  rw [InferenceEntry.hit, labelPattern, like_infix]
  constructor
  · rintro ⟨t, hinfix, ht⟩
    obtain ⟨u, rfl, hu⟩ := like_jsonString.mp ht
    exact ⟨u, hinfix, hu⟩
  · rintro ⟨u, hinfix, hu⟩
    exact ⟨_, hinfix, like_jsonString.mpr ⟨u, rfl, hu⟩⟩

/-- A member is found. -/
theorem hit_of_mem {label : List Char} {row : InferenceEntry} (h : label ∈ row.labels) :
    row.hit label = true :=
  hit_iff.mpr ⟨escapeText label, jsonString_inside h, like_self _⟩

/-- A stretch of a text without its case is one of the text. -/
theorem quoted_foldCase {text v : List Char} :
    Quoted (foldCase text) v ↔ ∃ u, Quoted text u ∧ foldCase u = v := by
  constructor
  · rintro ⟨pre, post, h⟩
    obtain ⟨a, post', rfl, ha, -⟩ := List.map_eq_append_iff.mp h.symm
    obtain ⟨pre', b, rfl, -, hb⟩ := List.map_eq_append_iff.mp ha
    obtain ⟨c, b, rfl, hc, hb⟩ := List.map_eq_cons_iff.mp hb
    obtain ⟨u, d, rfl, hu, hd⟩ := List.map_eq_append_iff.mp hb
    obtain ⟨d, rfl, hend⟩ := List.map_eq_singleton_iff.mp hd
    refine ⟨u, ⟨pre', post', ?_⟩, hu⟩
    rw [eq_of_toLower (by decide) hc, eq_of_toLower (by decide) hend]
  · rintro ⟨u, ⟨pre, post, h⟩, rfl⟩
    refine ⟨foldCase pre, foldCase post, ?_⟩
    have hquoted : foldCase ('"' :: (u ++ ['"'])) = '"' :: (foldCase u ++ ['"']) :=
      congrArg ('"' :: ·) (foldCase_append u ['"'])
    rw [← h, foldCase_append, foldCase_append, hquoted]

theorem foldCase_eq_separator {s : List Char} : foldCase s = [',', ' '] ↔ s = [',', ' '] := by
  constructor
  · intro h
    obtain ⟨c, s, rfl, hc, hs⟩ := List.map_eq_cons_iff.mp h
    obtain ⟨d, rfl, hd⟩ := List.map_eq_singleton_iff.mp hs
    rw [eq_of_toLower (by decide) hc, eq_of_toLower (by decide) hd]
  · rintro rfl
    decide

/-- What a label without wildcards finds. -/
theorem hit_plain {label : List Char} {row : InferenceEntry} (h : PlainPattern label) :
    row.hit label = true ↔
      (∃ l ∈ row.labels, '"' :: foldCase label <:+ '"' :: foldCase l) ∨
        label = [',', ' '] ∧ 2 ≤ row.labels.length := by
  have hfold : row.hit label = true ↔
      Quoted (jsonArray (row.labels.map foldCase)) (escapeText (foldCase label)) := by
    rw [hit_iff, ← foldCase_jsonArray, quoted_foldCase]
    simp only [like_plain (plainPattern_escapeText h), foldCase_escapeText]
  rw [hfold, quoted_escapeText, foldCase_eq_separator, List.length_map]
  simp only [List.mem_map, exists_exists_and_eq_and]

-- ============================================================================
-- The filter
-- ============================================================================

theorem noFalseHit_iff {table : InferenceTable} {label : List Char} :
    NoFalseHit table label ↔ (table.rows ≠ [] → ShortPattern label) ∧
      ∀ row ∈ table.rows, row.hit label = true → label ∈ row.labels := by
  constructor
  · intro h
    refine ⟨h.short, fun row hrow hhit => ?_⟩
    by_contra hno
    obtain ⟨u, hquoted, hlike⟩ := hit_iff.mp hhit
    rw [h.apart row hrow hno u hquoted] at hlike
    cases hlike
  · rintro ⟨hshort, hhits⟩
    refine ⟨hshort, fun row hrow hno u hquoted => ?_⟩
    by_contra hlike
    exact hno (hhits row hrow (hit_iff.mpr ⟨u, hquoted, by simpa using hlike⟩))

/-- The page that is long enough has all rows. -/
theorem newestPage_all (rows : List InferenceEntry) (limit : ℕ) (h : rows.length ≤ limit) :
    newestPage rows limit 0 = rows.reverse := by
  rw [newestPage, List.drop_zero, List.take_of_length_le (by rwa [List.length_reverse])]

theorem select_ok {table : InferenceTable} {label : List Char} (hlabel : label ≠ [])
    (hshort : table.rows ≠ [] → ShortPattern label) :
    table.select label = .ok (table.rows.filter (InferenceEntry.hit label)) := by
  cases label with
  | nil => exact absurd rfl hlabel
  | cons c label => exact if_neg fun h => h.2 (hshort h.1)

theorem exactLabel_iff {table : InferenceTable} {label : List Char} (hlabel : label ≠ []) :
    ExactLabel table label ↔ NoFalseHit table label := by
  rw [noFalseHit_iff]
  constructor
  · intro h
    have hshort : table.rows ≠ [] → ShortPattern label := by
      intro hrows
      by_contra hlong
      have herror : table.select label = .error .patternTooComplex := by
        cases label with
        | nil => exact absurd rfl hlabel
        | cons c label => exact if_pos ⟨hrows, hlong⟩
      have hpage := h 1 0
      rw [InferenceTable.listInferences, listBetween, Option.getD_some, herror] at hpage
      cases hpage
    refine ⟨hshort, fun row hrow hhit => ?_⟩
    have hpage := h table.rows.length 0
    rw [InferenceTable.listInferences, listBetween, Option.getD_some,
      select_ok hlabel hshort] at hpage
    have hrows : newestPage (table.rows.filter (InferenceEntry.hit label)) table.rows.length 0 =
        newestPage (table.rows.filter fun row => decide (label ∈ row.labels)) table.rows.length 0 :=
      congrArg InferenceList.inferences (Except.ok.inj hpage)
    rw [newestPage_all _ _ (List.length_filter_le _ _),
      newestPage_all _ _ (List.length_filter_le _ _), List.reverse_inj] at hrows
    have hmem : row ∈ table.rows.filter (InferenceEntry.hit label) :=
      List.mem_filter.mpr ⟨hrow, hhit⟩
    rw [hrows] at hmem
    simpa using (List.mem_filter.mp hmem).2
  · rintro ⟨hshort, hhits⟩ limit offset
    have hfilter : table.rows.filter (InferenceEntry.hit label) =
        table.rows.filter fun row => decide (label ∈ row.labels) := by
      apply List.filter_congr
      intro row hrow
      rw [Bool.eq_iff_iff, decide_eq_true_eq]
      exact ⟨hhits row hrow, hit_of_mem⟩
    rw [InferenceTable.listInferences, listBetween, Option.getD_some, select_ok hlabel hshort,
      hfilter]
    rfl

theorem labelsApart_iff {table : InferenceTable} {label : List Char} (h : PlainPattern label) :
    LabelsApart table label ↔
      ∀ row ∈ table.rows, row.hit label = true → label ∈ row.labels := by
  constructor
  · intro hapart row hrow hhit
    by_contra hno
    obtain ⟨hlabels, hseparator⟩ := hapart row hrow hno
    rcases (hit_plain h).mp hhit with ⟨l, hl, hsuffix⟩ | ⟨hlabel, htwo⟩
    · exact hlabels l hl hsuffix
    · exact absurd htwo (not_le.mpr (hseparator hlabel))
  · intro hhits row hrow hno
    constructor
    · intro l hl hsuffix
      exact hno (hhits row hrow ((hit_plain h).mpr (.inl ⟨l, hl, hsuffix⟩)))
    · intro hlabel
      by_contra htwo
      exact hno (hhits row hrow ((hit_plain h).mpr (.inr ⟨hlabel, not_lt.mp htwo⟩)))

/-- The filter is exact when no other row has a stretch that is like the label, and only then; for
    a label without wildcards that is a matter of the labels alone. -/
theorem listInferences_exact_iff (table : InferenceTable) (label : List Char)
    (hlabel : label ≠ []) :
    (ExactLabel table label ↔ NoFalseHit table label) ∧
    (PlainPattern label → (NoFalseHit table label ↔
      (table.rows ≠ [] → ShortPattern label) ∧ LabelsApart table label)) := by
  refine ⟨exactLabel_iff hlabel, fun hplain => ?_⟩
  rw [noFalseHit_iff, labelsApart_iff hplain]

/-- A history with one inference, with the label `4"5`. -/
def quotedTable : InferenceTable :=
  InferenceTable.post ⟨[], .nil⟩ 1 "2026-01-01T00:00:00Z" "" (.list [.str "4\"5", .null])
    "default" "" none (by simp)

theorem listInferences_exact_other : ExactLabel quotedTable "6".toList := by
  obtain ⟨hexact, hplain⟩ := listInferences_exact_iff quotedTable "6".toList (by decide)
  have happart : LabelsApart quotedTable "6".toList := by
    unfold LabelsApart
    decide
  have hpattern : PlainPattern "6".toList := by
    unfold PlainPattern
    decide
  exact hexact.mpr ((hplain hpattern).mpr ⟨fun _ => by decide, happart⟩)

/-- The label `5` finds the row of the label `4"5`. -/
theorem listInferences_quoted : ¬ ExactLabel quotedTable "5".toList := by
  intro h
  have hpage := h 10 0
  exact absurd hpage (by decide)

end Babycat.Recorder
