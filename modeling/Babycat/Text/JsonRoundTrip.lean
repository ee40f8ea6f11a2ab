/-
  Babycat.Text.JsonRoundTrip

  `json.loads(json.dumps(value)) == value`, in every style, for the values that
  the decoder yields (`WellFormed`).
-/

import Babycat.Text.JsonWellFormed

namespace Babycat.Text.Json

-- ============================================================================
-- Strings
-- ============================================================================

section Strings

theorem readEscape_letter (rest : PyStr) {c letter : CodePoint}
    (h : escapes.lookup c = some letter) : readEscape (letter :: rest) = some (c, rest) := by
  have hall : ∀ e ∈ escapes, readEscape (e.2 :: rest) = some (e.1, rest) := by
    simp only [escapes, List.forall_mem_cons]
    exact ⟨rfl, rfl, rfl, rfl, rfl, rfl, rfl, fun e he => absurd he List.not_mem_nil⟩
  obtain ⟨l₁, l₂, hl, -⟩ := List.lookup_eq_some_iff.mp h
  exact hall (c, letter) (hl ▸ List.mem_append_right l₁ List.mem_cons_self)

theorem hexDigit_digitChar {d : ℕ} (h : d < 16) : hexDigit (codePoint d.digitChar) = some d := by
  have hall : ∀ d < 16, hexDigit (codePoint d.digitChar) = some d := by decide
  exact hall d h

/-- The escape of a control character. -/
theorem readEscape_hex (rest : PyStr) {c : CodePoint} (h : c.val < 32) :
    readEscape (codePoint 'u' :: codePoint '0' :: codePoint '0' ::
      codePoint (c.val / 16).digitChar :: codePoint (c.val % 16).digitChar :: rest) =
        some (c, rest) := by
  have hzero : hexDigit (codePoint '0') = some 0 := rfl
  have hhigh := hexDigit_digitChar (d := c.val / 16) (by omega)
  have hlow := hexDigit_digitChar (d := c.val % 16) (by omega)
  have hval : ((0 * 16 + 0) * 16 + c.val / 16) * 16 + c.val % 16 = c.val := by omega
  have hsurrogate : ¬(0xD800 ≤ c.val ∧ c.val ≤ 0xDBFF) := by omega
  have hc : Fin.ofNat 0x110000 c.val = c := Fin.ofNat_val_eq_self c
  simp only [readEscape, readHex4, hzero, hhigh, hlow, hval, hsurrogate, hc, if_true, if_false]

theorem scanString_escape (n : ℕ) (c : CodePoint) (rest : PyStr) :
    scanString (n + 1) (escape c ++ rest) = (scanString n rest).map fun r => (c :: r.1, r.2) := by
  have hquote : backslash ≠ quote := by decide
  unfold escape
  cases hlookup : escapes.lookup c with
  | some letter =>
    simp only [List.cons_append, List.nil_append, scanString, if_neg hquote, if_true,
      readEscape_letter rest hlookup]
  | none =>
    have hne_quote : c ≠ quote := by
      rintro rfl
      exact absurd hlookup (by decide)
    have hne_backslash : c ≠ backslash := by
      rintro rfl
      exact absurd hlookup (by decide)
    by_cases hc : c.val < 32
    · simp only [if_pos hc, List.cons_append, List.nil_append, scanString, if_neg hquote, if_true,
        readEscape_hex rest hc]
    · simp only [if_neg hc, List.cons_append, List.nil_append, scanString, if_neg hne_quote,
        if_neg hne_backslash]

theorem escape_ne_nil (c : CodePoint) : escape c ≠ [] := by
  unfold escape
  split
  · exact List.cons_ne_nil _ _
  · split <;> exact List.cons_ne_nil _ _

/-- A string is read up to its closing quotation mark. -/
theorem scanString_flatMap (s rest : PyStr) (n : ℕ) (hn : (s.flatMap escape).length < n) :
    scanString n (s.flatMap escape ++ quote :: rest) = some (s, rest) := by
  induction s generalizing n with
  | nil =>
    obtain ⟨n, rfl⟩ := Nat.exists_eq_succ_of_ne_zero (Nat.ne_zero_of_lt hn)
    rfl
  | cons c s ih =>
    obtain ⟨n, rfl⟩ := Nat.exists_eq_succ_of_ne_zero (Nat.ne_zero_of_lt hn)
    have hpos := List.length_pos_of_ne_nil (escape_ne_nil c)
    rw [List.flatMap_cons, List.length_append] at hn
    rw [List.flatMap_cons, List.append_assoc, scanString_escape, ih n (by omega)]
    rfl

end Strings

-- ============================================================================
-- Scalars
-- ============================================================================

section Scalars

theorem readWord_self (w : String) (value : Json) (rest : PyStr) :
    readWord w value (pyStr w ++ rest) = some (value, rest) := by
  have hpre : (pyStr w).isPrefixOf (pyStr w ++ rest) = true :=
    List.isPrefixOf_iff_prefix.mpr (List.prefix_append _ _)
  rw [readWord, if_pos hpre, List.drop_left]

theorem readWord_eq_none {w : String} {value : Json} {c d : CodePoint} {s ds : PyStr}
    (hd : pyStr w = d :: ds) (h : d ≠ c) : readWord w value (c :: s) = none := by
  rw [readWord, hd, List.isPrefixOf_cons_cons, beq_eq_false_iff_ne.mpr h, Bool.false_and]
  rfl

theorem scanScalar_null (rest : PyStr) : scanScalar (word "null" ++ rest) = some (.null, rest) := by
  rw [scanScalar, word, readWord_self]
  rfl

theorem scanScalar_bool (b : Bool) (rest : PyStr) :
    scanScalar (word (if b then "true" else "false") ++ rest) = some (.bool b, rest) := by
  cases b with
  | true => rfl
  | false => rfl

theorem scanScalar_nan (rest : PyStr) :
    scanScalar (word "NaN" ++ rest) = some (.float .nan, rest) := rfl

theorem scanScalar_infinity (negative : Bool) (rest : PyStr) :
    scanScalar (signText negative ++ word "Infinity" ++ rest) =
      some (.float (.number negative infinityAt le_rfl), rest) := by
  cases negative with
  | true => rfl
  | false => rfl

theorem scanScalar_number {s s' : PyStr} {v : Number} (h : readNumber s = some (v, s')) :
    scanScalar s = some (v.toJson, s') := by
  obtain ⟨c, t, rfl, hc⟩ := readNumber_head h
  have hword : ∀ (w : String) (d : CodePoint) (ds : PyStr), pyStr w = d :: ds → d ≠ minus →
      isDigit d = false → ∀ value, readWord w value (c :: t) = none := by
    intro w d ds hw hminus hdigit value
    refine readWord_eq_none hw fun heq => ?_
    rcases hc with hc | hc
    · exact hminus (heq.trans hc)
    · rw [← heq, hdigit] at hc
      cases hc
  have hinfinity : (pyStr "-Infinity").isPrefixOf (c :: t) = false := by
    rw [Bool.eq_false_iff]
    intro hpre
    obtain ⟨u, hu⟩ := List.isPrefixOf_iff_prefix.mp hpre
    rw [← hu] at h
    cases h
  have hneg : readWord "-Infinity" (.float (.number true infinityAt le_rfl)) (c :: t) = none := by
    rw [readWord, hinfinity]
    rfl
  rw [scanScalar, hword "null" _ _ rfl (by decide) (by decide),
    hword "true" _ _ rfl (by decide) (by decide), hword "false" _ _ rfl (by decide) (by decide),
    hword "NaN" _ _ rfl (by decide) (by decide), hword "Infinity" _ _ rfl (by decide) (by decide),
    hneg, h]
  rfl

end Scalars

-- ============================================================================
-- What stands around a value
-- ============================================================================

section Layout

variable (st : Style) (depth : ℕ) (s : PyStr)

theorem skipBlanks_append {blanks : PyStr} (h : ∀ c ∈ blanks, isBlank c = true) :
    skipBlanks (blanks ++ s) = skipBlanks s := List.dropWhile_append_of_pos h

theorem skipBlanks_cons {c : CodePoint} (h : isBlank c = false) :
    skipBlanks (c :: s) = c :: s := by
  rw [skipBlanks, List.dropWhile_cons, h]
  rfl

theorem Style.line_blank : ∀ c ∈ st.line depth, isBlank c = true := by
  intro c hc
  unfold Style.line at hc
  cases hindent : st.indent with
  | none =>
    rw [hindent] at hc
    cases hc
  | some width =>
    rw [hindent] at hc
    rcases List.mem_cons.mp hc with rfl | hc
    · rfl
    · rw [List.eq_of_mem_replicate hc]
      rfl

theorem stops_line {s : PyStr} (h : Stops s) : Stops (st.line depth ++ s) := by
  unfold Style.line
  cases st.indent with
  | none => exact h
  | some width =>
    intro c hc
    rw [← Option.some.inj hc]
    decide

/-- No number goes on with a comma or a closing bracket. -/
theorem stops_cons {c : CodePoint} (h : c = comma ∨ c = closeList ∨ c = closeDict) :
    Stops (c :: s) := by
  intro d hd
  rw [← Option.some.inj hd]
  rcases h with rfl | rfl | rfl <;> decide

end Layout

/-- A value starts with neither a blank nor a closing bracket. -/
theorem dumpsAt_head (st : Style) (depth : ℕ) (j : Json) :
    ∃ c s, dumpsAt st depth j = c :: s ∧ isBlank c = false ∧ c ≠ closeList := by
  have hnumber : ∀ c, (c = minus ∨ isDigit c = true) → isBlank c = false ∧ c ≠ closeList := by
    rintro c (rfl | hc)
    · decide
    · constructor
      · by_contra hblank
        simp only [isBlank, Bool.or_eq_true, decide_eq_true_eq, Bool.not_eq_false] at hblank
        rcases hblank with ((rfl | rfl) | rfl) | rfl <;> exact absurd hc (by decide)
      · rintro rfl
        exact absurd hc (by decide)
  cases j with
  | null => exact ⟨_, _, rfl, by decide⟩
  | bool b =>
    cases b with
    | true => exact ⟨_, _, rfl, by decide⟩
    | false => exact ⟨_, _, rfl, by decide⟩
  | int n =>
    obtain ⟨c, s, hs⟩ := List.exists_cons_of_ne_nil (natText_ne_nil n.natAbs)
    have hdigit := natText_digits n.natAbs c (hs ▸ List.mem_cons_self)
    rw [dumpsAt, intText]
    by_cases hn : n < 0
    · rw [if_pos hn]
      exact ⟨_, _, rfl, by decide⟩
    · rw [if_neg hn, hs]
      exact ⟨c, s, rfl, hnumber c (.inr hdigit)⟩
  | float x =>
    cases x with
    | nan => exact ⟨_, _, rfl, by decide⟩
    | number negative n le =>
      rw [dumpsAt]
      split
      · cases negative with
        | true => exact ⟨_, _, rfl, by decide⟩
        | false => exact ⟨_, _, rfl, by decide⟩
      · obtain ⟨c, s, hs, hc⟩ := readNumber_head (readNumber_floatText negative n le)
        exact ⟨c, s, hs, hnumber c hc⟩
  | str s => exact ⟨_, _, rfl, by decide⟩
  | list items =>
    cases items with
    | nil => exact ⟨_, _, rfl, by decide⟩
    | cons item items => exact ⟨_, _, rfl, by decide⟩
  | dict items =>
    cases items with
    | nil => exact ⟨_, _, rfl, by decide⟩
    | cons field fields => exact ⟨_, _, rfl, by decide⟩

-- ============================================================================
-- Values
-- ============================================================================

/-- A value is read back, whatever follows it. -/
def Reads (st : Style) (j : Json) : Prop :=
  ∀ depth n rest, (dumpsAt st depth j).length < n → Stops rest →
    scanValue n (dumpsAt st depth j ++ rest) = some (j, rest)

section Reads

variable {st : Style}

/-- A literal or a number is read by its first code point. -/
theorem scanValue_scalar {n : ℕ} {s rest : PyStr} {c : CodePoint} (hs : s.head? = some c)
    (hn : s.length < n) (hc : c ≠ quote ∧ c ≠ openDict ∧ c ≠ openList) :
    scanValue n (s ++ rest) = scanScalar (s ++ rest) := by
  obtain ⟨n, rfl⟩ := Nat.exists_eq_succ_of_ne_zero (Nat.ne_zero_of_lt hn)
  obtain ⟨t, rfl⟩ := List.head?_eq_some_iff.mp hs
  obtain ⟨hquote, hdict, hlist⟩ := hc
  rw [List.cons_append, scanValue, if_neg hquote, if_neg hdict, if_neg hlist]

theorem reads_number {j : Json} {v : Number} (hv : v.toJson = j)
    (h : ∀ depth, readNumber (dumpsAt st depth j) = some (v, [])) : Reads st j := by
  intro depth n rest hn hrest
  obtain ⟨c, s, hs, hc⟩ := readNumber_head (h depth)
  have hhead : (dumpsAt st depth j).head? = some c := by rw [hs, List.head?_cons]
  have hne : c ≠ quote ∧ c ≠ openDict ∧ c ≠ openList := by
    rcases hc with rfl | hc
    · decide
    · refine ⟨?_, ?_, ?_⟩ <;> rintro rfl <;> exact absurd hc (by decide)
  have happend := readNumber_append (h depth) hrest
  rw [List.nil_append] at happend
  rw [scanValue_scalar hhead hn hne, scanScalar_number happend, hv]

theorem reads_str (s : PyStr) : Reads st (.str s) := by
  intro depth n rest hn hrest
  obtain ⟨n, rfl⟩ := Nat.exists_eq_succ_of_ne_zero (Nat.ne_zero_of_lt hn)
  rw [dumpsAt, stringText, List.length_cons, List.length_append] at hn
  rw [dumpsAt, stringText, List.cons_append, List.append_assoc, List.singleton_append, scanValue,
    if_pos rfl, scanString_flatMap s rest n (by omega)]
  rfl

/-- The items of a list up to its closing bracket. -/
theorem scanItems_dumps (depth : ℕ) (items : List Json) (item : Json) (n : ℕ) (rest : PyStr)
    (h : ∀ x ∈ item :: items, Reads st x)
    (hn : (dumpsAt st (depth + 1) item).length + (dumpsItems st (depth + 1) items).length + 1 < n) :
    scanItems n (dumpsAt st (depth + 1) item ++ (dumpsItems st (depth + 1) items ++
      (st.line depth ++ closeList :: rest))) = some (item :: items, rest) := by
  induction items generalizing item n with
  | nil =>
    obtain ⟨n, rfl⟩ := Nat.exists_eq_succ_of_ne_zero (Nat.ne_zero_of_lt hn)
    have hstops : Stops (st.line depth ++ closeList :: rest) :=
      stops_line st depth (stops_cons rest (.inr (.inl rfl)))
    rw [dumpsItems, List.nil_append, scanItems,
      h item List.mem_cons_self (depth + 1) n _ (by omega) hstops]
    simp only [skipBlanks_append _ (st.line_blank depth),
      skipBlanks_cons rest (show isBlank closeList = false by decide), if_true]
  | cons next items ih =>
    obtain ⟨n, rfl⟩ := Nat.exists_eq_succ_of_ne_zero (Nat.ne_zero_of_lt hn)
    rw [dumpsItems, List.length_cons, List.length_append, List.length_append] at hn
    have hrest := ih next n (fun x hx => h x (List.mem_cons_of_mem item hx)) (by
      rw [List.length_append] at hn
      omega)
    obtain ⟨c, s, hs, hblank, -⟩ := dumpsAt_head st (depth + 1) next
    have hskip : ∀ u, skipBlanks (st.afterComma ++ (st.line (depth + 1) ++
        (dumpsAt st (depth + 1) next ++ u))) = dumpsAt st (depth + 1) next ++ u := by
      intro u
      rw [skipBlanks_append _ st.comma_blank, skipBlanks_append _ (st.line_blank _), hs,
        List.cons_append, skipBlanks_cons _ hblank]
    rw [dumpsItems, List.cons_append, scanItems,
      h item List.mem_cons_self (depth + 1) n _ (by omega) (stops_cons _ (.inl rfl))]
    simp only [skipBlanks_cons _ (show isBlank comma = false by decide), List.append_assoc, hskip,
      hrest, if_neg (show comma ≠ closeList by decide), if_true, Option.map_some]

theorem reads_list (items : List Json) (h : ∀ x ∈ items, Reads st x) : Reads st (.list items) := by
  intro depth n rest hn hrest
  obtain ⟨n, rfl⟩ := Nat.exists_eq_succ_of_ne_zero (Nat.ne_zero_of_lt hn)
  have hquote : openList ≠ quote := by decide
  have hdict : openList ≠ openDict := by decide
  cases items with
  | nil =>
    rw [dumpsAt, List.cons_append, scanValue, if_neg hquote, if_neg hdict, if_pos rfl]
    rfl
  | cons item items =>
    simp only [dumpsAt, List.length_cons, List.length_append, List.length_nil] at hn
    obtain ⟨c, s, hs, hblank, hclose⟩ := dumpsAt_head st (depth + 1) item
    have hitems := scanItems_dumps depth items item n rest h (by omega)
    rw [dumpsAt, List.cons_append, scanValue, if_neg hquote, if_neg hdict, if_pos rfl]
    simp only [List.append_assoc, skipBlanks_append _ (st.line_blank _), List.singleton_append]
    rw [hs, List.cons_append] at hitems ⊢
    simp only [skipBlanks_cons _ hblank, if_neg hclose, hitems, Option.map_some]

/-- The loop over the fields behind a field that has been read. -/
def fieldsAfter (n : ℕ) (field : PyStr × Json) (s : PyStr) : Option (List (PyStr × Json) × PyStr) :=
  match skipBlanks s with
  | [] => none
  | d :: s =>
      if d = closeDict then some ([field], s)
      else if d = comma then (scanFields n (skipBlanks s)).map fun r => (field :: r.1, r.2)
      else none

theorem scanFields_field (depth n : ℕ) (field : PyStr × Json) (u : PyStr)
    (h : Reads st field.2) (hn : (dumpsField st depth field).length < n + 1) (hu : Stops u) :
    scanFields (n + 1) (dumpsField st depth field ++ u) = fieldsAfter n field u := by
  obtain ⟨key, value⟩ := field
  replace h : Reads st value := h
  simp only [dumpsField, stringText, List.length_cons, List.length_append, List.length_nil] at hn
  obtain ⟨c, s, hs, hblank, -⟩ := dumpsAt_head st depth value
  have hskip : skipBlanks (st.afterColon ++ (dumpsAt st depth value ++ u)) =
      dumpsAt st depth value ++ u := by
    rw [skipBlanks_append _ st.colon_blank, hs, List.cons_append, skipBlanks_cons _ hblank]
  have hkey := scanString_flatMap key
    (colon :: (st.afterColon ++ (dumpsAt st depth value ++ u))) n (by omega)
  have hvalue := h depth n u (by omega) hu
  simp only [dumpsField, stringText, List.cons_append, List.append_assoc, List.nil_append]
  rw [scanFields, if_neg (not_not.mpr rfl), hkey]
  simp only [skipBlanks_cons _ (show isBlank colon = false by decide), ne_eq, not_true_eq_false,
    if_false, hskip, hvalue]
  rfl

theorem skipBlanks_field (depth : ℕ) (field : PyStr × Json) (u : PyStr) :
    skipBlanks (dumpsField st depth field ++ u) = dumpsField st depth field ++ u := by
  obtain ⟨key, value⟩ := field
  rw [dumpsField, stringText, List.cons_append, List.cons_append,
    skipBlanks_cons _ (show isBlank quote = false by decide)]

/-- The fields of a dict up to its closing bracket. -/
theorem scanFields_dumps (depth : ℕ) (fields : List (PyStr × Json)) (field : PyStr × Json) (n : ℕ)
    (rest : PyStr) (h : ∀ f ∈ field :: fields, Reads st f.2)
    (hn : (dumpsField st (depth + 1) field).length +
      (dumpsFields st (depth + 1) fields).length + 1 < n) :
    scanFields n (dumpsField st (depth + 1) field ++ (dumpsFields st (depth + 1) fields ++
      (st.line depth ++ closeDict :: rest))) = some (field :: fields, rest) := by
  induction fields generalizing field n with
  | nil =>
    obtain ⟨n, rfl⟩ := Nat.exists_eq_succ_of_ne_zero (Nat.ne_zero_of_lt hn)
    have hstops : Stops (st.line depth ++ closeDict :: rest) :=
      stops_line st depth (stops_cons rest (.inr (.inr rfl)))
    rw [dumpsFields, List.nil_append,
      scanFields_field (depth + 1) n field _ (h field List.mem_cons_self) (by omega) hstops,
      fieldsAfter]
    simp only [skipBlanks_append _ (st.line_blank depth),
      skipBlanks_cons rest (show isBlank closeDict = false by decide), if_true]
  | cons next fields ih =>
    obtain ⟨n, rfl⟩ := Nat.exists_eq_succ_of_ne_zero (Nat.ne_zero_of_lt hn)
    rw [dumpsFields, List.length_cons, List.length_append, List.length_append] at hn
    have hrest := ih next n (fun f hf => h f (List.mem_cons_of_mem field hf)) (by
      rw [List.length_append] at hn
      omega)
    have hskip : ∀ u, skipBlanks (st.afterComma ++ (st.line (depth + 1) ++
        (dumpsField st (depth + 1) next ++ u))) = dumpsField st (depth + 1) next ++ u := by
      intro u
      rw [skipBlanks_append _ st.comma_blank, skipBlanks_append _ (st.line_blank _),
        skipBlanks_field]
    rw [dumpsFields, List.cons_append,
      scanFields_field (depth + 1) n field _ (h field List.mem_cons_self) (by omega)
        (stops_cons _ (.inl rfl)), fieldsAfter]
    simp only [skipBlanks_cons _ (show isBlank comma = false by decide), List.append_assoc, hskip,
      hrest, if_neg (show comma ≠ closeDict by decide), if_true, Option.map_some]

theorem reads_dict (items : List (PyStr × Json)) (hkeys : (items.map Prod.fst).Nodup)
    (h : ∀ f ∈ items, Reads st f.2) : Reads st (.dict items) := by
  intro depth n rest hn hrest
  obtain ⟨n, rfl⟩ := Nat.exists_eq_succ_of_ne_zero (Nat.ne_zero_of_lt hn)
  have hquote : openDict ≠ quote := by decide
  cases items with
  | nil =>
    rw [dumpsAt, List.cons_append, scanValue, if_neg hquote, if_pos rfl]
    rfl
  | cons field fields =>
    simp only [dumpsAt, List.length_cons, List.length_append, List.length_nil] at hn
    have hfields := scanFields_dumps depth fields field n rest h (by omega)
    have hfold := foldl_setItem (field :: fields) [] hkeys
    have hblank : isBlank quote = false := by decide
    have hclose : quote ≠ closeDict := by decide
    rw [dumpsAt, List.cons_append, scanValue, if_neg hquote, if_pos rfl]
    simp only [List.append_assoc, skipBlanks_append _ (st.line_blank _), List.singleton_append]
    rw [dumpsField, stringText, List.cons_append, List.cons_append] at hfields ⊢
    simp only [skipBlanks_cons _ hblank, if_neg hclose, hfields, Option.map_some, hfold,
      List.nil_append]

/-- Every value as the decoder yields it is read back. -/
theorem reads (j : Json) (h : WellFormed j) : Reads st j := by
  induction j using items_induction with
  | null =>
    intro depth n rest hn hrest
    have hc : codePoint 'n' ≠ quote ∧ codePoint 'n' ≠ openDict ∧ codePoint 'n' ≠ openList := by
      decide
    rw [scanValue_scalar (c := codePoint 'n') rfl hn hc]
    exact scanScalar_null rest
  | bool b =>
    intro depth n rest hn hrest
    cases b with
    | true =>
      rw [scanValue_scalar (c := codePoint 't') rfl hn (by decide)]
      exact scanScalar_bool true rest
    | false =>
      rw [scanValue_scalar (c := codePoint 'f') rfl hn (by decide)]
      exact scanScalar_bool false rest
  | int n =>
    exact reads_number (v := .int n) rfl fun depth => readNumber_intText (wellFormed_int.mp h)
  | float x =>
    cases x with
    | nan =>
      intro depth n rest hn hrest
      rw [scanValue_scalar (c := codePoint 'N') rfl hn (by decide)]
      exact scanScalar_nan rest
    | number negative m le =>
      by_cases hm : m = infinityAt
      · subst hm
        intro depth n rest hn hrest
        have htext : dumpsAt st depth (.float (.number negative infinityAt le)) =
            signText negative ++ word "Infinity" := if_pos rfl
        rw [htext] at hn ⊢
        cases negative with
        | true =>
          rw [scanValue_scalar (c := minus) rfl hn (by decide)]
          exact scanScalar_infinity true rest
        | false =>
          rw [scanValue_scalar (c := codePoint 'I') rfl hn (by decide)]
          exact scanScalar_infinity false rest
      · refine reads_number (v := .float (.number negative m le)) rfl fun depth => ?_
        rw [dumpsAt, if_neg hm]
        exact readNumber_floatText negative m le
  | str s => exact reads_str s
  | list items ih =>
    exact reads_list items fun x hx => ih x hx (wellFormed_list.mp h x hx)
  | dict items ih =>
    obtain ⟨hkeys, hitems⟩ := wellFormed_dict.mp h
    exact reads_dict items hkeys fun f hf => ih f hf (hitems f hf)

end Reads

/-- `json.loads(json.dumps(value)) == value` -/
theorem loads_dumps (st : Style) {j : Json} (h : WellFormed j) : loads (dumps st j) = some j := by
  obtain ⟨c, s, hs, hblank, -⟩ := dumpsAt_head st 0 j
  have hstops : Stops [] := fun c hc => by cases hc
  have hskip : skipBlanks (dumps st j) = dumps st j := by
    rw [dumps, hs, skipBlanks_cons s hblank]
  have hreads : scanValue ((dumps st j).length + 1) (dumps st j) = some (j, []) := by
    have happend := @reads st j h 0 ((dumps st j).length + 1) [] (Nat.lt_succ_self _) hstops
    rw [List.append_nil] at happend
    exact happend
  rw [loads, hskip, hreads]
  rfl

end Babycat.Text.Json
