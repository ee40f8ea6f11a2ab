/-
  Babycat.Text.JsonPrefix

  The beginnings of a document.

  What the decoder has read does not depend on what comes behind it
  (`Extends`), and what it leaves is an end of the text (`Leaves`).  So no
  proper beginning of a dict's document is a document, and it does not become
  one by a character that is put behind it (`loads_beginning`).
-/

import Babycat.Text.JsonRoundTrip

namespace Babycat.Text.Json

/-- A text behind a number, which does not go on with it. -/
structure Stopped (s : PyStr) : Prop where
  some : s ≠ []
  stops : Stops s

-- ============================================================================
-- Numbers
-- ============================================================================

section Numbers

variable {s s' : PyStr} (q : PyStr)

theorem digits_extend (h : s.dropWhile isDigit ≠ []) :
    (s ++ q).takeWhile isDigit = s.takeWhile isDigit ∧
      (s ++ q).dropWhile isDigit = s.dropWhile isDigit ++ q := by
  induction s with
  | nil => exact absurd rfl h
  | cons c s ih =>
    by_cases hc : isDigit c = true
    · rw [List.dropWhile_cons_of_pos hc] at h
      rw [List.cons_append, List.takeWhile_cons_of_pos hc, List.takeWhile_cons_of_pos hc,
        List.dropWhile_cons_of_pos hc, List.dropWhile_cons_of_pos hc, (ih h).1, (ih h).2]
      exact ⟨rfl, rfl⟩
    · rw [List.cons_append, List.takeWhile_cons_of_neg hc, List.takeWhile_cons_of_neg hc,
        List.dropWhile_cons_of_neg hc, List.dropWhile_cons_of_neg hc]
      exact ⟨rfl, rfl⟩

theorem readInteger_extend {ds : PyStr} (h : readInteger s = some (ds, s')) (hs : s' ≠ []) :
    readInteger (s ++ q) = some (ds, s' ++ q) := by
  cases s with
  | nil => cases h
  | cons c s =>
    rw [readInteger] at h
    rw [List.cons_append, readInteger]
    split_ifs at h ⊢ with hzero hdigit
    · cases h
      rfl
    · cases h
      obtain ⟨htake, hdrop⟩ := digits_extend q hs
      rw [htake, hdrop]

theorem readFraction_extend {ds : PyStr} (h : readFraction s = (ds, s')) (hs : s' ≠ [])
    (hdot : s' ≠ [dot]) : readFraction (s ++ q) = (ds, s' ++ q) := by
  match s with
  | [] =>
    cases h
    exact absurd rfl hs
  | [c] =>
    cases h
    cases q with
    | nil => rfl
    | cons d q =>
      have hc : c ≠ dot := fun hc => hdot (by rw [hc])
      simp only [List.cons_append, List.nil_append, readFraction, hc, decide_false,
        Bool.false_and, Bool.false_eq_true, if_false]
  | c :: d :: s =>
    rw [readFraction] at h
    rw [List.cons_append, List.cons_append, readFraction]
    split_ifs at h ⊢ with hfraction
    · cases h
      obtain ⟨htake, hdrop⟩ := digits_extend q hs
      rw [htake, hdrop]
    · cases h
      rfl

theorem readExponentSign_extend (hs : s ≠ []) :
    readExponentSign (s ++ q) = ((readExponentSign s).1, (readExponentSign s).2 ++ q) := by
  cases s with
  | nil => exact absurd rfl hs
  | cons c s =>
    rw [List.cons_append, readExponentSign, readExponentSign]
    split_ifs <;> rfl

theorem readExponent_extend {e : Option ℤ} (h : readExponent s = (e, s')) (hs : Stopped s') :
    readExponent (s ++ q) = (e, s' ++ q) := by
  cases s with
  | nil =>
    cases h
    exact absurd rfl hs.some
  | cons c s =>
    simp only [readExponent] at h
    simp only [List.cons_append, readExponent]
    by_cases he : (decide (c = codePoint 'e') || decide (c = codePoint 'E')) = true
    · rw [if_pos he] at h ⊢
      by_cases hdigits : (readExponentSign s).2.takeWhile isDigit = []
      · -- no digit behind the letter: the letter is left
        rw [if_pos hdigits] at h
        cases h
        obtain ⟨-, -, -, -, hlower, hupper⟩ := hs.stops c rfl
        rw [Bool.or_eq_true, decide_eq_true_eq, decide_eq_true_eq] at he
        exact absurd he (not_or.mpr ⟨hlower, hupper⟩)
      · rw [if_neg hdigits] at h
        obtain ⟨rfl, rfl⟩ := Prod.mk.inj h
        have hsome : s ≠ [] := by
          rintro rfl
          exact hdigits rfl
        obtain ⟨htake, hdrop⟩ := digits_extend q hs.some
        rw [readExponentSign_extend q hsome]
        simp only [htake, hdrop, hdigits, if_false]
    · rw [if_neg he] at h ⊢
      cases h
      rfl

/-- What is left of a number is what its exponent leaves. -/
theorem readNumber_rest {v : Number} (h : readNumber s = some (v, s')) :
    ∃ ds s₁, readInteger (readSign s).2 = some (ds, s₁) ∧
      (readExponent (readFraction s₁).2).2 = s' := by
  simp only [readNumber] at h
  cases hint : readInteger (readSign s).2 with
  | none =>
    rw [hint] at h
    cases h
  | some r =>
    obtain ⟨ds, s₁⟩ := r
    rw [hint] at h
    simp only at h
    refine ⟨ds, s₁, rfl, ?_⟩
    split_ifs at h <;> exact (Prod.mk.inj (Option.some.inj h)).2

/-- A number that is followed by something else stays what it is. -/
theorem readNumber_extend {v : Number} (h : readNumber s = some (v, s')) (hs : Stopped s') :
    readNumber (s ++ q) = some (v, s' ++ q) := by
  have hsome : s ≠ [] := by
    rintro rfl
    cases h
  obtain ⟨ds, s₁, hint, hrest⟩ := readNumber_rest h
  have hexponent : readExponent ((readFraction s₁).2 ++ q) =
      ((readExponent (readFraction s₁).2).1, s' ++ q) :=
    readExponent_extend q (by rw [← hrest]) hs
  have hfraction_some : (readFraction s₁).2 ≠ [] := by
    intro hnil
    rw [hnil] at hrest
    exact hs.some hrest.symm
  have hfraction : readFraction (s₁ ++ q) = ((readFraction s₁).1, (readFraction s₁).2 ++ q) := by
    refine readFraction_extend q rfl hfraction_some fun hdot => ?_
    rw [hdot] at hrest
    have hstops := hs.stops
    rw [← hrest] at hstops
    exact (hstops dot rfl).2.1 rfl
  have hint_some : s₁ ≠ [] := by
    rintro rfl
    exact hfraction_some rfl
  simp only [readNumber, hint] at h
  rw [hrest] at h
  simp only [readNumber, readSign_append hsome, readInteger_extend q hint hint_some, hfraction,
    hexponent]
  split_ifs at h ⊢ <;> cases h <;> rfl

end Numbers

-- ============================================================================
-- Strings
-- ============================================================================

section Strings

variable {s s' : PyStr} (q : PyStr)

theorem readHex4_extend {v : ℕ} (h : readHex4 s = some (v, s')) :
    readHex4 (s ++ q) = some (v, s' ++ q) := by
  match s with
  | a :: b :: c :: d :: s =>
    simp only [readHex4] at h
    simp only [List.cons_append, readHex4]
    split at h
    · cases h
      rfl
    · cases h

theorem readLow_extend {v : ℕ} (h : readLow s = some (v, s')) :
    readLow (s ++ q) = some (v, s' ++ q) := by
  match s with
  | c :: u :: s =>
    simp only [readLow] at h
    simp only [List.cons_append, readLow]
    split_ifs at h ⊢ with hescape
    · split at h
      · rename_i low s₁ hlow
        split_ifs at h with hrange
        · cases h
          simp only [readHex4_extend q hlow, if_pos hrange]
      · cases h

/-- An escape that is no low surrogate does not become one by what comes behind the string. -/
theorem readLow_none {n : ℕ} {r : PyStr × PyStr} (h : readLow s = none)
    (hstring : scanString n s = some r) : readLow (s ++ q) = none := by
  obtain ⟨n, rfl⟩ : ∃ m, n = m + 1 := by
    cases n with
    | zero => cases hstring
    | succ m => exact ⟨m, rfl⟩
  match s with
  | [] => cases hstring
  | [c] =>
    have hc : c ≠ backslash := by
      rintro rfl
      rw [scanString, if_neg (by decide), if_pos rfl] at hstring
      cases hstring
    cases q with
    | nil => rfl
    | cons d q =>
      simp only [List.cons_append, List.nil_append, readLow, hc, decide_false, Bool.false_and,
        Bool.false_eq_true, if_false]
  | c :: u :: s =>
    simp only [readLow] at h
    simp only [List.cons_append, readLow]
    split_ifs at h ⊢ with hescape
    · rw [Bool.and_eq_true, decide_eq_true_eq, decide_eq_true_eq] at hescape
      rw [hescape.1, hescape.2, scanString, if_neg (by decide), if_pos rfl, readEscape,
        if_pos rfl] at hstring
      cases hhex : readHex4 s with
      | none =>
        rw [hhex] at hstring
        cases hstring
      | some v =>
        obtain ⟨low, s₁⟩ := v
        rw [hhex] at h
        simp only at h
        split_ifs at h with hrange
        simp only [readHex4_extend q hhex, if_neg hrange]
    · rfl

theorem readEscape_extend {n : ℕ} {c : CodePoint} {r : PyStr × PyStr}
    (h : readEscape s = some (c, s')) (hstring : scanString n s' = some r) :
    readEscape (s ++ q) = some (c, s' ++ q) := by
  cases s with
  | nil => cases h
  | cons letter s =>
    rw [readEscape] at h
    rw [List.cons_append, readEscape]
    split_ifs at h ⊢ with hu
    · cases hhex : readHex4 s with
      | none =>
        rw [hhex] at h
        cases h
      | some v =>
        obtain ⟨high, s₁⟩ := v
        rw [hhex] at h
        simp only at h
        simp only [readHex4_extend q hhex]
        split_ifs at h ⊢ with hsurrogate
        · cases hlow : readLow s₁ with
          | none =>
            rw [hlow] at h
            cases h
            rw [readLow_none q hlow hstring]
          | some low =>
            obtain ⟨low, s₂⟩ := low
            rw [hlow] at h
            obtain ⟨hc, rfl⟩ := Prod.mk.inj (Option.some.inj h)
            rw [readLow_extend q hlow, ← hc]
        · cases h
          rfl
    · obtain ⟨d, hlookup, heq⟩ := Option.map_eq_some_iff.mp h
      cases heq
      rw [hlookup]
      rfl

/-- A string is read up to its closing quotation mark, whatever comes behind it. -/
theorem scanString_extend {n m : ℕ} {t : PyStr} (h : scanString n s = some (t, s'))
    (hm : n ≤ m) : scanString m (s ++ q) = some (t, s' ++ q) := by
  induction n generalizing s t m with
  | zero => cases h
  | succ n ih =>
    obtain ⟨m, rfl⟩ := Nat.exists_eq_add_of_le' (Nat.lt_of_lt_of_le n.succ_pos hm)
    have hm' : n ≤ m := Nat.le_of_succ_le_succ hm
    cases s with
    | nil => cases h
    | cons c s =>
      rw [scanString] at h
      rw [List.cons_append, scanString]
      split_ifs at h ⊢ with hquote hbackslash hcontrol
      · cases h
        rfl
      · split at h
        · cases h
        · rename_i d s₁ hescape
          obtain ⟨⟨u, s₂⟩, hu, heq⟩ := Option.map_eq_some_iff.mp h
          cases heq
          rw [readEscape_extend q hescape hu]
          simp only [ih hu hm', Option.map_some]
      · obtain ⟨⟨u, s₂⟩, hu, heq⟩ := Option.map_eq_some_iff.mp h
        cases heq
        rw [ih hu hm']
        rfl

end Strings

-- ============================================================================
-- Literals
-- ============================================================================

section Scalars

variable {s s' : PyStr} {j : Json}

theorem readWord_eq_some {w : String} {value : Json} (h : readWord w value s = some (j, s')) :
    j = value ∧ s = word w ++ s' := by
  rw [readWord] at h
  split_ifs at h with hpre
  obtain ⟨rest, rfl⟩ := List.isPrefixOf_iff_prefix.mp hpre
  rw [List.drop_left] at h
  obtain ⟨hvalue, hrest⟩ := Prod.mk.inj (Option.some.inj h)
  exact ⟨hvalue.symm, by rw [word, hrest]⟩

/-- What a literal or a number is, with what follows it. -/
theorem scanScalar_cases (h : scanScalar s = some (j, s')) :
    (∃ text, s = text ++ s' ∧ ∀ rest, scanScalar (text ++ rest) = some (j, rest)) ∨
      ∃ v, readNumber s = some (v, s') ∧ j = v.toJson := by
  have horElse : ∀ {x : Option (Json × PyStr)} {f : Unit → Option (Json × PyStr)} {r},
      x.orElse f = some r → x = some r ∨ f () = some r := by
    intro x f r hr
    cases x with
    | none => exact .inr hr
    | some _ => exact .inl hr
  rcases horElse h with hword | h
  · obtain ⟨rfl, rfl⟩ := readWord_eq_some hword
    exact .inl ⟨_, rfl, scanScalar_null⟩
  rcases horElse h with hword | h
  · obtain ⟨rfl, rfl⟩ := readWord_eq_some hword
    exact .inl ⟨_, rfl, scanScalar_bool true⟩
  rcases horElse h with hword | h
  · obtain ⟨rfl, rfl⟩ := readWord_eq_some hword
    exact .inl ⟨_, rfl, scanScalar_bool false⟩
  rcases horElse h with hword | h
  · obtain ⟨rfl, rfl⟩ := readWord_eq_some hword
    exact .inl ⟨_, rfl, scanScalar_nan⟩
  rcases horElse h with hword | h
  · obtain ⟨rfl, rfl⟩ := readWord_eq_some hword
    exact .inl ⟨_, rfl, scanScalar_infinity false⟩
  rcases horElse h with hword | h
  · obtain ⟨rfl, rfl⟩ := readWord_eq_some hword
    exact .inl ⟨_, rfl, scanScalar_infinity true⟩
  obtain ⟨⟨v, s₁⟩, hnumber, heq⟩ := Option.map_eq_some_iff.mp h
  cases heq
  exact .inr ⟨v, hnumber, rfl⟩

theorem scanScalar_extend (q : PyStr) (h : scanScalar s = some (j, s')) (hs : Stopped s') :
    scanScalar (s ++ q) = some (j, s' ++ q) := by
  rcases scanScalar_cases h with ⟨text, rfl, hread⟩ | ⟨v, hnumber, rfl⟩
  · rw [List.append_assoc]
    exact hread _
  · exact scanScalar_number (readNumber_extend q hnumber hs)

end Scalars

-- ============================================================================
-- Values
-- ============================================================================

/-- A value with an end of its own, or one that something else follows. -/
def Ended (s rest : PyStr) : Prop :=
  (∃ c ∈ s.head?, c = quote ∨ c = openDict ∨ c = openList) ∨ Stopped rest

/-- What the decoder reads of a text in `n` steps is what it reads of every longer one. -/
structure Extends (n : ℕ) : Prop where
  value : ∀ s j s', scanValue n s = some (j, s') → Ended s s' →
    ∀ m ≥ n, ∀ q, scanValue m (s ++ q) = some (j, s' ++ q)
  items : ∀ s items s', scanItems n s = some (items, s') →
    ∀ m ≥ n, ∀ q, scanItems m (s ++ q) = some (items, s' ++ q)
  fields : ∀ s fields s', scanFields n s = some (fields, s') →
    ∀ m ≥ n, ∀ q, scanFields m (s ++ q) = some (fields, s' ++ q)

section Extends

variable {n m : ℕ} {s s' t : PyStr} {d : CodePoint}

theorem skipBlanks_some (q : PyStr) (h : skipBlanks s ≠ []) :
    skipBlanks (s ++ q) = skipBlanks s ++ q := by
  have hsome : ¬(s.dropWhile isBlank).isEmpty = true := fun hnil => h (List.isEmpty_iff.mp hnil)
  rw [skipBlanks, List.dropWhile_append, if_neg hsome]
  rfl

theorem skipBlanks_extend (q : PyStr) (h : skipBlanks s = d :: t) :
    skipBlanks (s ++ q) = d :: (t ++ q) := by
  rw [skipBlanks_some q (by rw [h]; exact List.cons_ne_nil d t), h, List.cons_append]

/-- What goes on with a comma or a closing bracket goes on with no number. -/
theorem stopped_of_skip (h : skipBlanks s = d :: t)
    (hd : d = comma ∨ d = closeList ∨ d = closeDict) : Stopped s := by
  cases s with
  | nil => cases h
  | cons c s =>
    refine ⟨List.cons_ne_nil c s, ?_⟩
    cases hblank : isBlank c with
    | true =>
      intro e he
      rw [← Option.some.inj he]
      simp only [isBlank, Bool.or_eq_true, decide_eq_true_eq] at hblank
      rcases hblank with ((rfl | rfl) | rfl) | rfl <;> decide
    | false =>
      rw [skipBlanks_cons s hblank] at h
      obtain ⟨rfl, -⟩ := List.cons.inj h
      exact stops_cons s hd

theorem scanValue_nil (n : ℕ) {r : Json × PyStr} : ¬scanValue n [] = some r := by
  cases n <;> exact fun h => by cases h

theorem scanFields_nil (n : ℕ) {r : List (PyStr × Json) × PyStr} : ¬scanFields n [] = some r := by
  cases n <;> exact fun h => by cases h

theorem scanItems_nil (n : ℕ) {r : List Json × PyStr} : ¬scanItems n [] = some r := by
  intro h
  cases n with
  | zero => cases h
  | succ n =>
    rw [scanItems] at h
    split at h
    · cases h
    · rename_i hvalue
      exact scanValue_nil n hvalue

theorem Extends.scanValue (hn : Extends n) {j : Json} (h : scanValue (n + 1) s = some (j, s'))
    (he : Ended s s') (hm : n + 1 ≤ m) (q : PyStr) : scanValue m (s ++ q) = some (j, s' ++ q) := by
  obtain ⟨m, rfl⟩ := Nat.exists_eq_add_of_le' (Nat.lt_of_lt_of_le n.succ_pos hm)
  have hm' : n ≤ m := Nat.le_of_succ_le_succ hm
  cases s with
  | nil => cases h
  | cons c s =>
    rw [Json.scanValue] at h
    rw [List.cons_append, Json.scanValue]
    split_ifs at h ⊢ with hquote hdict hlist
    · obtain ⟨⟨u, s₁⟩, hu, heq⟩ := Option.map_eq_some_iff.mp h
      cases heq
      rw [scanString_extend q hu hm']
      rfl
    · split at h
      · cases h
      · rename_i d t hskip
        simp only [skipBlanks_extend q hskip]
        split_ifs at h ⊢ with hclose
        · cases h
          rfl
        · obtain ⟨⟨fields, s₁⟩, hr, heq⟩ := Option.map_eq_some_iff.mp h
          cases heq
          have hfields := hn.fields _ _ _ hr m hm' q
          rw [List.cons_append] at hfields
          rw [hfields]
          rfl
    · split at h
      · cases h
      · rename_i d t hskip
        simp only [skipBlanks_extend q hskip]
        split_ifs at h ⊢ with hclose
        · cases h
          rfl
        · obtain ⟨⟨items, s₁⟩, hr, heq⟩ := Option.map_eq_some_iff.mp h
          cases heq
          have hitems := hn.items _ _ _ hr m hm' q
          rw [List.cons_append] at hitems
          rw [hitems]
          rfl
    · rcases he with ⟨e, he, hopen⟩ | hs
      · rw [← Option.some.inj he] at hopen
        exact absurd hopen (by simp only [hquote, hdict, hlist, or_self, not_false_iff])
      · exact scanScalar_extend q h hs

theorem Extends.scanItems (hn : Extends n) {items : List Json}
    (h : scanItems (n + 1) s = some (items, s')) (hm : n + 1 ≤ m) (q : PyStr) :
    scanItems m (s ++ q) = some (items, s' ++ q) := by
  obtain ⟨m, rfl⟩ := Nat.exists_eq_add_of_le' (Nat.lt_of_lt_of_le n.succ_pos hm)
  have hm' : n ≤ m := Nat.le_of_succ_le_succ hm
  rw [Json.scanItems] at h
  rw [Json.scanItems]
  split at h
  · cases h
  · rename_i item s₁ hitem
    split at h
    · cases h
    · rename_i d t hskip
      have hvalue : (d = closeList ∨ d = comma) →
          Json.scanValue m (s ++ q) = some (item, s₁ ++ q) := fun hd =>
        hn.value _ _ _ hitem (.inr (stopped_of_skip hskip (by tauto))) m hm' q
      split_ifs at h with hclose hcomma
      · cases h
        simp only [hvalue (.inl hclose), skipBlanks_extend q hskip, if_pos hclose]
      · obtain ⟨⟨rest, s₂⟩, hr, heq⟩ := Option.map_eq_some_iff.mp h
        cases heq
        have hsome : skipBlanks t ≠ [] := by
          intro hnil
          rw [hnil] at hr
          exact absurd hr (scanItems_nil n)
        simp only [hvalue (.inr hcomma), skipBlanks_extend q hskip, if_neg hclose, if_pos hcomma,
          skipBlanks_some q hsome, hn.items _ _ _ hr m hm' q, Option.map_some]

theorem Extends.scanFields (hn : Extends n) {fields : List (PyStr × Json)}
    (h : scanFields (n + 1) s = some (fields, s')) (hm : n + 1 ≤ m) (q : PyStr) :
    scanFields m (s ++ q) = some (fields, s' ++ q) := by
  obtain ⟨m, rfl⟩ := Nat.exists_eq_add_of_le' (Nat.lt_of_lt_of_le n.succ_pos hm)
  have hm' : n ≤ m := Nat.le_of_succ_le_succ hm
  cases s with
  | nil => cases h
  | cons c s =>
    rw [Json.scanFields] at h
    rw [List.cons_append, Json.scanFields]
    split_ifs at h ⊢ with hquote
    split at h
    · cases h
    · rename_i key s₁ hkey
      simp only [scanString_extend q hkey hm']
      split at h
      · cases h
      · rename_i d t hskip
        simp only [skipBlanks_extend q hskip]
        split_ifs at h ⊢ with hcolon
        split at h
        · cases h
        · rename_i value s₂ hvalue
          have hsome : skipBlanks t ≠ [] := by
            intro hnil
            rw [hnil] at hvalue
            exact absurd hvalue (scanValue_nil n)
          rw [skipBlanks_some q hsome]
          split at h
          · cases h
          · rename_i e u hskip'
            have hread : (e = closeDict ∨ e = comma) →
                Json.scanValue m (skipBlanks t ++ q) = some (value, s₂ ++ q) := fun he =>
              hn.value _ _ _ hvalue (.inr (stopped_of_skip hskip' (by tauto))) m hm' q
            split_ifs at h with hclose hcomma
            · cases h
              simp only [hread (.inl hclose), skipBlanks_extend q hskip', if_pos hclose]
            · obtain ⟨⟨rest, s₃⟩, hr, heq⟩ := Option.map_eq_some_iff.mp h
              cases heq
              have hrest : skipBlanks u ≠ [] := by
                intro hnil
                rw [hnil] at hr
                exact absurd hr (scanFields_nil n)
              simp only [hread (.inr hcomma), skipBlanks_extend q hskip', if_neg hclose,
                if_pos hcomma, skipBlanks_some q hrest, hn.fields _ _ _ hr m hm' q,
                Option.map_some]

theorem extendsAll (n : ℕ) : Extends n := by
  induction n with
  | zero => constructor <;> intro s r s' h <;> cases h
  | succ n ih =>
    exact ⟨fun _ _ _ h he _ hm => ih.scanValue h he hm, fun _ _ _ h _ hm => ih.scanItems h hm,
      fun _ _ _ h _ hm => ih.scanFields h hm⟩

end Extends

-- ============================================================================
-- What is left
-- ============================================================================

section Leaves

variable {s s' : PyStr}

theorem readHex4_suffix {v : ℕ} (h : readHex4 s = some (v, s')) : s' <:+ s := by
  match s with
  | a :: b :: c :: d :: s =>
    simp only [readHex4] at h
    split at h
    · cases h
      exact ⟨[a, b, c, d], rfl⟩
    · cases h

theorem readLow_suffix {v : ℕ} (h : readLow s = some (v, s')) : s' <:+ s := by
  match s with
  | c :: u :: s =>
    simp only [readLow] at h
    split_ifs at h with hescape
    split at h
    · rename_i low s₁ hlow
      split_ifs at h with hrange
      cases h
      exact (readHex4_suffix hlow).trans ⟨[c, u], rfl⟩
    · cases h

theorem readEscape_suffix {c : CodePoint} (h : readEscape s = some (c, s')) : s' <:+ s := by
  cases s with
  | nil => cases h
  | cons letter s =>
    refine List.IsSuffix.trans ?_ (List.suffix_cons letter s)
    rw [readEscape] at h
    split_ifs at h with hu
    · split at h
      · cases h
      · rename_i high s₁ hhex
        refine List.IsSuffix.trans ?_ (readHex4_suffix hhex)
        split_ifs at h with hsurrogate
        · split at h
          · rename_i low s₂ hlow
            obtain ⟨-, rfl⟩ := Prod.mk.inj (Option.some.inj h)
            exact readLow_suffix hlow
          · cases h
            exact List.suffix_refl _
        · cases h
          exact List.suffix_refl _
    · obtain ⟨d, -, heq⟩ := Option.map_eq_some_iff.mp h
      cases heq
      exact List.suffix_refl _

theorem scanString_suffix {n : ℕ} {t : PyStr} (h : scanString n s = some (t, s')) : s' <:+ s := by
  induction n generalizing s t with
  | zero => cases h
  | succ n ih =>
    cases s with
    | nil => cases h
    | cons c s =>
      refine List.IsSuffix.trans ?_ (List.suffix_cons c s)
      rw [scanString] at h
      split_ifs at h with hquote hbackslash hcontrol
      · cases h
        exact List.suffix_refl _
      · split at h
        · cases h
        · rename_i d s₁ hescape
          obtain ⟨⟨u, s₂⟩, hu, heq⟩ := Option.map_eq_some_iff.mp h
          cases heq
          exact (ih hu).trans (readEscape_suffix hescape)
      · obtain ⟨⟨u, s₂⟩, hu, heq⟩ := Option.map_eq_some_iff.mp h
        cases heq
        exact ih hu

theorem readSign_suffix (s : PyStr) : (readSign s).2 <:+ s := by
  cases s with
  | nil => exact List.suffix_refl _
  | cons c s =>
    rw [readSign]
    split
    · exact List.suffix_cons c s
    · exact List.suffix_refl _

theorem readInteger_suffix {ds : PyStr} (h : readInteger s = some (ds, s')) : s' <:+ s := by
  cases s with
  | nil => cases h
  | cons c s =>
    refine List.IsSuffix.trans ?_ (List.suffix_cons c s)
    rw [readInteger] at h
    split_ifs at h
    · cases h
      exact List.suffix_refl _
    · cases h
      exact List.dropWhile_suffix _

theorem readFraction_suffix (s : PyStr) : (readFraction s).2 <:+ s := by
  cases s with
  | nil => exact List.suffix_refl _
  | cons c s =>
    cases s with
    | nil => exact List.suffix_refl _
    | cons d s =>
      rw [readFraction]
      split
      · exact (List.dropWhile_suffix _).trans ⟨[c, d], rfl⟩
      · exact List.suffix_refl _

theorem readExponentSign_suffix (s : PyStr) : (readExponentSign s).2 <:+ s := by
  cases s with
  | nil => exact List.suffix_refl _
  | cons c s =>
    rw [readExponentSign]
    split_ifs
    · exact List.suffix_cons c s
    · exact List.suffix_cons c s
    · exact List.suffix_refl _

theorem readExponent_suffix (s : PyStr) : (readExponent s).2 <:+ s := by
  cases s with
  | nil => exact List.suffix_refl _
  | cons c s =>
    have hafter := (List.dropWhile_suffix isDigit).trans (readExponentSign_suffix s)
    simp only [readExponent]
    split
    · split
      · exact List.suffix_refl _
      · exact hafter.trans (List.suffix_cons c s)
    · exact List.suffix_refl _

theorem readNumber_suffix {v : Number} (h : readNumber s = some (v, s')) : s' <:+ s := by
  obtain ⟨ds, s₁, hint, hrest⟩ := readNumber_rest h
  have hexponent := (readExponent_suffix (readFraction s₁).2).trans (readFraction_suffix s₁)
  rw [hrest] at hexponent
  exact (hexponent.trans (readInteger_suffix hint)).trans (readSign_suffix s)

theorem scanScalar_suffix {j : Json} (h : scanScalar s = some (j, s')) : s' <:+ s := by
  rcases scanScalar_cases h with ⟨text, rfl, -⟩ | ⟨v, hnumber, -⟩
  · exact List.suffix_append text s'
  · exact readNumber_suffix hnumber

/-- What `n` steps of the decoder leave is an end of the text, behind the closing bracket. -/
structure Leaves (n : ℕ) : Prop where
  value : ∀ s j s', scanValue n s = some (j, s') → s' <:+ s
  items : ∀ s items s', scanItems n s = some (items, s') → closeList :: s' <:+ s
  fields : ∀ s fields s', scanFields n s = some (fields, s') → closeDict :: s' <:+ s

variable {n : ℕ}

theorem skipBlanks_suffix {d : CodePoint} {t : PyStr} (h : skipBlanks s = d :: t) : t <:+ s :=
  (List.suffix_cons d t).trans (h ▸ List.dropWhile_suffix isBlank)

/-- A dict is left behind its closing bracket. -/
theorem Leaves.dict (hn : Leaves n) {j : Json}
    (h : scanValue (n + 1) (openDict :: s) = some (j, s')) : closeDict :: s' <:+ s := by
  rw [scanValue, if_neg (by decide), if_pos rfl] at h
  split at h
  · cases h
  · rename_i d t hskip
    have hsuffix : d :: t <:+ s := hskip ▸ List.dropWhile_suffix isBlank
    split_ifs at h with hclose
    · cases h
      rw [← hclose]
      exact hsuffix
    · obtain ⟨⟨fields, s₁⟩, hr, heq⟩ := Option.map_eq_some_iff.mp h
      cases heq
      exact (hn.fields _ _ _ hr).trans hsuffix

theorem Leaves.scanValue (hn : Leaves n) {j : Json} (h : scanValue (n + 1) s = some (j, s')) :
    s' <:+ s := by
  cases s with
  | nil => cases h
  | cons c s =>
    have hread := h
    rw [Json.scanValue] at h
    split_ifs at h with hquote hdict hlist
    · obtain ⟨⟨u, s₁⟩, hu, heq⟩ := Option.map_eq_some_iff.mp h
      cases heq
      exact (scanString_suffix hu).trans (List.suffix_cons c s)
    · rw [hdict] at hread
      exact ((List.suffix_cons _ _).trans (hn.dict hread)).trans (List.suffix_cons c s)
    · refine List.IsSuffix.trans ?_ (List.suffix_cons c s)
      split at h
      · cases h
      · rename_i d t hskip
        split_ifs at h with hclose
        · cases h
          exact skipBlanks_suffix hskip
        · obtain ⟨⟨items, s₁⟩, hr, heq⟩ := Option.map_eq_some_iff.mp h
          cases heq
          exact ((List.suffix_cons _ _).trans (hn.items _ _ _ hr)).trans
            (hskip ▸ List.dropWhile_suffix isBlank)
    · exact scanScalar_suffix h

theorem Leaves.scanItems (hn : Leaves n) {items : List Json}
    (h : scanItems (n + 1) s = some (items, s')) : closeList :: s' <:+ s := by
  rw [Json.scanItems] at h
  split at h
  · cases h
  · rename_i item s₁ hitem
    split at h
    · cases h
    · rename_i d t hskip
      have hsuffix : d :: t <:+ s :=
        (hskip ▸ List.dropWhile_suffix isBlank : d :: t <:+ s₁).trans (hn.value _ _ _ hitem)
      split_ifs at h with hclose hcomma
      · cases h
        rw [← hclose]
        exact hsuffix
      · obtain ⟨⟨rest, s₂⟩, hr, heq⟩ := Option.map_eq_some_iff.mp h
        cases heq
        exact ((hn.items _ _ _ hr).trans (List.dropWhile_suffix _)).trans
          ((List.suffix_cons d t).trans hsuffix)

theorem Leaves.scanFields (hn : Leaves n) {fields : List (PyStr × Json)}
    (h : scanFields (n + 1) s = some (fields, s')) : closeDict :: s' <:+ s := by
  cases s with
  | nil => cases h
  | cons c s =>
    refine List.IsSuffix.trans ?_ (List.suffix_cons c s)
    rw [Json.scanFields] at h
    split_ifs at h with hquote
    split at h
    · cases h
    · rename_i key s₁ hkey
      split at h
      · cases h
      · rename_i d t hskip
        have hcolon : t <:+ s := (skipBlanks_suffix hskip).trans (scanString_suffix hkey)
        split_ifs at h with hd
        split at h
        · cases h
        · rename_i value s₂ hvalue
          have hrest : s₂ <:+ s :=
            ((hn.value _ _ _ hvalue).trans (List.dropWhile_suffix _)).trans hcolon
          split at h
          · cases h
          · rename_i e u hskip'
            have hsuffix : e :: u <:+ s :=
              (hskip' ▸ List.dropWhile_suffix isBlank : e :: u <:+ s₂).trans hrest
            split_ifs at h with hclose hcomma
            · cases h
              rw [← hclose]
              exact hsuffix
            · obtain ⟨⟨rest, s₃⟩, hr, heq⟩ := Option.map_eq_some_iff.mp h
              cases heq
              exact ((hn.fields _ _ _ hr).trans (List.dropWhile_suffix _)).trans
                ((List.suffix_cons e u).trans hsuffix)

theorem leaves (n : ℕ) : Leaves n := by
  induction n with
  | zero => constructor <;> intro s r s' h <;> cases h
  | succ n ih =>
    exact ⟨fun _ _ _ => ih.scanValue, fun _ _ _ => ih.scanItems, fun _ _ _ => ih.scanFields⟩

end Leaves

-- ============================================================================
-- Beginnings of a document
-- ============================================================================

section Beginnings

/-- A dict is written between its brackets. -/
theorem dumps_dict (st : Style) (items : List (PyStr × Json)) :
    ∃ s, dumps st (.dict items) = openDict :: (s ++ [closeDict]) := by
  cases items with
  | nil => exact ⟨[], rfl⟩
  | cons field fields => exact ⟨_, rfl⟩

theorem skipBlanks_dict (s : PyStr) : skipBlanks (openDict :: s) = openDict :: s :=
  skipBlanks_cons s (by decide)

/-- A document of a dict ends with its closing bracket. -/
theorem loads_end {s : PyStr} {c : CodePoint} (hblank : isBlank c = false) (hc : c ≠ closeDict) :
    loads (openDict :: (s ++ [c])) = none := by
  rw [loads, skipBlanks_dict]
  split
  · rename_i value rest hvalue
    rw [if_neg]
    intro hskip
    obtain ⟨u, hu⟩ := (leaves _).dict hvalue
    cases hrest : rest.getLast? with
    | none =>
      -- the last character is the bracket
      rw [List.getLast?_eq_none_iff.mp hrest] at hu
      obtain ⟨-, hlast⟩ := List.append_inj' hu rfl
      exact hc (List.singleton_inj.mp hlast).symm
    | some d =>
      -- the last character is a blank
      obtain ⟨v, rfl⟩ := List.getLast?_eq_some_iff.mp hrest
      rw [← List.cons_append, ← List.append_assoc] at hu
      obtain ⟨-, hlast⟩ := List.append_inj' hu rfl
      have hall := List.dropWhile_eq_nil_iff.mp hskip d (List.mem_append_right v List.mem_cons_self)
      rw [List.singleton_inj.mp hlast, hblank] at hall
      cases hall
  · rfl

/-- No beginning of a dict's document but the whole is a document. -/
theorem loads_beginning (st : Style) {items : List (PyStr × Json)} (h : WellFormed (.dict items))
    {p q : PyStr} (hpq : p ++ q = dumps st (.dict items)) (hq : q ≠ []) : loads p = none := by
  obtain ⟨s, hs⟩ := dumps_dict st items
  cases p with
  | nil => rfl
  | cons c p =>
    have hc : c = openDict := by
      rw [hs] at hpq
      exact (List.cons.inj hpq).1
    rw [hc, loads, skipBlanks_dict]
    split
    · rename_i value rest hvalue
      exfalso
      -- enough steps for both texts
      obtain ⟨n, hshort, hwhole⟩ : ∃ n, (openDict :: p).length + 1 ≤ n ∧
          (dumpsAt st 0 (.dict items)).length < n :=
        ⟨(openDict :: p).length + 1 + (dumpsAt st 0 (.dict items)).length + 1,
          by omega, by omega⟩
      have hlong := (extendsAll _).value _ _ _ hvalue (.inl ⟨openDict, rfl, .inr (.inl rfl)⟩)
        n hshort q
      have hreads := @reads st (.dict items) h 0 n [] hwhole fun c hc => by cases hc
      rw [List.append_nil, ← dumps, ← hpq, hc, hlong] at hreads
      have hrest : rest ++ q = [] := (Prod.mk.inj (Option.some.inj hreads)).2
      exact hq (List.append_eq_nil_iff.mp hrest).2
    · rfl

end Beginnings

end Babycat.Text.Json
