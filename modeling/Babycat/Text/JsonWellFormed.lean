/-
  Babycat.Text.JsonWellFormed

  The values that `json.loads` yields: integers of at most `maxStrDigits`
  digits, and dicts with distinct keys.
-/

import Babycat.Text.JsonText

namespace Babycat.Text.Json

-- ============================================================================
-- Values
-- ============================================================================

/-- Induction over the items of lists and the values of dicts. -/
@[elab_as_elim]
theorem items_induction {P : Json → Prop} (null : P .null) (bool : ∀ b, P (.bool b))
    (int : ∀ n, P (.int n)) (float : ∀ x, P (.float x)) (str : ∀ s, P (.str s))
    (list : ∀ items, (∀ x ∈ items, P x) → P (.list items))
    (dict : ∀ items, (∀ f ∈ items, P f.2) → P (.dict items)) (j : Json) : P j :=
  match j with
  | .null => null
  | .bool b => bool b
  | .int n => int n
  | .float x => float x
  | .str s => str s
  | .list items => list items fun x _ => items_induction null bool int float str list dict x
  | .dict items => dict items fun f _ => items_induction null bool int float str list dict f.2
termination_by j
decreasing_by
  · have hlt := List.sizeOf_lt_of_mem ‹x ∈ items›
    simp only [Json.list.sizeOf_spec]
    omega
  · have hlt := List.sizeOf_lt_of_mem ‹f ∈ items›
    have hsnd : sizeOf f.2 < sizeOf f := by
      obtain ⟨k, v⟩ := f
      simp only [Prod.mk.sizeOf_spec]
      omega
    simp only [Json.dict.sizeOf_spec]
    omega

mutual

/-- A check holds of a value and of all values in it. -/
def all (p : Json → Bool) : Json → Bool
  | .list items => p (.list items) && allItems p items
  | .dict items => p (.dict items) && allFields p items
  | j => p j

def allItems (p : Json → Bool) : List Json → Bool
  | [] => true
  | item :: items => all p item && allItems p items

def allFields (p : Json → Bool) : List (PyStr × Json) → Bool
  | [] => true
  | field :: fields => all p field.2 && allFields p fields

end

section All

variable {p : Json → Bool}

theorem allItems_eq (p : Json → Bool) (items : List Json) : allItems p items = items.all (all p) := by
  induction items with
  | nil => rfl
  | cons item items ih => rw [allItems, List.all_cons, ih]

theorem allFields_eq (p : Json → Bool) (fields : List (PyStr × Json)) :
    allFields p fields = fields.all fun f => all p f.2 := by
  induction fields with
  | nil => rfl
  | cons field fields ih => rw [allFields, List.all_cons, ih]

theorem all_list (items : List Json) :
    all p (.list items) = true ↔ p (.list items) = true ∧ ∀ x ∈ items, all p x = true := by
  rw [all, allItems_eq, Bool.and_eq_true, List.all_eq_true]

theorem all_dict (items : List (PyStr × Json)) :
    all p (.dict items) = true ↔ p (.dict items) = true ∧ ∀ f ∈ items, all p f.2 = true := by
  rw [all, allFields_eq, Bool.and_eq_true, List.all_eq_true]

theorem all_of_forall (h : ∀ v, p v = true) (j : Json) : all p j = true := by
  induction j using items_induction with
  | list items ih => exact (all_list items).mpr ⟨h _, ih⟩
  | dict items ih => exact (all_dict items).mpr ⟨h _, ih⟩
  | null | bool | int | float | str => exact h _

end All

/-- The integers that `int` reads, and distinct keys. -/
def plain : Json → Bool
  | .int n => n.natAbs < 10 ^ maxStrDigits
  | .dict items => decide (items.map Prod.fst).Nodup
  | _ => true

/-- A value as the decoder yields it. -/
def WellFormed (j : Json) : Prop := all plain j = true

instance (j : Json) : Decidable (WellFormed j) := inferInstanceAs (Decidable (_ = true))

theorem wellFormed_int {n : ℤ} : WellFormed (.int n) ↔ n.natAbs < 10 ^ maxStrDigits := by
  simp only [WellFormed, all, plain, decide_eq_true_eq]

theorem wellFormed_list {items : List Json} :
    WellFormed (.list items) ↔ ∀ x ∈ items, WellFormed x :=
  (all_list items).trans (and_iff_right rfl)

theorem wellFormed_dict {items : List (PyStr × Json)} :
    WellFormed (.dict items) ↔ (items.map Prod.fst).Nodup ∧ ∀ f ∈ items, WellFormed f.2 := by
  rw [WellFormed, all_dict, plain, decide_eq_true_eq]
  rfl

-- ============================================================================
-- Dicts
-- ============================================================================

section Dicts

theorem setItem_of_not_mem {α : Type} {key : PyStr} {value : α} {items : List (PyStr × α)}
    (h : key ∉ items.map Prod.fst) : setItem key value items = items ++ [(key, value)] := by
  induction items with
  | nil => rfl
  | cons item items ih =>
    rw [List.map_cons, List.mem_cons, not_or] at h
    rw [setItem, if_neg (Ne.symm h.1), ih h.2, List.cons_append]

/-- Distinct keys make the dict that lists them. -/
theorem foldl_setItem (fields acc : List (PyStr × Json))
    (h : ((acc ++ fields).map Prod.fst).Nodup) :
    fields.foldl (fun items f => setItem f.1 f.2 items) acc = acc ++ fields := by
  induction fields generalizing acc with
  | nil => rw [List.foldl_nil, List.append_nil]
  | cons field fields ih =>
    have hne : field.1 ∉ acc.map Prod.fst := by
      rw [List.map_append, List.map_cons, List.nodup_middle, List.nodup_cons, List.mem_append] at h
      exact fun hmem => h.1 (.inl hmem)
    have hcons : acc ++ field :: fields = acc ++ [field] ++ fields := by
      rw [List.append_assoc, List.singleton_append]
    rw [hcons] at h
    rw [List.foldl_cons, setItem_of_not_mem hne, ih (acc ++ [field]) h, hcons]

theorem mem_setItem {α : Type} {key : PyStr} {value : α} {items : List (PyStr × α)} {f : PyStr × α}
    (h : f ∈ setItem key value items) : f = (key, value) ∨ f ∈ items := by
  induction items with
  | nil => exact .inl (List.mem_singleton.mp h)
  | cons item items ih =>
    obtain ⟨k, v⟩ := item
    rw [setItem] at h
    split_ifs at h with hk
    · rcases List.mem_cons.mp h with rfl | hmem
      · exact .inl (by rw [hk])
      · exact .inr (List.mem_cons_of_mem _ hmem)
    · rcases List.mem_cons.mp h with rfl | hmem
      · exact .inr List.mem_cons_self
      · rcases ih hmem with hf | hf
        · exact .inl hf
        · exact .inr (List.mem_cons_of_mem _ hf)

theorem nodup_setItem {α : Type} (key : PyStr) (value : α) {items : List (PyStr × α)}
    (h : (items.map Prod.fst).Nodup) : ((setItem key value items).map Prod.fst).Nodup := by
  induction items with
  | nil => exact List.nodup_singleton key
  | cons item items ih =>
    obtain ⟨k, v⟩ := item
    rw [List.map_cons, List.nodup_cons] at h
    rw [setItem]
    split_ifs with hk
    · exact List.nodup_cons.mpr h
    · rw [List.map_cons, List.nodup_cons]
      refine ⟨fun hmem => ?_, ih h.2⟩
      obtain ⟨f, hf, hfst⟩ := List.mem_map.mp hmem
      rcases mem_setItem hf with rfl | hf
      · exact hk hfst.symm
      · exact h.1 (List.mem_map.mpr ⟨f, hf, hfst⟩)

/-- A dict that is built item by item. -/
theorem wellFormed_fold (fields acc : List (PyStr × Json)) (hacc : WellFormed (.dict acc))
    (h : ∀ f ∈ fields, WellFormed f.2) :
    WellFormed (.dict (fields.foldl (fun items f => setItem f.1 f.2 items) acc)) := by
  induction fields generalizing acc with
  | nil => exact hacc
  | cons field fields ih =>
    obtain ⟨hkeys, hvalues⟩ := wellFormed_dict.mp hacc
    refine ih _ (wellFormed_dict.mpr ⟨nodup_setItem _ _ hkeys, fun f hf => ?_⟩)
      fun f hf => h f (List.mem_cons_of_mem field hf)
    rcases mem_setItem hf with rfl | hf
    · exact h field List.mem_cons_self
    · exact hvalues f hf

end Dicts

-- ============================================================================
-- What is read
-- ============================================================================

section Decoder

theorem digitsValue_lt (ds : PyStr) (h : ∀ c ∈ ds, isDigit c = true) :
    digitsValue ds < 10 ^ ds.length := by
  unfold digitsValue
  induction ds using List.reverseRecOn with
  | nil => decide
  | append_singleton ds c ih =>
    have hds := ih fun d hd => h d (List.mem_append_left [c] hd)
    have hc := h c (List.mem_append_right ds List.mem_cons_self)
    simp only [isDigit, Bool.and_eq_true, decide_eq_true_eq] at hc
    rw [List.foldl_append, List.foldl_cons, List.foldl_nil, List.length_append,
      List.length_singleton, pow_succ, digitOf]
    omega

theorem readInteger_digits {s ds s' : PyStr} (h : readInteger s = some (ds, s')) :
    ∀ c ∈ ds, isDigit c = true := by
  cases s with
  | nil => cases h
  | cons c s =>
    rw [readInteger] at h
    split_ifs at h with hzero hdigit
    · cases h
      intro d hd
      rw [List.mem_singleton.mp hd, hzero]
      decide
    · cases h
      intro d hd
      rcases List.mem_cons.mp hd with rfl | hd
      · exact hdigit
      · exact List.mem_takeWhile_imp hd

theorem wellFormed_number {s s' : PyStr} {v : Number} (h : readNumber s = some (v, s')) :
    WellFormed v.toJson := by
  simp only [readNumber] at h
  cases hint : readInteger (readSign s).2 with
  | none =>
    rw [hint] at h
    cases h
  | some r =>
    obtain ⟨ds, s₁⟩ := r
    rw [hint] at h
    simp only at h
    split_ifs at h with hplain hlen hnegative
    · have hlt := (digitsValue_lt ds (readInteger_digits hint)).trans_le
        (Nat.pow_le_pow_right (by decide) hlen)
      cases h
      refine wellFormed_int.mpr ?_
      rw [Int.natAbs_neg, Int.natAbs_natCast]
      exact hlt
    · have hlt := (digitsValue_lt ds (readInteger_digits hint)).trans_le
        (Nat.pow_le_pow_right (by decide) hlen)
      cases h
      exact wellFormed_int.mpr hlt
    · obtain ⟨hv, -⟩ := Prod.mk.inj (Option.some.inj h)
      rw [← hv]
      rfl

theorem wellFormed_orElse {x : Option (Json × PyStr)} {f : Unit → Option (Json × PyStr)}
    (hx : ∀ r, x = some r → WellFormed r.1) (hf : ∀ r, f () = some r → WellFormed r.1) :
    ∀ r, x.orElse f = some r → WellFormed r.1 := by
  intro r h
  cases x with
  | none => exact hf r h
  | some _ => exact hx r h

theorem wellFormed_word (w : String) {value : Json} {s : PyStr} (hvalue : WellFormed value) :
    ∀ r, readWord w value s = some r → WellFormed r.1 := by
  intro r h
  rw [readWord] at h
  split_ifs at h
  cases h
  exact hvalue

theorem wellFormed_scalar (s : PyStr) : ∀ r, scanScalar s = some r → WellFormed r.1 := by
  refine wellFormed_orElse (wellFormed_word "null" rfl) ?_
  refine wellFormed_orElse (wellFormed_word "true" rfl) ?_
  refine wellFormed_orElse (wellFormed_word "false" rfl) ?_
  refine wellFormed_orElse (wellFormed_word "NaN" rfl) ?_
  refine wellFormed_orElse (wellFormed_word "Infinity" rfl) ?_
  refine wellFormed_orElse (wellFormed_word "-Infinity" rfl) ?_
  intro r h
  obtain ⟨v, hnumber, rfl⟩ := Option.map_eq_some_iff.mp h
  exact wellFormed_number hnumber

/-- What the decoder reads in `n` steps. -/
structure Yields (n : ℕ) : Prop where
  value : ∀ s r, scanValue n s = some r → WellFormed r.1
  items : ∀ s r, scanItems n s = some r → ∀ x ∈ r.1, WellFormed x
  fields : ∀ s r, scanFields n s = some r → ∀ f ∈ r.1, WellFormed f.2

theorem Yields.scanValue {n : ℕ} (hn : Yields n) {s : PyStr} {r : Json × PyStr}
    (h : scanValue (n + 1) s = some r) : WellFormed r.1 := by
  cases s with
  | nil => cases h
  | cons c s =>
    rw [Json.scanValue] at h
    split_ifs at h with hquote hdict hlist
    · obtain ⟨r, -, rfl⟩ := Option.map_eq_some_iff.mp h
      rfl
    · split at h
      · cases h
      · split_ifs at h with hclose
        · cases h
          rfl
        · obtain ⟨r, hr, rfl⟩ := Option.map_eq_some_iff.mp h
          exact wellFormed_fold r.1 [] rfl (hn.fields _ r hr)
    · split at h
      · cases h
      · split_ifs at h with hclose
        · cases h
          rfl
        · obtain ⟨r, hr, rfl⟩ := Option.map_eq_some_iff.mp h
          exact wellFormed_list.mpr (hn.items _ r hr)
    · exact wellFormed_scalar _ r h

theorem Yields.scanItems {n : ℕ} (hn : Yields n) {s : PyStr} {r : List Json × PyStr}
    (h : scanItems (n + 1) s = some r) : ∀ x ∈ r.1, WellFormed x := by
  rw [Json.scanItems] at h
  split at h
  · cases h
  · rename_i item s₁ hitem
    have hwell := hn.value s (item, s₁) hitem
    split at h
    · cases h
    · split_ifs at h with hclose hcomma
      · cases h
        exact List.forall_mem_singleton.mpr hwell
      · obtain ⟨r, hr, rfl⟩ := Option.map_eq_some_iff.mp h
        exact List.forall_mem_cons.mpr ⟨hwell, hn.items _ r hr⟩

theorem Yields.scanFields {n : ℕ} (hn : Yields n) {s : PyStr} {r : List (PyStr × Json) × PyStr}
    (h : scanFields (n + 1) s = some r) : ∀ f ∈ r.1, WellFormed f.2 := by
  cases s with
  | nil => cases h
  | cons c s =>
    rw [Json.scanFields] at h
    split_ifs at h with hquote
    split at h
    · cases h
    · rename_i key s₁ hkey
      split at h
      · cases h
      · split_ifs at h with hcolon
        split at h
        · cases h
        · rename_i value s₂ hvalue
          have hwell := hn.value _ (value, s₂) hvalue
          split at h
          · cases h
          · split_ifs at h with hclose hcomma
            · cases h
              exact List.forall_mem_singleton.mpr hwell
            · obtain ⟨r, hr, rfl⟩ := Option.map_eq_some_iff.mp h
              exact List.forall_mem_cons.mpr ⟨hwell, hn.fields _ r hr⟩

theorem yields (n : ℕ) : Yields n := by
  induction n with
  | zero => constructor <;> intro s r h <;> cases h
  | succ n ih => exact ⟨fun _ _ => ih.scanValue, fun _ _ => ih.scanItems, fun _ _ => ih.scanFields⟩

end Decoder

/-- `json.loads` yields values that are written and read back. -/
theorem loads_wellFormed {s : PyStr} {j : Json} (h : loads s = some j) : WellFormed j := by
  rw [loads] at h
  split at h
  · rename_i value rest hvalue
    have hwell := (yields _).value _ (value, rest) hvalue
    split_ifs at h with hrest
    cases h
    exact hwell
  · cases h

end Babycat.Text.Json
