/-
  Babycat.Analyzer.Vocabulary

  The label vocabulary that a client sends (`settings.py`, `clean_labels` and
  `validate_labels`).

  A `Vocabulary` is what cleaning leaves: distinct stripped names, each with
  stripped synonyms in lower case.  Cleaning drops what it does not know and
  merges names that become equal; `validate_labels` compares two counts to see
  whether it did.
-/

import Babycat.Text.Json
import Babycat.Text.Lower
import Mathlib.Data.List.Forall2

namespace Babycat.Settings

open Babycat.Text

-- ============================================================================
-- Vocabularies
-- ============================================================================

/-- Not empty, with nothing to strip. -/
def Clean (s : PyStr) : Prop := strip s = s ∧ s ≠ []

instance (s : PyStr) : Decidable (Clean s) := inferInstanceAs (Decidable (_ ∧ _))

/-- A label and its synonyms. -/
@[ext] structure Group (T : CaseTables) where
  name : PyStr
  words : List PyStr
  name_clean : Clean name
  words_clean : ∀ w ∈ words, Clean w ∧ lower T w = w

/-- `labels[group.name] = group.words` -/
def setGroup {T : CaseTables} (group : Group T) : List (Group T) → List (Group T)
  | [] => [group]
  | g :: groups => if g.name = group.name then group :: groups else g :: setGroup group groups

/-- The names of a list of groups. -/
def names {T : CaseTables} (groups : List (Group T)) : List PyStr := groups.map Group.name

section Groups

variable {T : CaseTables} {group : Group T} {groups : List (Group T)}

theorem setGroup_new (h : group.name ∉ names groups) :
    setGroup group groups = groups ++ [group] := by
  induction groups with
  | nil => rfl
  | cons g groups ih =>
    obtain ⟨hne, hrest⟩ := List.ne_and_not_mem_of_not_mem_cons h
    rw [setGroup, if_neg (Ne.symm hne), ih hrest]
    rfl

theorem names_setGroup_old (h : group.name ∈ names groups) :
    names (setGroup group groups) = names groups := by
  induction groups with
  | nil => cases h
  | cons g groups ih =>
    rw [setGroup]
    by_cases hname : g.name = group.name
    · rw [if_pos hname]
      show group.name :: names groups = g.name :: names groups
      rw [hname]
    · rw [if_neg hname]
      rcases List.mem_cons.mp h with heq | hrest
      · exact absurd heq.symm hname
      · exact congrArg (g.name :: ·) (ih hrest)

theorem names_setGroup_nodup (h : (names groups).Nodup) :
    (names (setGroup group groups)).Nodup := by
  by_cases hmem : group.name ∈ names groups
  · rw [names_setGroup_old hmem]
    exact h
  · rw [setGroup_new hmem, names, List.map_append, List.nodup_append]
    refine ⟨h, List.nodup_singleton _, fun a ha b hb => ?_⟩
    rw [List.mem_singleton.mp hb]
    rintro rfl
    exact hmem ha

end Groups

/-- A label vocabulary, in the order of insertion. -/
@[ext] structure Vocabulary (T : CaseTables) where
  groups : List (Group T)
  nodup : (names groups).Nodup

namespace Vocabulary

variable {T : CaseTables}

def empty : Vocabulary T := ⟨[], List.nodup_nil⟩

def set (v : Vocabulary T) (group : Group T) : Vocabulary T :=
  ⟨setGroup group v.groups, names_setGroup_nodup v.nodup⟩

/-- The `dict` of the vocabulary. -/
def toJson (v : Vocabulary T) : Json :=
  .dict (v.groups.map fun g => (g.name, .list (g.words.map .str)))

/-- Setting new names appends the groups. -/
theorem foldl_set_new (v : Vocabulary T) (gs : List (Group T))
    (h : (names v.groups ++ names gs).Nodup) : (gs.foldl set v).groups = v.groups ++ gs := by
  induction gs generalizing v with
  | nil => exact (List.append_nil _).symm
  | cons g gs ih =>
    have hnew : g.name ∉ names v.groups := by
      intro hmem
      exact (List.nodup_append.mp h).2.2 _ hmem _ List.mem_cons_self rfl
    have hset : (v.set g).groups = v.groups ++ [g] := setGroup_new hnew
    have hnames : names (v.set g).groups ++ names gs = names v.groups ++ names (g :: gs) := by
      rw [hset]
      simp [names]
    rw [List.foldl_cons, ih (v.set g) (by rw [hnames]; exact h), hset, List.append_assoc]
    rfl

theorem foldl_set_length_le (v : Vocabulary T) (gs : List (Group T)) :
    (gs.foldl set v).groups.length ≤ v.groups.length + gs.length := by
  induction gs generalizing v with
  | nil => exact le_rfl
  | cons g gs ih =>
    have hone : (v.set g).groups.length ≤ v.groups.length + 1 := by
      by_cases hmem : g.name ∈ names v.groups
      · have hlen := congrArg List.length (names_setGroup_old hmem)
        simp only [names, List.length_map] at hlen
        show (setGroup g v.groups).length ≤ _
        omega
      · show (setGroup g v.groups).length ≤ _
        rw [setGroup_new hmem, List.length_append, List.length_singleton]
    have hrest := ih (v.set g)
    rw [List.foldl_cons, List.length_cons]
    omega

/-- No name was set twice when every group counts. -/
theorem nodup_of_foldl_set (v : Vocabulary T) (gs : List (Group T))
    (h : (gs.foldl set v).groups.length = v.groups.length + gs.length) :
    (names v.groups ++ names gs).Nodup := by
  induction gs generalizing v with
  | nil => exact (List.append_nil (names v.groups)).symm ▸ v.nodup
  | cons g gs ih =>
    rw [List.foldl_cons, List.length_cons] at h
    have hle := foldl_set_length_le (v.set g) gs
    by_cases hmem : g.name ∈ names v.groups
    · have hlen := congrArg List.length (names_setGroup_old hmem)
      simp only [names, List.length_map] at hlen
      have hset : (v.set g).groups.length = v.groups.length := hlen
      omega
    · have hset : (v.set g).groups = v.groups ++ [g] := setGroup_new hmem
      have hlen : (v.set g).groups.length = v.groups.length + 1 := by
        rw [hset, List.length_append, List.length_singleton]
      have hnodup := ih (v.set g) (by omega)
      rw [hset] at hnodup
      simpa [names] using hnodup

end Vocabulary

-- ============================================================================
-- The functions
-- ============================================================================

section Clean

variable (T : CaseTables)

/-- A synonym that is kept. -/
def cleanWord : Json → Option PyStr
  | .str s => if nonBlank s then some (lower T (strip s)) else none
  | _ => none

theorem clean_strip {s : PyStr} (h : nonBlank s = true) : Clean (strip s) :=
  ⟨strip_idem s, bne_iff_ne.mp h⟩

theorem cleanWord_clean {value : Json} {w : PyStr} (h : cleanWord T value = some w) :
    Clean w ∧ lower T w = w := by
  cases value with
  | str s =>
    rw [cleanWord] at h
    split at h
    · rename_i hs
      cases h
      exact ⟨⟨strip_lower T (strip_idem s), lower_ne_nil T (clean_strip hs).2⟩, lower_idem T _⟩
    · cases h
  | _ => cases h

/-- A group that is kept. -/
def cleanGroup (item : PyStr × Json) : Option (Group T) :=
  match item.2 with
  | .list syns =>
      if h : nonBlank item.1 = true then
        some {
          name := strip item.1
          words := syns.filterMap (cleanWord T)
          name_clean := clean_strip h
          words_clean := fun _ hw =>
            have ⟨_, _, hclean⟩ := List.mem_filterMap.mp hw
            cleanWord_clean T hclean }
      else none
  | _ => none

/-- `clean_labels` -/
def cleanLabels : Json → Vocabulary T
  | .dict items =>
      items.foldl (fun labels item =>
        match cleanGroup T item with
        | some group => labels.set group
        | none => labels) .empty
  | _ => .empty

/-- `len(v) if isinstance(v, list)` -/
def listLength : Json → ℕ
  | .list items => items.length
  | _ => 0

/-- `validate_labels` -/
def validateLabels : Json → Option (Vocabulary T)
  | .dict items =>
      let cleaned := cleanLabels T (.dict items)
      if cleaned.groups.length ≠ items.length then none
      else
        let sent := (items.map fun item => listLength item.2).sum
        let kept := (cleaned.groups.map fun g => g.words.length).sum
        if kept = sent then some cleaned else none
  | _ => none

end Clean

-- ============================================================================
-- Counting
-- ============================================================================

section Counting

variable {α β : Type} {f : α → Option β} {l : List α} {m : List β}

/-- Nothing is dropped when every element has a value. -/
theorem forall₂_filterMap (h : ∀ a ∈ l, (f a).isSome = true) :
    List.Forall₂ (fun a b => f a = some b) l (l.filterMap f) := by
  induction l with
  | nil => exact .nil
  | cons a l ih =>
    obtain ⟨b, hb⟩ := Option.isSome_iff_exists.mp (h a List.mem_cons_self)
    rw [List.filterMap_cons_some hb]
    exact .cons hb (ih fun x hx => h x (List.mem_cons_of_mem a hx))

theorem forall₂_and {r s : α → β → Prop} (hr : List.Forall₂ r l m) (hs : List.Forall₂ s l m) :
    List.Forall₂ (fun a b => r a b ∧ s a b) l m := by
  induction hr with
  | nil => exact .nil
  | cons hab _ ih =>
    cases hs with
    | cons hab' hrest => exact .cons ⟨hab, hab'⟩ (ih hrest)

theorem forall₂_of_mem {r : α → β → Prop} (h : List.Forall₂ r l m) {a : α} (ha : a ∈ l) :
    ∃ b, r a b := by
  induction h with
  | nil => cases ha
  | cons hab _ ih =>
    rcases List.mem_cons.mp ha with rfl | ha
    · exact ⟨_, hab⟩
    · exact ih ha

theorem filterMap_of_forall₂ (h : List.Forall₂ (fun a b => f a = some b) l m) :
    l.filterMap f = m := by
  induction h with
  | nil => rfl
  | cons hab _ ih => rw [List.filterMap_cons_some hab, ih]

/-- Nothing was dropped when the lengths agree. -/
theorem isSome_of_length (h : (l.filterMap f).length = l.length) :
    ∀ a ∈ l, (f a).isSome = true := by
  induction l with
  | nil =>
    intro a ha
    cases ha
  | cons a l ih =>
    have hle := List.length_filterMap_le f l
    cases ha : f a with
    | none =>
      rw [List.filterMap_cons_none ha, List.length_cons] at h
      omega
    | some b =>
      rw [List.filterMap_cons_some ha, List.length_cons, List.length_cons] at h
      intro x hx
      rcases List.mem_cons.mp hx with rfl | hx
      · rw [ha]
        rfl
      · exact ih (by omega) x hx

/-- No part can be short when the sums agree. -/
theorem forall₂_eq_of_sum {p : α → ℕ} {q : β → ℕ} (hle : List.Forall₂ (fun a b => q b ≤ p a) l m)
    (hsum : (m.map q).sum = (l.map p).sum) : List.Forall₂ (fun a b => q b = p a) l m := by
  have hbound : ∀ {l : List α} {m : List β}, List.Forall₂ (fun a b => q b ≤ p a) l m →
      (m.map q).sum ≤ (l.map p).sum := by
    intro l m h
    induction h with
    | nil => exact le_rfl
    | cons hab _ ih =>
      simp only [List.map_cons, List.sum_cons]
      omega
  induction hle with
  | nil => exact .nil
  | cons hab hrest ih =>
    have hrest' := hbound hrest
    simp only [List.map_cons, List.sum_cons] at hsum
    exact .cons (by omega) (ih (by omega))

end Counting

-- ============================================================================
-- What is let in
-- ============================================================================

section Strict

variable {T : CaseTables}

/-- The synonyms of a value that is a list of strings with content. -/
def Synonyms (value : Json) (syns : List PyStr) : Prop :=
  value = .list (syns.map .str) ∧ ∀ s ∈ syns, nonBlank s = true

/-- Every name has content, every value is a list of strings with content, and no two names become
    equal. -/
structure StrictLabels (items : List (PyStr × Json)) : Prop where
  named : ∀ item ∈ items, nonBlank item.1 = true
  worded : ∀ item ∈ items, ∃ syns, Synonyms item.2 syns
  nodup : (items.map fun item => strip item.1).Nodup

/-- The group of an item: its name stripped, its synonyms stripped and in lower case, in order. -/
def Becomes (item : PyStr × Json) (g : Group T) : Prop :=
  g.name = strip item.1 ∧
    ∃ syns, Synonyms item.2 syns ∧ g.words = syns.map fun s => lower T (strip s)

/-- No synonym is dropped from a list exactly when all are strings with content. -/
theorem synonyms_of_length {values : List Json}
    (h : (values.filterMap (cleanWord T)).length = values.length) :
    ∃ syns, Synonyms (.list values) syns ∧
      values.filterMap (cleanWord T) = syns.map fun s => lower T (strip s) := by
  have hall := isSome_of_length h
  have hstr : ∃ syns : List PyStr, values = syns.map .str ∧ ∀ s ∈ syns, nonBlank s = true := by
    clear h
    induction values with
    | nil => exact ⟨[], rfl, fun s hs => by cases hs⟩
    | cons value values ih =>
      obtain ⟨syns, rfl, hsyns⟩ := ih fun a ha => hall a (List.mem_cons_of_mem _ ha)
      have hvalue := hall value List.mem_cons_self
      cases value with
      | str s =>
        refine ⟨s :: syns, rfl, fun x hx => ?_⟩
        rcases List.mem_cons.mp hx with rfl | hx
        · by_contra hblank
          rw [cleanWord, if_neg hblank] at hvalue
          cases hvalue
        · exact hsyns x hx
      | _ => cases hvalue
  obtain ⟨syns, rfl, hsyns⟩ := hstr
  refine ⟨syns, ⟨rfl, hsyns⟩, filterMap_of_forall₂ ?_⟩
  rw [List.forall₂_map_left_iff, List.forall₂_map_right_iff, List.forall₂_same]
  intro s hs
  rw [cleanWord, if_pos (hsyns s hs)]

theorem cleanWord_synonyms {value : Json} {syns : List PyStr} (h : Synonyms value syns) :
    ∃ values, value = .list values ∧
      values.filterMap (cleanWord T) = syns.map (fun s => lower T (strip s)) ∧
      values.length = syns.length := by
  obtain ⟨rfl, hsyns⟩ := h
  refine ⟨_, rfl, filterMap_of_forall₂ ?_, List.length_map _⟩
  rw [List.forall₂_map_left_iff, List.forall₂_map_right_iff, List.forall₂_same]
  intro s hs
  rw [cleanWord, if_pos (hsyns s hs)]

theorem cleanGroup_eq_some {item : PyStr × Json} {g : Group T} (h : cleanGroup T item = some g) :
    nonBlank item.1 = true ∧ ∃ values, item.2 = .list values ∧ g.name = strip item.1 ∧
      g.words = values.filterMap (cleanWord T) := by
  obtain ⟨key, value⟩ := item
  cases value with
  | list values =>
    simp only [cleanGroup] at h
    split at h
    · rename_i hkey
      cases h
      exact ⟨hkey, values, rfl, rfl, rfl⟩
    · cases h
  | _ => cases h

/-- A strict item is kept whole. -/
theorem cleanGroup_strict {item : PyStr × Json} (hname : nonBlank item.1 = true)
    (hwords : ∃ syns, Synonyms item.2 syns) :
    ∃ g, cleanGroup T item = some g ∧ Becomes item g ∧ g.words.length = listLength item.2 := by
  obtain ⟨syns, hsyns⟩ := hwords
  obtain ⟨values, hvalue, hmap, hlen⟩ := cleanWord_synonyms (T := T) hsyns
  obtain ⟨key, value⟩ := item
  simp only at hname hvalue hsyns
  subst hvalue
  simp only [cleanGroup, dif_pos hname]
  refine ⟨_, rfl, ⟨rfl, syns, hsyns, hmap⟩, ?_⟩
  show (values.filterMap (cleanWord T)).length = values.length
  rw [hmap, List.length_map, hlen]

theorem cleanLabels_dict (items : List (PyStr × Json)) :
    cleanLabels T (.dict items) = (items.filterMap (cleanGroup T)).foldl Vocabulary.set .empty := by
  rw [List.foldl_filterMap]
  show List.foldl _ _ _ = List.foldl _ _ _
  congr 1
  funext labels item
  cases cleanGroup T item <;> rfl

/-- The names of the groups of the items. -/
theorem names_of_forall₂ {items : List (PyStr × Json)} {gs : List (Group T)}
    (h : List.Forall₂ (fun item g => g.name = strip item.1) items gs) :
    names gs = items.map fun item => strip item.1 := by
  induction h with
  | nil => rfl
  | cons hname _ ih =>
    show _ :: names _ = _ :: List.map _ _
    rw [hname, ih]

/-- When both counts agree, every item is kept, whole and on its own. -/
theorem validateLabels_some {items : List (PyStr × Json)} {v : Vocabulary T}
    (h : validateLabels T (.dict items) = some v) :
    StrictLabels items ∧ List.Forall₂ Becomes items v.groups := by
  simp only [validateLabels] at h
  split at h
  · cases h
  · rename_i hlen
    split at h
    · rename_i hsum
      cases h
      rw [not_not] at hlen
      rw [cleanLabels_dict] at hlen hsum ⊢
      have hle := Vocabulary.foldl_set_length_le (Vocabulary.empty (T := T))
        (items.filterMap (cleanGroup T))
      have hle' := List.length_filterMap_le (cleanGroup T) items
      rw [hlen] at hle
      have hzero : (Vocabulary.empty (T := T)).groups.length = 0 := rfl
      have hkept : (items.filterMap (cleanGroup T)).length = items.length := by omega
      have hnodup := Vocabulary.nodup_of_foldl_set Vocabulary.empty
        (items.filterMap (cleanGroup T)) (by rw [hlen, hkept, hzero, Nat.zero_add])
      have hgroups :=
        Vocabulary.foldl_set_new Vocabulary.empty (items.filterMap (cleanGroup T)) hnodup
      have hpairs := forall₂_filterMap (isSome_of_length hkept)
      have hempty : (Vocabulary.empty (T := T)).groups = [] := rfl
      rw [hempty, List.nil_append] at hgroups
      rw [hgroups] at hsum ⊢
      -- no group has lost a synonym
      have hcounts : List.Forall₂ (fun item g => g.words.length = listLength item.2) items
          (items.filterMap (cleanGroup T)) := by
        refine forall₂_eq_of_sum (hpairs.imp fun item g hg => ?_) hsum
        obtain ⟨-, values, hvalue, -, hwords⟩ := cleanGroup_eq_some hg
        rw [hwords, hvalue]
        exact List.length_filterMap_le _ _
      have hboth : List.Forall₂ (fun item (g : Group T) => nonBlank item.1 = true ∧ Becomes item g)
          items (items.filterMap (cleanGroup T)) := by
        refine List.Forall₂.imp ?_ (forall₂_and hpairs hcounts)
        rintro item g ⟨hg, hcount⟩
        obtain ⟨hname, values, hvalue, hgname, hwords⟩ := cleanGroup_eq_some hg
        rw [hwords, hvalue] at hcount
        obtain ⟨syns, hsyns, hmap⟩ := synonyms_of_length hcount
        exact ⟨hname, hgname, syns, hvalue ▸ hsyns, hwords.trans hmap⟩
      have hnames := names_of_forall₂ (hboth.imp fun _ _ hb => hb.2.1)
      refine ⟨⟨fun item hitem => ?_, fun item hitem => ?_, ?_⟩, hboth.imp fun _ _ hb => hb.2⟩
      · obtain ⟨g, hname, -⟩ := forall₂_of_mem hboth hitem
        exact hname
      · obtain ⟨g, -, -, syns, hsyns, -⟩ := forall₂_of_mem hboth hitem
        exact ⟨syns, hsyns⟩
      · rw [← hnames]
        exact hnodup
    · cases h

/-- A strict payload passes both counts. -/
theorem validateLabels_strict {items : List (PyStr × Json)} (h : StrictLabels items) :
    (validateLabels T (.dict items)).isSome = true := by
  have hspec : ∀ item ∈ items, ∃ g, cleanGroup T item = some g ∧ Becomes item g ∧
      g.words.length = listLength item.2 :=
    fun item hitem => cleanGroup_strict (h.named item hitem) (h.worded item hitem)
  have hpairs : List.Forall₂ (fun item g => cleanGroup T item = some g) items
      (items.filterMap (cleanGroup T)) := by
    refine forall₂_filterMap fun item hitem => ?_
    obtain ⟨g, hg, -⟩ := hspec item hitem
    rw [hg]
    rfl
  have hnames : names (items.filterMap (cleanGroup T)) = items.map fun item => strip item.1 := by
    refine names_of_forall₂ (hpairs.imp fun item g hg => ?_)
    obtain ⟨-, values, -, hname, -⟩ := cleanGroup_eq_some hg
    exact hname
  have hgroups : (cleanLabels T (.dict items)).groups = items.filterMap (cleanGroup T) := by
    rw [cleanLabels_dict]
    refine Vocabulary.foldl_set_new .empty _ ?_
    show ([] ++ names _ : List PyStr).Nodup
    rw [List.nil_append, hnames]
    exact h.nodup
  have hlen : (items.filterMap (cleanGroup T)).length = items.length := hpairs.length_eq.symm
  have hcounts : ((items.filterMap (cleanGroup T)).map fun g => g.words.length).sum =
      (items.map fun item => listLength item.2).sum := by
    have hsums : ∀ {l : List (PyStr × Json)} {m : List (Group T)}, (∀ item ∈ l, item ∈ items) →
        List.Forall₂ (fun item g => cleanGroup T item = some g) l m →
        (m.map fun g => g.words.length).sum = (l.map fun item => listLength item.2).sum := by
      intro l m hl hpairs
      induction hpairs with
      | nil => rfl
      | @cons item g l m hg _ ih =>
        obtain ⟨g', hg', -, hcount⟩ := hspec item (hl item List.mem_cons_self)
        rw [hg] at hg'
        cases hg'
        rw [List.map_cons, List.map_cons, List.sum_cons, List.sum_cons, hcount,
          ih fun x hx => hl x (List.mem_cons_of_mem item hx)]
    exact hsums (fun _ hitem => hitem) hpairs
  simp only [validateLabels, hgroups, hlen, hcounts, ne_eq, not_true_eq_false, if_false, if_true,
    Option.isSome_some]

/-- Cleaning changes nothing in a vocabulary. -/
theorem cleanLabels_toJson (v : Vocabulary T) : cleanLabels T v.toJson = v := by
  have hgroups : (v.groups.map fun g => (g.name, Json.list (g.words.map .str))).filterMap
      (cleanGroup T) = v.groups := by
    refine filterMap_of_forall₂ ?_
    rw [List.forall₂_map_left_iff, List.forall₂_same]
    intro g hg
    have hname : nonBlank g.name = true := by
      rw [nonBlank, g.name_clean.1]
      exact bne_iff_ne.mpr g.name_clean.2
    have hwords : (g.words.map Json.str).filterMap (cleanWord T) = g.words := by
      refine filterMap_of_forall₂ ?_
      rw [List.forall₂_map_left_iff, List.forall₂_same]
      intro w hw
      obtain ⟨⟨hstrip, hne⟩, hlower⟩ := g.words_clean w hw
      rw [cleanWord, nonBlank, hstrip, if_pos (bne_iff_ne.mpr hne), hlower]
    simp only [cleanGroup, dif_pos hname]
    exact congrArg some (Group.ext g.name_clean.1 hwords)
  have hset := Vocabulary.foldl_set_new (Vocabulary.empty (T := T)) v.groups v.nodup
  rw [Vocabulary.toJson, cleanLabels_dict, hgroups]
  exact Vocabulary.ext hset

/-- `validate_labels` lets in the strict payloads, each item becomes its group in order, and
    `clean_labels` changes nothing in what it returns. -/
theorem validateLabels_spec (T : CaseTables) (d : Json) :
    ((validateLabels T d).isSome = true ↔ ∃ items, d = .dict items ∧ StrictLabels items) ∧
      (∀ items v, d = .dict items → validateLabels T d = some v →
        List.Forall₂ Becomes items v.groups) ∧
      cleanLabels T (cleanLabels T d).toJson = cleanLabels T d := by
  refine ⟨⟨fun h => ?_, ?_⟩, ?_, cleanLabels_toJson _⟩
  · obtain ⟨v, hv⟩ := Option.isSome_iff_exists.mp h
    cases d with
    | dict items => exact ⟨items, rfl, (validateLabels_some hv).1⟩
    | _ => cases hv
  · rintro ⟨items, rfl, hstrict⟩
    exact validateLabels_strict hstrict
  · rintro items v rfl hv
    exact (validateLabels_some hv).2

end Strict

/-! ## A payload -/

/-- The properties of the letters of ASCII. -/
def asciiCases : CaseTables where
  cased c := (65 ≤ c.val && c.val ≤ 90) || (97 ≤ c.val && c.val ≤ 122)
  caseIgnorable c := c = codePoint '.'

/-- `{" Cat ": ["KITTEN ", "cat"], "dog": []}` -/
def catLabels : Json :=
  .dict [(pyStr " Cat ", .list [.str (pyStr "KITTEN "), .str (pyStr "cat")]),
    (pyStr "dog", .list [])]

theorem validateLabels_spec_cat :
    (validateLabels asciiCases catLabels).isSome = true ∧
      (validateLabels asciiCases catLabels).map (fun v => v.groups.map fun g => (g.name, g.words)) =
        some [(pyStr "Cat", [pyStr "kitten", pyStr "cat"]), (pyStr "dog", [])] := by
  refine ⟨(validateLabels_spec asciiCases catLabels).1.mpr ⟨_, rfl, ?_, ?_, ?_⟩, by decide⟩
  · intro item hitem
    simp only [List.mem_cons, List.not_mem_nil, or_false] at hitem
    rcases hitem with rfl | rfl <;> decide
  · intro item hitem
    simp only [List.mem_cons, List.not_mem_nil, or_false] at hitem
    rcases hitem with rfl | rfl
    · refine ⟨[pyStr "KITTEN ", pyStr "cat"], rfl, ?_⟩
      simp only [List.mem_cons, List.not_mem_nil, or_false]
      rintro s (rfl | rfl) <;> decide
    · exact ⟨[], rfl, fun s hs => by cases hs⟩
  · decide

end Babycat.Settings
