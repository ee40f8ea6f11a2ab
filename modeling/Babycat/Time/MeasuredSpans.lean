/-
  Babycat.Time.MeasuredSpans

  Spans that are known by their starts: each ends where the next one starts and
  the last one where a bound says.

  `overlapping` keeps the spans that reach into a window.  In a list with
  increasing starts they form a block (`overlapping_infix`), and which old spans
  may be dropped from the list first is `overlapping_drop_old`.
-/

import Mathlib.Data.List.Basic
import Mathlib.Order.Lattice
import Mathlib.Order.Nat

namespace Babycat.Time

variable {α T : Type} [LinearOrder T] (start lastEnd : α → T)

/-- Where a span ends, given the one behind it. -/
def endOf (a : α) : Option α → T
  | some next => start next
  | none => lastEnd a

/-- The spans that overlap the window from `low` to `high`. -/
def overlapping (low high : T) : List α → List α
  | [] => []
  | a :: l =>
      if endOf start lastEnd a l.head? ≤ low then overlapping low high l
      else if high ≤ start a then overlapping low high l
      else a :: overlapping low high l

/-- Spans in the order of their starts. -/
def Increasing (l : List α) : Prop := l.Pairwise fun a b => start a < start b

instance (l : List α) : Decidable (Increasing start l) :=
  inferInstanceAs (Decidable (l.Pairwise _))

variable {start lastEnd} {low high : T}

/-! ## Which spans are kept -/

theorem overlapping_cons (a : α) (l : List α) :
    overlapping start lastEnd low high (a :: l) =
      if start a < high ∧ low < endOf start lastEnd a l.head?
      then a :: overlapping start lastEnd low high l
      else overlapping start lastEnd low high l := by
  rw [overlapping]
  by_cases hend : endOf start lastEnd a l.head? ≤ low
  · rw [if_pos hend, if_neg (fun h => not_lt.mpr hend h.2)]
  · rw [if_neg hend]
    by_cases hstart : high ≤ start a
    · rw [if_pos hstart, if_neg (fun h => not_lt.mpr hstart h.1)]
    · rw [if_neg hstart, if_pos ⟨not_le.mp hstart, not_le.mp hend⟩]

theorem overlapping_sublist (l : List α) :
    (overlapping start lastEnd low high l).Sublist l := by
  induction l with
  | nil => exact List.Sublist.refl _
  | cons a l ih =>
      rw [overlapping_cons]
      split
      · exact ih.cons_cons a
      · exact ih.cons a

/-- A span is kept when it starts before the window ends and ends after it starts. -/
theorem getElem_mem_overlapping {l : List α} (h : Increasing start l) (i : ℕ) (hi : i < l.length) :
    l[i] ∈ overlapping start lastEnd low high l ↔
      start l[i] < high ∧ low < endOf start lastEnd l[i] l[i + 1]? := by
  induction l generalizing i with
  | nil => exact absurd hi (Nat.not_lt_zero i)
  | cons a l ih =>
      obtain ⟨hfirst, hrest⟩ := List.pairwise_cons.mp h
      rw [overlapping_cons]
      cases i with
      | zero =>
          have hnot : a ∉ overlapping start lastEnd low high l := fun hmem =>
            lt_irrefl _ (hfirst a ((overlapping_sublist l).mem hmem))
          rw [List.getElem_cons_zero, List.getElem?_cons_succ, ← List.head?_eq_getElem?]
          split
          · rename_i hkept
            exact iff_of_true List.mem_cons_self hkept
          · rename_i hkept
            exact iff_of_false hnot hkept
      | succ i =>
          rw [List.getElem_cons_succ, List.getElem?_cons_succ, ← ih hrest i (Nat.lt_of_succ_lt_succ hi)]
          split
          · refine ⟨fun hmem => ?_, List.mem_cons_of_mem a⟩
            rcases List.mem_cons.mp hmem with heq | hmem
            · have hlt := hfirst _ (List.getElem_mem (Nat.lt_of_succ_lt_succ hi))
              exact absurd (heq ▸ hlt) (lt_irrefl _)
            · exact hmem
          · rfl

/-- The same without indices. -/
theorem mem_overlapping_iff {l : List α} (h : Increasing start l) {a : α} (ha : a ∈ l) :
    a ∈ overlapping start lastEnd low high l ↔
      start a < high ∧ (∀ b ∈ l, start a < start b → low < start b) ∧
        ((∀ b ∈ l, ¬ start a < start b) → low < lastEnd a) := by
  obtain ⟨before, after, rfl⟩ := List.append_of_mem ha
  obtain ⟨-, hafter, hacross⟩ := List.pairwise_append.mp h
  obtain ⟨hnext, hrest⟩ := List.pairwise_cons.mp hafter
  have hlater : ∀ b ∈ before ++ a :: after, start a < start b → b ∈ after := by
    intro b hb hlt
    rcases List.mem_append.mp hb with hb | hb
    · exact absurd hlt (lt_asymm (hacross b hb a List.mem_cons_self))
    · rcases List.mem_cons.mp hb with rfl | hb
      · exact absurd hlt (lt_irrefl _)
      · exact hb
  have hindex : (before ++ a :: after)[before.length]? = some a := by simp
  obtain ⟨hlength, heq⟩ := List.getElem?_eq_some_iff.mp hindex
  have hbehind : (before ++ a :: after)[before.length + 1]? = after.head? := by
    rw [List.getElem?_append_right (Nat.le_succ _),
      show before.length + 1 - before.length = 0 + 1 by omega, List.getElem?_cons_succ,
      List.head?_eq_getElem?]
  have hmem : (before ++ a :: after)[before.length] ∈
      overlapping start lastEnd low high (before ++ a :: after) ↔ _ :=
    getElem_mem_overlapping h before.length hlength
  rw [heq, hbehind] at hmem
  rw [hmem, and_congr_right_iff]
  intro _
  cases after with
  | nil =>
      refine ⟨fun hend => ⟨fun b hb hlt => absurd (hlater b hb hlt) List.not_mem_nil,
        fun _ => hend⟩, fun hspec => hspec.2 fun b hb hlt => ?_⟩
      exact absurd (hlater b hb hlt) List.not_mem_nil
  | cons c after =>
      have hc : c ∈ before ++ a :: c :: after := by simp
      have hac : start a < start c := hnext c List.mem_cons_self
      refine ⟨fun hend => ⟨fun b hb hlt => ?_, fun hlast => absurd hac (hlast c hc)⟩,
        fun hspec => hspec.1 c hc hac⟩
      rcases List.mem_cons.mp (hlater b hb hlt) with rfl | hb
      · exact hend
      · exact lt_trans hend ((List.pairwise_cons.mp hrest).1 b hb)

/-! ## The kept spans are a block -/

/-- Behind the end of the window. -/
theorem overlapping_eq_nil {l : List α} (h : ∀ a ∈ l, high ≤ start a) :
    overlapping start lastEnd low high l = [] := by
  refine List.eq_nil_iff_forall_not_mem.mpr fun a ha => ?_
  induction l with
  | nil => cases ha
  | cons b l ih =>
      rw [overlapping_cons, if_neg (fun hkept => not_lt.mpr (h b List.mem_cons_self) hkept.1)] at ha
      exact ih (fun a ha => h a (List.mem_cons_of_mem b ha)) ha

/-- Once a span starts in the window, those from there to its end are kept. -/
theorem overlapping_prefix {l : List α} (h : Increasing start l)
    (hlow : ∀ a ∈ l, low < start a) : overlapping start lastEnd low high l <+: l := by
  induction l with
  | nil => exact List.prefix_refl _
  | cons a l ih =>
      obtain ⟨hfirst, hrest⟩ := List.pairwise_cons.mp h
      have hlater := ih hrest fun b hb => hlow b (List.mem_cons_of_mem a hb)
      rw [overlapping_cons]
      split
      · obtain ⟨rest, hrest⟩ := hlater
        exact ⟨rest, by rw [List.cons_append, hrest]⟩
      · rename_i hdropped
        suffices hnil : overlapping start lastEnd low high l = [] by
          rw [hnil]
          exact List.nil_prefix
        cases l with
        | nil => rfl
        | cons b l =>
            have hb : low < start b := hlow b (List.mem_cons_of_mem a List.mem_cons_self)
            have hhigh : high ≤ start a := not_lt.mp fun hlt => hdropped ⟨hlt, hb⟩
            exact overlapping_eq_nil fun c hc => le_of_lt (lt_of_le_of_lt hhigh (hfirst c hc))

theorem overlapping_infix {l : List α} (h : Increasing start l) :
    overlapping start lastEnd low high l <:+: l := by
  induction l with
  | nil => exact List.infix_refl _
  | cons a l ih =>
      obtain ⟨hfirst, hrest⟩ := List.pairwise_cons.mp h
      rw [overlapping_cons]
      split
      · rename_i hkept
        refine List.IsPrefix.isInfix ?_
        have hlater : overlapping start lastEnd low high l <+: l := by
          cases l with
          | nil => exact List.prefix_refl _
          | cons b l =>
              refine overlapping_prefix hrest fun c hc => ?_
              rcases List.mem_cons.mp hc with rfl | hc
              · exact hkept.2
              · exact lt_trans hkept.2 ((List.pairwise_cons.mp hrest).1 c hc)
        obtain ⟨rest, hrest⟩ := hlater
        exact ⟨rest, by rw [List.cons_append, hrest]⟩
      · obtain ⟨before, after, hblock⟩ := ih hrest
        exact ⟨a :: before, after, by rw [List.cons_append, List.cons_append, hblock]⟩

/-! ## Dropping old spans -/

/-- A list with increasing starts is cut at a time. -/
theorem exists_boundary {l : List α} (h : Increasing start l) (bound : T) :
    (∀ a ∈ l, bound ≤ start a) ∨
      ∃ old last fresh, l = old ++ last :: fresh ∧ start last < bound ∧
        ∀ a ∈ fresh, bound ≤ start a := by
  induction l with
  | nil => exact .inl fun a ha => by cases ha
  | cons b l ih =>
      obtain ⟨hfirst, hrest⟩ := List.pairwise_cons.mp h
      rcases ih hrest with hall | ⟨old, last, fresh, rfl, hlast, hfresh⟩
      · rcases lt_or_ge (start b) bound with hold | hnew
        · exact .inr ⟨[], b, l, rfl, hold, hall⟩
        · refine .inl fun a ha => ?_
          rcases List.mem_cons.mp ha with rfl | ha
          · exact hnew
          · exact hall a ha
      · exact .inr ⟨b :: old, last, fresh, rfl, hlast, hfresh⟩

/-- The span that starts before a time and whose successor does not. -/
theorem boundary_unique {old fresh : List α} {last s : α} {bound : T} {i : ℕ}
    (h : Increasing start (old ++ last :: fresh)) (hlast : start last < bound)
    (hfresh : ∀ a ∈ fresh, bound ≤ start a) (hi : (old ++ last :: fresh)[i]? = some s)
    (hs : start s < bound)
    (hnext : ∀ next, (old ++ last :: fresh)[i + 1]? = some next → bound ≤ start next) :
    i = old.length ∧ s = last := by
  rcases lt_trichotomy i old.length with hlt | rfl | hgt
  · -- the next one is still at or before `last`
    have hnextLt : i + 1 < (old ++ last :: fresh).length := by
      rw [List.length_append, List.length_cons]
      omega
    have hbound := hnext _ (List.getElem?_eq_getElem hnextLt)
    refine absurd hbound (not_le.mpr ?_)
    rcases Nat.lt_or_ge (i + 1) old.length with hin | hat
    · rw [List.getElem_append_left hin]
      exact lt_trans ((List.pairwise_append.mp h).2.2 _ (List.getElem_mem hin) last
        List.mem_cons_self) hlast
    · have hlength : i + 1 = old.length := by omega
      rw [List.getElem_append_right hat]
      simpa [hlength] using hlast
  · rw [List.getElem?_append_right (le_refl _), Nat.sub_self, List.getElem?_cons_zero] at hi
    exact ⟨rfl, (Option.some.inj hi).symm⟩
  · rw [List.getElem?_append_right (le_of_lt hgt),
      show i - old.length = (i - old.length - 1) + 1 by omega, List.getElem?_cons_succ] at hi
    exact absurd (hfresh s (List.mem_of_getElem? hi)) (not_le.mpr hs)

/-- Of the spans that start before the window only the last one can reach into it. -/
theorem overlapping_append {old fresh : List α} {last : α}
    (hold : Increasing start (old ++ [last])) (hlast : start last ≤ low) :
    overlapping start lastEnd low high (old ++ last :: fresh) =
      overlapping start lastEnd low high (last :: fresh) := by
  induction old with
  | nil => rfl
  | cons a old ih =>
      obtain ⟨hfirst, hrest⟩ := List.pairwise_cons.mp hold
      rw [List.cons_append, overlapping_cons, if_neg, ih hrest]
      rintro ⟨-, hend⟩
      cases old with
      | nil => exact not_lt.mpr hlast hend
      | cons b old =>
          have hb : start b < start last :=
            (List.pairwise_cons.mp hrest).1 last (List.mem_append_right _ List.mem_cons_self)
          exact not_lt.mpr (le_of_lt (lt_of_lt_of_le hb hlast)) hend

/-- Dropping some of the spans that start before the window leaves what overlaps it as it is,
    unless the last of them is dropped and reaches into the window. -/
theorem overlapping_drop_old {old fresh : List α} {last : α} {kept : α → Bool}
    (hspans : Increasing start (old ++ last :: fresh)) (hold : start last ≤ low)
    (hhigh : start last < high) (hend : ∀ a ∈ old, lastEnd a ≤ lastEnd last) :
    overlapping start lastEnd low high ((old ++ [last]).filter kept ++ fresh) =
        overlapping start lastEnd low high (old ++ last :: fresh) ↔
      kept last = true ∨ endOf start lastEnd last fresh.head? ≤ low := by
  obtain ⟨holdInc, hfresh, hacross⟩ := List.pairwise_append.mp hspans
  obtain ⟨hlastFresh, -⟩ := List.pairwise_cons.mp hfresh
  have hbefore : Increasing start (old ++ [last]) :=
    List.pairwise_append.mpr ⟨holdInc, List.pairwise_singleton _ _, fun a ha b hb => by
      rw [List.mem_singleton.mp hb]
      exact hacross a ha last List.mem_cons_self⟩
  rw [overlapping_append hbefore hold, List.filter_append]
  by_cases hkept : kept last = true
  · refine iff_of_true ?_ (.inl hkept)
    rw [List.filter_cons_of_pos hkept, List.filter_nil, List.append_assoc, List.cons_append,
      List.nil_append]
    exact overlapping_append (List.Pairwise.sublist
      (List.Sublist.append_right List.filter_sublist [last]) hbefore) hold
  · rw [List.filter_cons_of_neg hkept, List.filter_nil, List.append_nil, or_iff_right hkept,
      overlapping_cons (l := fresh)]
    constructor
    · intro hsame
      refine not_lt.mp fun hreaches => ?_
      rw [if_pos ⟨hhigh, hreaches⟩] at hsame
      have hsub : (overlapping start lastEnd low high (old.filter kept ++ fresh)).Sublist
          (old.filter kept ++ fresh) := overlapping_sublist _
      have hmem : last ∈ old.filter kept ++ fresh := hsub.mem (hsame ▸ List.mem_cons_self)
      rcases List.mem_append.mp hmem with hin | hin
      · exact hkept (List.mem_filter.mp hin).2
      · exact lt_irrefl _ (hlastFresh last hin)
    · intro hends
      rw [if_neg (fun h => not_lt.mpr hends h.2)]
      -- what is left of the old spans ends no later than the dropped one
      rcases List.eq_nil_or_concat (old.filter kept) with hnil | ⟨init, prev, hinit⟩
      · rw [hnil, List.nil_append]
      · rw [List.concat_eq_append] at hinit
        have hprev : prev ∈ old := by
          have hmem : prev ∈ old.filter kept := by
            rw [hinit]
            exact List.mem_append_right init List.mem_cons_self
          exact (List.mem_filter.mp hmem).1
        have hprevLast : start prev < start last := hacross prev hprev last List.mem_cons_self
        have hinc : Increasing start (init ++ [prev]) := by
          rw [← hinit]
          exact holdInc.sublist List.filter_sublist
        rw [hinit, List.append_assoc, List.cons_append, List.nil_append,
          overlapping_append hinc (le_of_lt (lt_of_lt_of_le hprevLast hold)), overlapping_cons,
          if_neg]
        rintro ⟨-, hreaches⟩
        cases fresh with
        | nil => exact not_lt.mpr (le_trans (hend prev hprev) hends) hreaches
        | cons b fresh => exact not_lt.mpr hends hreaches

end Babycat.Time
