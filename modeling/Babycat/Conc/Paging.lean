/-
  Babycat.Conc.Paging

  Reading a list page by page, the newest entry first, while it changes.

  Page `j` shows `limit` entries behind the `j * limit` newest ones.  When
  entries only come in at the end and go at the beginning (`Slid`), an entry
  that stays only gets older (`Slid.age_le`).  So a reader that takes the pages
  in turn up to the last one comes past every entry that stays all the time
  (`walk_meets`): the page number that the entry is on starts no lower than the
  reader's, never falls, and ends no higher.
-/

import Mathlib.Data.List.Nodup
import Mathlib.Algebra.Order.Group.Nat

namespace Babycat.Conc

variable {α : Type*}

/-- `ORDER BY id DESC LIMIT ? OFFSET ?` of rows in the order of their ids. -/
def newest (rows : List α) (limit offset : ℕ) : List α := (rows.reverse.drop offset).take limit

/-- Entries went at the beginning and came in at the end, and none of those that went came in. -/
def Slid (xs ys : List α) : Prop :=
  ∃ gone kept come, xs = gone ++ kept ∧ ys = kept ++ come ∧ (gone ++ kept ++ come).Nodup

theorem Slid.filter {xs ys : List α} (p : α → Bool) (h : Slid xs ys) :
    Slid (xs.filter p) (ys.filter p) := by
  obtain ⟨gone, kept, come, rfl, rfl, hnodup⟩ := h
  refine ⟨gone.filter p, kept.filter p, come.filter p, List.filter_append .., List.filter_append ..,
    ?_⟩
  have hall := hnodup.filter p
  rwa [List.filter_append, List.filter_append] at hall

/-- The window of a log that starts later and ends later. -/
theorem slid_drop {log new : List α} {a b : ℕ} (h : a ≤ b) (hb : b ≤ log.length)
    (hnodup : (log ++ new).Nodup) : Slid (log.drop a) ((log ++ new).drop b) := by
  have hsplit : (log.drop a).take (b - a) ++ log.drop b = log.drop a := by
    have hdrop : log.drop b = (log.drop a).drop (b - a) := by
      rw [List.drop_drop, Nat.add_sub_cancel' h]
    rw [hdrop, List.take_append_drop]
  refine ⟨(log.drop a).take (b - a), log.drop b, new, hsplit.symm,
    List.drop_append_of_le_length hb, ?_⟩
  rw [hsplit]
  have hsub : (log.drop a ++ new).Sublist (log ++ new) :=
    (List.drop_sublist a log).append_right new
  exact hnodup.sublist hsub

section Age

variable [DecidableEq α] {xs ys : List α} {x : α}

/-- How many entries are newer. -/
def age (rows : List α) (x : α) : ℕ := rows.reverse.idxOf x

theorem age_lt (h : x ∈ xs) : age xs x < xs.length := by
  have hlt := List.idxOf_lt_length_of_mem (List.mem_reverse.mpr h)
  rwa [List.length_reverse] at hlt

/-- An entry that stays gets no newer. -/
theorem Slid.age_le (h : Slid xs ys) (hx : x ∈ xs) (hy : x ∈ ys) : age xs x ≤ age ys x := by
  obtain ⟨gone, kept, come, rfl, rfl, hnodup⟩ := h
  have hkept : x ∈ kept := by
    rcases List.mem_append.mp hx with hgone | hkept
    · have hdisjoint := List.disjoint_of_nodup_append (List.append_assoc gone kept come ▸ hnodup)
      exact absurd hy (hdisjoint hgone)
    · exact hkept
  have hcome : x ∉ come := fun hcome =>
    List.disjoint_of_nodup_append hnodup (List.mem_append_right _ hkept) hcome
  have hold : age (gone ++ kept) x = kept.reverse.idxOf x := by
    rw [age, List.reverse_append]
    exact List.idxOf_append_of_mem (List.mem_reverse.mpr hkept)
  have hnew : age (kept ++ come) x = come.length + kept.reverse.idxOf x := by
    rw [age, List.reverse_append,
      List.idxOf_append_of_notMem (fun hmem => hcome (List.mem_reverse.mp hmem)),
      List.length_reverse]
  rw [hold, hnew]
  exact Nat.le_add_left _ _

/-- An entry is on the page that its age falls in. -/
theorem mem_newest {limit : ℕ} (hlimit : 0 < limit) (h : x ∈ xs) :
    x ∈ newest xs limit (age xs x / limit * limit) := by
  have hlt := age_lt h
  have hget : xs.reverse[age xs x]? = some x := by
    have hlt' : age xs x < xs.reverse.length := by rwa [List.length_reverse]
    rw [List.getElem?_eq_getElem hlt']
    exact congrArg some (List.getElem_idxOf hlt')
  have hdiv : age xs x / limit * limit + age xs x % limit = age xs x := Nat.div_add_mod' _ _
  have hmod := Nat.mod_lt (age xs x) hlimit
  refine List.mem_iff_getElem?.mpr ⟨age xs x % limit, ?_⟩
  rw [newest, List.getElem?_take_of_lt hmod, List.getElem?_drop, hdiv]
  exact hget

end Age

/-- A sequence that never falls and ends no higher than its index meets its index. -/
theorem exists_meeting {f : ℕ → ℕ} {last : ℕ} (hmono : ∀ j < last, f j ≤ f (j + 1))
    (hlast : f last ≤ last) : ∃ j ≤ last, f j = j := by
  induction last with
  | zero => exact ⟨0, le_refl 0, Nat.le_zero.mp hlast⟩
  | succ last ih =>
      rcases Nat.lt_or_ge last (f last) with habove | hbelow
      · have hstep := hmono last (Nat.lt_succ_self last)
        exact ⟨last + 1, le_refl _, by omega⟩
      · obtain ⟨j, hj, heq⟩ := ih (fun j hj => hmono j (Nat.lt_succ_of_lt hj)) hbelow
        exact ⟨j, Nat.le_succ_of_le hj, heq⟩

/-- A reader that takes one page after the other up to the last comes past every entry that is
    there all the time. -/
theorem walk_meets [DecidableEq α] {tables : ℕ → List α} {limit last : ℕ} {x : α}
    (hlimit : 0 < limit) (hslid : ∀ j < last, Slid (tables j) (tables (j + 1)))
    (hx : ∀ j ≤ last, x ∈ tables j) (hlast : (tables last).length ≤ (last + 1) * limit) :
    ∃ j ≤ last, x ∈ newest (tables j) limit (j * limit) := by
  have hmono : ∀ j < last, age (tables j) x / limit ≤ age (tables (j + 1)) x / limit :=
    fun j hj => Nat.div_le_div_right ((hslid j hj).age_le (hx j (by omega)) (hx (j + 1) (by omega)))
  have hend : age (tables last) x / limit ≤ last := by
    have hlt := age_lt (hx last (le_refl last))
    have hdiv : age (tables last) x / limit < last + 1 :=
      (Nat.div_lt_iff_lt_mul hlimit).mpr (by omega)
    omega
  obtain ⟨j, hj, heq⟩ := exists_meeting hmono hend
  have hmem := mem_newest hlimit (hx j hj)
  rw [heq] at hmem
  exact ⟨j, hj, hmem⟩

end Babycat.Conc
