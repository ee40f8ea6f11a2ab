/-
  Babycat.Text.Masking

  Masks what stands behind a key: the substitution of `(key)[^stops]+` by the key
  and a fixed text.

  `infix_mask_iff` is what a mask hides: of the places where a text without the
  sign of the key stands, those behind a key, with nothing that stops between.
-/

import Mathlib.Data.List.Basic
import Mathlib.Data.List.Infix
import Mathlib.Data.List.TakeWhile
import Mathlib.Data.Nat.Notation

namespace Babycat.Text

universe u

/-- A key is a name and its sign; the text behind it goes on to what stops. -/
structure Masking (α : Type u) where
  name : List α
  sign : α
  stops : α → Bool
  stars : List α

namespace Masking

variable {α : Type u} (k : Masking α)

def key : List α := k.name ++ [k.sign]

/-- What ends in a key and something that does not stop is followed by a masked text. -/
def Behind (u : List α) : Prop := ∃ m, k.key ++ m <:+ u ∧ ∀ c ∈ m, k.stops c = false

/-- The text stands somewhere where no key is before it. -/
def Shown (R s : List α) : Prop := ∃ u v, s = u ++ R ++ v ∧ ¬k.Behind u

/-- What a match at the start of a text takes behind the key. -/
def run [DecidableEq α] (s : List α) : List α :=
  if k.key.isPrefixOf s then (s.drop k.key.length).takeWhile (!k.stops ·) else []

/-- Masks behind the elements that the last match took. -/
def maskFrom [DecidableEq α] : ℕ → List α → List α
  | _, [] => []
  | taken + 1, _ :: rest => maskFrom taken rest
  | 0, c :: rest =>
      if k.run (c :: rest) = [] then c :: maskFrom 0 rest
      else
        k.key ++ k.stars ++ maskFrom (k.name.length + (k.run (c :: rest)).length) rest

/-- `re.sub` -/
def mask [DecidableEq α] (s : List α) : List α := k.maskFrom 0 s

-- ============================================================================
-- One match
-- ============================================================================

section Run

variable {k} [DecidableEq α] {c : α} {s rest : List α}

theorem maskFrom_drop (n : ℕ) (s : List α) : k.maskFrom n s = k.mask (s.drop n) := by
  induction s generalizing n with
  | nil => cases n <;> rfl
  | cons c s ih =>
    cases n with
    | zero => rfl
    | succ n => exact ih n

theorem mask_cons_of_run_nil (h : k.run (c :: rest) = []) :
    k.mask (c :: rest) = c :: k.mask rest := by
  rw [mask, maskFrom, if_pos h, ← mask]

/-- A text with a match: the key, what is masked, and a rest that stops it. -/
theorem run_ne_nil (h : k.run s ≠ []) :
    ∃ rest, s = k.key ++ (k.run s ++ rest) ∧ (∀ c ∈ k.run s, k.stops c = false) ∧
      ∀ c ∈ rest.head?, k.stops c = true := by
  rw [run] at h ⊢
  split_ifs at h ⊢ with hkey
  · obtain ⟨tail, rfl⟩ := List.isPrefixOf_iff_prefix.mp hkey
    rw [List.drop_left]
    refine ⟨tail.dropWhile (!k.stops ·), ?_, ?_, ?_⟩
    · rw [List.takeWhile_append_dropWhile]
    · intro c hc
      have hnot := List.mem_takeWhile_imp (p := fun c => !k.stops c) hc
      rwa [Bool.not_eq_true'] at hnot
    · intro c hc
      have hnot := List.head?_dropWhile_not (!k.stops ·) tail
      rw [Option.mem_def.mp hc] at hnot
      simpa using hnot
  · exact absurd rfl h

theorem mask_of_run (h : k.run s ≠ []) (hs : s = k.key ++ (k.run s ++ rest)) :
    k.mask s = k.key ++ k.stars ++ k.mask rest := by
  have hlength : k.key.length = k.name.length + 1 := by
    rw [key, List.length_append, List.length_singleton]
  have hdrop : s.drop (k.key.length + (k.run s).length) = rest := by
    rw [← List.append_assoc] at hs
    calc
      s.drop (k.key.length + (k.run s).length)
          = s.drop (k.key ++ k.run s).length := by rw [List.length_append]
      _ = (k.key ++ k.run s ++ rest).drop (k.key ++ k.run s).length :=
          congrArg (List.drop _) hs
      _ = rest := List.drop_left
  cases s with
  | nil =>
    rw [List.drop_nil] at hdrop
    exact absurd (congrArg List.length hs) (by
      rw [List.length_append, hlength, List.length_nil]
      omega)
  | cons c s =>
    rw [hlength, Nat.add_right_comm, List.drop_succ_cons] at hdrop
    rw [mask, maskFrom, if_neg h, maskFrom_drop, hdrop]

theorem run_key (tail : List α) :
    k.run (k.key ++ tail) = tail.takeWhile (!k.stops ·) := by
  rw [run, if_pos (List.isPrefixOf_iff_prefix.mpr (List.prefix_append _ _)), List.drop_left]

end Run

-- ============================================================================
-- What a mask hides
-- ============================================================================

section Occurrences

variable {R u v X Y : List α} {d : α}

/-- A text without `d` stands on one side of a `d`. -/
theorem occurs_beside (hd : d ∉ R) (h : u ++ R ++ v = X ++ d :: Y) :
    (∃ w, X = u ++ R ++ w) ∨ ∃ w, u = X ++ d :: w ∧ Y = w ++ R ++ v := by
  rcases List.append_eq_append_iff.mp h with ⟨bs, hX, -⟩ | ⟨bs, hu, hv⟩
  · exact Or.inl ⟨bs, hX⟩
  cases bs with
  | nil =>
    rw [List.append_nil] at hu
    exact Or.inl ⟨[], by rw [List.append_nil, hu]⟩
  | cons b bs =>
    obtain ⟨rfl, rfl⟩ := List.cons.inj hv
    rcases List.append_eq_append_iff.mp hu with ⟨cs, -, hR⟩ | ⟨cs, hu', hR⟩
    · exact absurd (hR ▸ List.mem_append_right _ List.mem_cons_self) hd
    cases cs with
    | nil =>
      rw [List.nil_append] at hR
      exact absurd (hR ▸ List.mem_cons_self) hd
    | cons c cs =>
      obtain ⟨rfl, rfl⟩ := List.cons.inj hR
      exact Or.inr ⟨cs, hu', rfl⟩

theorem infix_beside (hd : d ∉ R) : R <:+: X ++ d :: Y ↔ R <:+: X ∨ R <:+: Y := by
  constructor
  · rintro ⟨u, v, h⟩
    rcases occurs_beside hd h with ⟨w, rfl⟩ | ⟨w, -, rfl⟩
    · exact Or.inl ⟨u, w, rfl⟩
    · exact Or.inr ⟨w, v, rfl⟩
  · rintro (h | h)
    · exact h.trans (List.prefix_append _ _).isInfix
    · exact h.trans ((List.suffix_cons d Y).trans (List.suffix_append X _)).isInfix

theorem prefix_beside (hd : d ∉ R) : R <+: X ++ d :: Y ↔ R <+: X := by
  constructor
  · rintro ⟨v, h⟩
    rcases occurs_beside (u := []) hd h with ⟨w, rfl⟩ | ⟨w, hnil, -⟩
    · exact ⟨w, rfl⟩
    · exact absurd hnil (by simp)
  · exact fun h => h.trans (List.prefix_append X _)

theorem infix_append_of_not_mem (hR : R ≠ []) (h : ∀ c ∈ X, c ∉ R) :
    R <:+: X ++ Y ↔ R <:+: Y := by
  induction X with
  | nil => rfl
  | cons c X ih =>
    rw [List.forall_mem_cons] at h
    have hbeside := infix_beside (X := []) (Y := X ++ Y) h.1
    rw [List.nil_append] at hbeside
    rw [List.cons_append, hbeside, ih h.2, List.infix_nil, or_iff_right hR]

end Occurrences

section Hidden

variable {k} {R s rest u : List α} {c d : α}

/-- Something that stops ends what is behind a key. -/
theorem behind_append_cons (hkey : ∀ c ∈ k.key, k.stops c = false) (hd : k.stops d = true) :
    k.Behind (s ++ d :: u) ↔ k.Behind u := by
  constructor
  · rintro ⟨m, hsuffix, hm⟩
    have hnot : d ∉ k.key ++ m := by
      intro hmem
      rcases List.mem_append.mp hmem with hmem | hmem
      · rw [hkey d hmem] at hd
        cases hd
      · rw [hm d hmem] at hd
        cases hd
    rcases List.suffix_or_suffix_of_suffix hsuffix (List.suffix_append s (d :: u)) with h | h
    · rcases List.suffix_cons_iff.mp h with heq | h
      · exact absurd (heq ▸ List.mem_cons_self) hnot
      · exact ⟨m, h, hm⟩
    · exact absurd (h.subset List.mem_cons_self) hnot
  · rintro ⟨m, hsuffix, hm⟩
    exact ⟨m, hsuffix.trans ((List.suffix_cons d u).trans (List.suffix_append s _)), hm⟩

theorem not_behind_of_short (h : u.length ≤ k.name.length) : ¬k.Behind u := by
  rintro ⟨m, hsuffix, -⟩
  have hle := hsuffix.length_le
  rw [key, List.length_append, List.length_append, List.length_singleton] at hle
  omega

theorem head_not_stops {m v : List α} (hm : ∀ c ∈ m, k.stops c = false) (hR : R ≠ [])
    (hhead : ∀ c ∈ R.head?, k.stops c = false) :
    (m ++ (R ++ v)).takeWhile (!k.stops ·) ≠ [] := by
  have hcons : ∀ (c : α) (tail : List α), k.stops c = false →
      (c :: tail).takeWhile (!k.stops ·) ≠ [] := by
    intro c tail hc
    rw [List.takeWhile_cons, hc]
    exact List.cons_ne_nil _ _
  cases m with
  | cons c m => exact hcons c _ (hm c List.mem_cons_self)
  | nil =>
    cases R with
    | nil => exact absurd rfl hR
    | cons c R => exact hcons c _ (hhead c rfl)

theorem shown_match (hkey : ∀ c ∈ k.key, k.stops c = false) (hR : R ≠ [])
    (hsign : k.sign ∉ R) (hhead : ∀ c ∈ R.head?, k.stops c = false) {m : List α}
    (hm : ∀ c ∈ m, k.stops c = false) (hstop : ∀ c ∈ rest.head?, k.stops c = true) :
    k.Shown R (k.key ++ (m ++ rest)) ↔ R <:+: k.name ∨ k.Shown R rest := by
  have hkeyed : k.key ++ (m ++ rest) = k.name ++ k.sign :: (m ++ rest) := by
    rw [key, List.append_assoc, List.singleton_append]
  constructor
  · rintro ⟨u, v, hs, hnot⟩
    rcases occurs_beside hsign (hs.symm.trans hkeyed) with ⟨w, hname⟩ | ⟨w, rfl, hw⟩
    · exact Or.inl ⟨u, w, hname.symm⟩
    rw [List.append_assoc] at hw
    rcases List.append_eq_append_iff.mp hw with ⟨u', rfl, hrest⟩ | ⟨m', rfl, -⟩
    · refine Or.inr ⟨u', v, by rw [hrest, List.append_assoc], ?_⟩
      rintro ⟨n, hsuffix, hn⟩
      have hlonger : u' <:+ k.name ++ k.sign :: (m ++ u') :=
        ((List.suffix_append m u').trans (List.suffix_cons _ _)).trans (List.suffix_append _ _)
      exact hnot ⟨n, hsuffix.trans hlonger, hn⟩
    · -- The place is in what is masked.
      refine absurd ⟨w, ?_, fun c hc => hm c (List.mem_append_left _ hc)⟩ hnot
      rw [key, List.append_assoc, List.singleton_append]
  · rintro (⟨u, w, hname⟩ | ⟨u, v, rfl, hnot⟩)
    · refine ⟨u, w ++ k.sign :: (m ++ rest), ?_, not_behind_of_short ?_⟩
      · rw [hkeyed, ← hname, List.append_assoc, List.append_assoc]
      · rw [← hname, List.length_append, List.length_append]
        omega
    · refine ⟨k.key ++ (m ++ u), v, by simp only [List.append_assoc], ?_⟩
      cases u with
      | nil =>
        cases R with
        | nil => exact absurd rfl hR
        | cons c R =>
          have hstops := hstop c rfl
          rw [hhead c rfl] at hstops
          cases hstops
      | cons d u =>
        rw [← List.append_assoc, behind_append_cons hkey (hstop d rfl)]
        rintro ⟨n, hsuffix, hn⟩
        exact hnot ⟨n, hsuffix.trans (List.suffix_cons d u), hn⟩

variable [DecidableEq α]

/-- Masking changes nothing before the first sign. -/
theorem prefix_mask_iff (hsign : k.sign ∉ R) : R <+: k.mask s ↔ R <+: s := by
  induction R generalizing s with
  | nil => exact iff_of_true (List.nil_prefix) (List.nil_prefix)
  | cons r R ih =>
    cases s with
    | nil => rfl
    | cons c s =>
      by_cases hrun : k.run (c :: s) = []
      · have htail : k.sign ∉ R := fun h => hsign (List.mem_cons_of_mem r h)
        rw [mask_cons_of_run_nil hrun, List.cons_prefix_cons, List.cons_prefix_cons, ih htail]
      · obtain ⟨rest, hs, -, -⟩ := run_ne_nil hrun
        rw [mask_of_run hrun hs]
        conv_rhs => rw [hs]
        rw [key, List.append_assoc, List.append_assoc, List.append_assoc, List.singleton_append,
          List.singleton_append, prefix_beside hsign, prefix_beside hsign]

theorem shown_cons (hR : R ≠ []) (hhead : ∀ c ∈ R.head?, k.stops c = false)
    (hrun : k.run (c :: rest) = []) :
    k.Shown R (c :: rest) ↔ R <+: c :: rest ∨ k.Shown R rest := by
  constructor
  · rintro ⟨u, v, hs, hnot⟩
    cases u with
    | nil => exact Or.inl ⟨v, hs.symm⟩
    | cons d u =>
      obtain ⟨rfl, rfl⟩ := List.cons.inj hs
      refine Or.inr ⟨u, v, rfl, fun ⟨m, hsuffix, hm⟩ => hnot ⟨m, ?_, hm⟩⟩
      exact hsuffix.trans (List.suffix_cons c u)
  · rintro (⟨v, hv⟩ | ⟨u, v, rfl, hnot⟩)
    · exact ⟨[], v, hv.symm, not_behind_of_short (Nat.zero_le _)⟩
    · refine ⟨c :: u, v, rfl, ?_⟩
      rintro ⟨m, hsuffix, hm⟩
      rcases List.suffix_cons_iff.mp hsuffix with heq | hsuffix
      · -- The key starts here, and what follows it does not stop at once.
        have hall : c :: (u ++ R ++ v) = k.key ++ (m ++ (R ++ v)) := by
          rw [← List.append_assoc k.key, heq, List.cons_append, List.append_assoc]
        rw [hall, run_key] at hrun
        exact head_not_stops hm hR hhead hrun
      · exact hnot ⟨m, hsuffix, hm⟩

/-- A text stays where no key is before it, and only there. -/
theorem infix_mask_iff (hkey : ∀ c ∈ k.key, k.stops c = false) (hR : R ≠ [])
    (hsign : k.sign ∉ R) (hstars : ∀ c ∈ k.stars, c ∉ R)
    (hhead : ∀ c ∈ R.head?, k.stops c = false) : R <:+: k.mask s ↔ k.Shown R s := by
  induction hn : s.length using Nat.strongRecOn generalizing s with
  | _ n ih =>
    by_cases hrun : k.run s = []
    · cases s with
      | nil =>
        rw [mask, maskFrom, List.infix_nil]
        refine iff_of_false hR ?_
        rintro ⟨u, v, h, -⟩
        exact hR (List.append_eq_nil_iff.mp (List.append_eq_nil_iff.mp h.symm).1).2
      | cons c s =>
        have hprefix := prefix_mask_iff (s := c :: s) hsign
        rw [mask_cons_of_run_nil hrun] at hprefix ⊢
        rw [shown_cons hR hhead hrun, List.infix_cons_iff, hprefix]
        rw [ih s.length (by rw [← hn]; exact Nat.lt_succ_self _) rfl]
    · obtain ⟨rest, hs, hm, hstop⟩ := run_ne_nil hrun
      have hshown := shown_match hkey hR hsign hhead hm hstop
      rw [← hs] at hshown
      have hshorter : rest.length < n := by
        rw [← hn]
        conv_rhs => rw [hs]
        rw [key, List.length_append, List.length_append, List.length_append,
          List.length_singleton]
        omega
      rw [mask_of_run hrun hs, hshown, ← ih _ hshorter rfl, key,
        List.append_assoc, List.append_assoc, List.singleton_append, infix_beside hsign,
        infix_append_of_not_mem hR hstars]

end Hidden

end Masking

end Babycat.Text
