/-
  Babycat.Text.PyStr

  Python strings: sequences of code points, surrogates included.

  `strip`, `split` and the UTF-8 encoder of Python.  A JSON escape can put an
  unpaired surrogate into a string; every operation of `str` takes it as any
  other code point, only the encoder refuses it (`encodable`).
-/

import Mathlib.Data.List.Basic
import Mathlib.Data.List.TakeWhile
import Mathlib.Data.Nat.Notation

namespace Babycat.Text

universe u

/-- What a Python string is made of. -/
abbrev CodePoint := Fin 0x110000

abbrev PyStr := List CodePoint

/-- A `Char` is no surrogate. -/
theorem toNat_valid (c : Char) : c.toNat < 0xD800 ∨ 0xDFFF < c.toNat ∧ c.toNat < 0x110000 := c.valid

/-- `ord`. -/
def codePoint (c : Char) : CodePoint := ⟨c.toNat, by have := toNat_valid c; omega⟩

/-- A string without surrogates. -/
def pyStr (s : String) : PyStr := s.toList.map codePoint

@[simp] theorem codePoint_val (c : Char) : (codePoint c).val = c.toNat := rfl

theorem codePoint_injective : Function.Injective codePoint := by
  intro c d h
  have hval : c.toNat = d.toNat := Fin.mk.inj h
  exact Char.toNat_inj.mp hval

theorem pyStr_injective : Function.Injective pyStr := by
  intro s t h
  exact String.toList_injective (List.map_injective_iff.mpr codePoint_injective h)

theorem pyStr_inj {a b : String} : pyStr a = pyStr b ↔ a = b := pyStr_injective.eq_iff

-- ============================================================================
-- Stripping
-- ============================================================================

/-- Removes the elements with property `p` at both ends. -/
def stripBy {α : Type u} (p : α → Bool) (l : List α) : List α :=
  ((l.dropWhile p).reverse.dropWhile p).reverse

section Strip

variable {α : Type u} {p : α → Bool} {l : List α}

/-- Nothing is left of the elements that are all stripped. -/
theorem stripBy_eq_nil : stripBy p l = [] ↔ ∀ a ∈ l, p a = true := by
  rw [stripBy, List.reverse_eq_nil_iff, List.dropWhile_eq_nil_iff]
  constructor
  · intro h
    by_contra hne
    have hdrop : l.dropWhile p ≠ [] := fun hnil => hne (List.dropWhile_eq_nil_iff.mp hnil)
    have hhead := List.head_dropWhile_not p hdrop
    have hall := h _ (List.mem_reverse.mpr (List.head_mem hdrop))
    rw [hhead] at hall
    cases hall
  · intro h a ha
    exact h a ((List.dropWhile_suffix p).subset (List.mem_reverse.mp ha))

/-- What neither starts nor ends with a stripped element stays as it is. -/
theorem stripBy_eq_self (hhead : ∀ a ∈ l.head?, p a = false)
    (hlast : ∀ a ∈ l.getLast?, p a = false) : stripBy p l = l := by
  have hfront : ∀ m : List α, (∀ a ∈ m.head?, p a = false) → m.dropWhile p = m := by
    intro m hm
    cases m with
    | nil => rfl
    | cons a m => rw [List.dropWhile_cons, hm a rfl, if_neg (by decide)]
  have hback : l.reverse.dropWhile p = l.reverse := by
    refine hfront _ ?_
    rw [List.head?_reverse]
    exact hlast
  rw [stripBy, hfront l hhead, hback, List.reverse_reverse]

theorem head_dropWhile (p : α → Bool) (l : List α) : ∀ a ∈ (l.dropWhile p).head?, p a = false := by
  intro a ha
  have hne : l.dropWhile p ≠ [] := by
    intro hnil
    rw [hnil] at ha
    cases ha
  have hhead := List.head_dropWhile_not p hne
  rw [List.head?_eq_some_head hne] at ha
  rw [← Option.some.inj ha]
  exact hhead

theorem stripBy_getLast (p : α → Bool) (l : List α) :
    ∀ a ∈ (stripBy p l).getLast?, p a = false := by
  rw [stripBy, List.getLast?_reverse]
  exact head_dropWhile p _

theorem stripBy_head (p : α → Bool) (l : List α) : ∀ a ∈ (stripBy p l).head?, p a = false := by
  intro a ha
  have hsuffix : (l.dropWhile p).reverse.dropWhile p <:+ (l.dropWhile p).reverse :=
    List.dropWhile_suffix p
  have hpre : stripBy p l <+: l.dropWhile p := by
    have := List.reverse_prefix.mpr hsuffix
    rwa [List.reverse_reverse] at this
  refine head_dropWhile p l a ?_
  obtain ⟨t, ht⟩ := hpre
  rw [← ht, List.head?_append, ha]
  rfl

/-- What starts with no stripped element is only stripped at its end. -/
theorem stripBy_prefix (hhead : ∀ a ∈ l.head?, p a = false) : stripBy p l <+: l := by
  have hdrop : l.dropWhile p = l := by
    cases l with
    | nil => rfl
    | cons a l => rw [List.dropWhile_cons, hhead a rfl, if_neg Bool.false_ne_true]
  rw [stripBy, hdrop]
  have hpre := List.reverse_prefix.mpr (List.dropWhile_suffix p (l := l.reverse))
  rwa [List.reverse_reverse] at hpre

/-- What is stripped at the end goes. -/
theorem stripBy_append {m : List α} (hhead : ∀ a ∈ l.head?, p a = false)
    (hlast : ∀ a ∈ l.getLast?, p a = false) (hm : ∀ a ∈ m, p a = true) (hl : l ≠ []) :
    stripBy p (l ++ m) = l := by
  obtain ⟨a, t, rfl⟩ := List.exists_cons_of_ne_nil hl
  have hself := stripBy_eq_self hhead hlast
  rw [stripBy, List.dropWhile_cons_of_neg (by rw [hhead a rfl]; exact Bool.false_ne_true)] at hself
  rw [stripBy, List.cons_append,
    List.dropWhile_cons_of_neg (by rw [hhead a rfl]; exact Bool.false_ne_true), ← List.cons_append,
    List.reverse_append,
    List.dropWhile_append_of_pos fun b hb => hm b (List.mem_reverse.mp hb)]
  exact hself

theorem stripBy_idem (p : α → Bool) (l : List α) : stripBy p (stripBy p l) = stripBy p l :=
  stripBy_eq_self (stripBy_head p l) (stripBy_getLast p l)

/-- Stripping a list that has none of the elements. -/
theorem stripBy_of_none (h : ∀ a ∈ l, p a = false) : stripBy p l = l :=
  stripBy_eq_self (fun a ha => h a (List.mem_of_mem_head? ha))
    fun a ha => h a (List.mem_of_getLast? ha)

theorem mem_of_mem_stripBy {a : α} (h : a ∈ stripBy p l) : a ∈ l := by
  rw [stripBy, List.mem_reverse] at h
  have hdrop := (List.dropWhile_suffix p).subset h
  exact (List.dropWhile_suffix p).subset (List.mem_reverse.mp hdrop)

/-- An element that is not stripped stays. -/
theorem mem_stripBy_of_not {a : α} (ha : a ∈ l) (hp : p a = false) : a ∈ stripBy p l := by
  have hdrop : ∀ m : List α, a ∈ m → a ∈ m.dropWhile p := by
    intro m hm
    rw [← List.takeWhile_append_dropWhile (p := p) (l := m), List.mem_append] at hm
    rcases hm with hm | hm
    · rw [List.mem_takeWhile_imp hm] at hp
      cases hp
    · exact hm
  rw [stripBy, List.mem_reverse]
  exact hdrop _ (List.mem_reverse.mpr (hdrop l ha))

theorem stripBy_map {β : Type u} (f : α → β) (q : β → Bool) (l : List α) :
    stripBy q (l.map f) = (stripBy (q ∘ f) l).map f := by
  simp only [stripBy, List.dropWhile_map, ← List.map_reverse]

end Strip

/-- The parts of a split hold what is no separator. -/
theorem mem_splitOn_iff {α : Type u} [BEq α] [LawfulBEq α] {sep a : α} (h : a ≠ sep)
    (l : List α) : (∃ part ∈ l.splitOn sep, a ∈ part) ↔ a ∈ l := by
  rw [List.splitOn_eq_splitOnP]
  induction l with
  | nil => simp
  | cons b l ih =>
    rw [List.splitOnP_cons_eq_if_modifyHead]
    by_cases hb : (b == sep) = true
    · have hne : a ≠ b := fun heq => h (heq.trans (beq_iff_eq.mp hb))
      rw [if_pos hb, List.exists_mem_cons_iff, ih, List.mem_cons, or_iff_right hne]
      exact or_iff_right List.not_mem_nil
    · rw [if_neg hb, List.mem_cons, ← ih]
      cases hparts : l.splitOnP (· == sep) with
      | nil => exact absurd hparts (List.splitOnP_ne_nil _ _)
      | cons part parts =>
        rw [List.modifyHead_cons, List.exists_mem_cons_iff, List.exists_mem_cons_iff,
          List.mem_cons, or_assoc]

/-- `str.isspace` for one code point. -/
def isSpace (c : CodePoint) : Bool :=
  let n := c.val
  (0x09 ≤ n && n ≤ 0x0D) || (0x1C ≤ n && n ≤ 0x20) || n == 0x85 || n == 0xA0 || n == 0x1680 ||
    (0x2000 ≤ n && n ≤ 0x200A) || n == 0x2028 || n == 0x2029 || n == 0x202F || n == 0x205F ||
    n == 0x3000

/-- `str.strip`. -/
def strip (s : PyStr) : PyStr := stripBy isSpace s

/-- `s.strip()` is not empty. -/
def nonBlank (s : PyStr) : Bool := strip s != []

theorem strip_idem (s : PyStr) : strip (strip s) = strip s := stripBy_idem isSpace s

theorem nonBlank_iff (s : PyStr) : nonBlank s = true ↔ ∃ c ∈ s, isSpace c = false := by
  rw [nonBlank, bne_iff_ne, ne_eq, strip, stripBy_eq_nil]
  simp

/-- The zeros of the decimal digits, of every script of Unicode 13. -/
def decimalZeros : List ℕ :=
  [0x30, 0x660, 0x6F0, 0x7C0, 0x966, 0x9E6, 0xA66, 0xAE6, 0xB66, 0xBE6, 0xC66, 0xCE6, 0xD66,
   0xDE6, 0xE50, 0xED0, 0xF20, 0x1040, 0x1090, 0x17E0, 0x1810, 0x1946, 0x19D0, 0x1A80, 0x1A90,
   0x1B50, 0x1BB0, 0x1C40, 0x1C50, 0xA620, 0xA8D0, 0xA900, 0xA9D0, 0xA9F0, 0xAA50, 0xABF0, 0xFF10,
   0x104A0, 0x10D30, 0x11066, 0x110F0, 0x11136, 0x111D0, 0x112F0, 0x11450, 0x114D0, 0x11650,
   0x116C0, 0x11730, 0x118E0, 0x11950, 0x11C50, 0x11D50, 0x11DA0, 0x16A60, 0x16B50, 0x1D7CE,
   0x1D7D8, 0x1D7E2, 0x1D7EC, 0x1D7F6, 0x1E140, 0x1E2F0, 0x1E950, 0x1FBF0]

-- ============================================================================
-- Text files
-- ============================================================================

/-- What reading a text file makes of its line ends. -/
def universalNewlines : PyStr → PyStr
  | [] => []
  | [c] => if c = codePoint '\r' then [codePoint '\n'] else [c]
  | c :: d :: rest =>
      if c = codePoint '\r' then
        if d = codePoint '\n' then codePoint '\n' :: universalNewlines rest
        else codePoint '\n' :: universalNewlines (d :: rest)
      else c :: universalNewlines (d :: rest)

/-- A text without carriage returns is read as it is. -/
theorem universalNewlines_eq_self {s : PyStr} (h : codePoint '\r' ∉ s) :
    universalNewlines s = s := by
  induction s with
  | nil => rfl
  | cons c s ih =>
    obtain ⟨hc, hs⟩ := List.ne_and_not_mem_of_not_mem_cons h
    cases s with
    | nil => rw [universalNewlines, if_neg (Ne.symm hc)]
    | cons d s => rw [universalNewlines, if_neg (Ne.symm hc), ih hs]

-- ============================================================================
-- The encoder
-- ============================================================================

def surrogate (c : CodePoint) : Bool := 0xD800 ≤ c.val && c.val ≤ 0xDFFF

/-- A surrogate without a partner. -/
def loneSurrogate : CodePoint := ⟨0xD800, by decide⟩

/-- `s.encode()` does not raise. -/
def encodable (s : PyStr) : Bool := s.all fun c => !surrogate c

theorem encodable_pyStr (s : String) : encodable (pyStr s) = true := by
  rw [encodable, List.all_eq_true]
  intro c hc
  obtain ⟨d, -, rfl⟩ := List.mem_map.mp hc
  have hvalid := toNat_valid d
  rw [Bool.not_eq_true', surrogate, codePoint_val, Bool.and_eq_false_iff, decide_eq_false_iff_not,
    decide_eq_false_iff_not]
  omega

theorem encodable_append {s t : PyStr} :
    encodable (s ++ t) = true ↔ encodable s = true ∧ encodable t = true := by
  rw [encodable, List.all_append, Bool.and_eq_true]
  rfl

theorem isSpace_of_surrogate {c : CodePoint} (h : surrogate c = true) : isSpace c = false := by
  rw [surrogate, Bool.and_eq_true, decide_eq_true_eq, decide_eq_true_eq] at h
  simp only [isSpace, Bool.or_eq_false_iff, Bool.and_eq_false_iff, decide_eq_false_iff_not,
    beq_eq_false_iff_ne]
  omega

theorem encodable_iff {s : PyStr} : encodable s = true ↔ ∀ c ∈ s, surrogate c = false := by
  rw [encodable, List.all_eq_true]
  exact forall₂_congr fun c _ => iff_of_eq (Bool.not_eq_true' _)

/-- Stripping takes no surrogate away. -/
theorem encodable_strip_iff {s : PyStr} : encodable (strip s) = true ↔ encodable s = true := by
  rw [encodable_iff, encodable_iff]
  refine ⟨fun h c hc => ?_, fun h c hc => h c (mem_of_mem_stripBy hc)⟩
  cases hs : surrogate c with
  | false => rfl
  | true => rw [← hs, h c (mem_stripBy_of_not hc (isSpace_of_surrogate hs))]

end Babycat.Text
