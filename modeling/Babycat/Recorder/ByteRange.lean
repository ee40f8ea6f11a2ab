/-
  Babycat.Recorder.ByteRange

  The `Range` header of a clip request (`_parse_byte_range`, FR-038).

  The header is matched against `bytes=(\d+)-(\d*)` from its start, and not up
  to its end: what stands behind the match is never looked at.  `ByteRangeText`
  is the grammar of RFC 9110 for a single byte range and `RangeSpec.interval`
  the interval that it stands for; `Conforms` says that the parser answers by
  them.
-/

import Babycat.Time.Strptime
import Mathlib.Data.List.TakeWhile

namespace Babycat.Recorder

open Babycat.Time

-- ============================================================================
-- The parser
-- ============================================================================

/-- The largest number of digits that `int` reads. -/
def intMaxStrDigits : ℕ := 4300

inductive IntError
  | tooManyDigits
  deriving DecidableEq

/-- `\d` -/
def isDecimal (c : Char) : Bool := (anyDigit c).isSome

/-- The number that a run of digits stands for. -/
def decimalValue (digits : List Char) : ℕ :=
  digits.foldl (fun n c => 10 * n + (anyDigit c).getD 0) 0

/-- `int` of a run of digits. -/
def intOfDigits (digits : List Char) : Except IntError ℕ :=
  if digits.length ≤ intMaxStrDigits then .ok (decimalValue digits) else .error .tooManyDigits

/-- The two groups of the match, and what it leaves of the header. -/
structure RangeGroups where
  first : List Char
  last : List Char
  rest : List Char
  deriving DecidableEq

/-- `(\d+)-(\d*)` at the front of a text. -/
def matchNumbers (text : List Char) : Option RangeGroups :=
  match text.takeWhile isDecimal, text.dropWhile isDecimal with
  | c :: first, '-' :: tail =>
      some ⟨c :: first, tail.takeWhile isDecimal, tail.dropWhile isDecimal⟩
  | _, _ => none

/-- `re.match(r"bytes=(\d+)-(\d*)", range_header)` -/
def matchRange (header : List Char) : Option RangeGroups :=
  if "bytes=".toList <+: header then matchNumbers (header.drop 6) else none

/-- `_parse_byte_range`; the numbers are read by `int`, which may raise. -/
def parseByteRange (header : List Char) (fileSize : ℤ) : Except IntError (Option (ℤ × ℤ)) :=
  match matchRange header with
  | none => .ok none
  | some groups => do
      let start ← intOfDigits groups.first
      let stop ← if groups.last = [] then pure (fileSize - 1) else
        (intOfDigits groups.last).map fun n => (n : ℤ)
      let stop := min stop (fileSize - 1)
      if stop < start ∨ fileSize ≤ start then pure none
      else pure (some ((start : ℤ), stop))

-- ============================================================================
-- RFC 9110
-- ============================================================================

/-- A range of bytes as RFC 9110 has it. -/
inductive RangeSpec
  | firstLast (first last : ℕ)
  | onwards (first : ℕ)
  | suffix (length : ℕ)
  deriving DecidableEq

/-- The inclusive interval of a range, when a file of `n` bytes satisfies it. -/
def RangeSpec.interval (n : ℤ) : RangeSpec → Option (ℤ × ℤ)
  | .firstLast first last =>
      if first ≤ last ∧ first < n then some (first, min last (n - 1)) else none
  | .onwards first => if first < n then some (first, n - 1) else none
  | .suffix length => if 0 < length then some (max 0 (n - length), n - 1) else none

/-- The name of a range unit is case-insensitive. -/
def IsBytesUnit (unit : List Char) : Prop := unit.map Char.toLower = "bytes".toList

/-- `1*DIGIT` -/
def IsDigits (digits : List Char) : Prop := digits ≠ [] ∧ ∀ c ∈ digits, c.isDigit = true

/-- The texts of a single range. -/
inductive ByteRangeText : List Char → RangeSpec → Prop
  | firstLast {unit first last : List Char} (hunit : IsBytesUnit unit) (hfirst : IsDigits first)
      (hlast : IsDigits last) :
      ByteRangeText (unit ++ '=' :: (first ++ '-' :: last))
        (.firstLast (decimalValue first) (decimalValue last))
  | onwards {unit first : List Char} (hunit : IsBytesUnit unit) (hfirst : IsDigits first) :
      ByteRangeText (unit ++ '=' :: (first ++ ['-'])) (.onwards (decimalValue first))
  | suffix {unit length : List Char} (hunit : IsBytesUnit unit) (hlength : IsDigits length) :
      ByteRangeText (unit ++ '=' :: '-' :: length) (.suffix (decimalValue length))

/-- The interval that the header asks for. -/
def AsksFor (header : List Char) (n : ℤ) (r : ℤ × ℤ) : Prop :=
  ∃ spec, ByteRangeText header spec ∧ spec.interval n = some r

/-- The parser answers as the grammar has it. -/
def Conforms (header : List Char) (n : ℤ) : Prop :=
  ∃ answer, parseByteRange header n = .ok answer ∧ ∀ r, answer = some r ↔ AsksFor header n r

-- ============================================================================
-- Where the two differ
-- ============================================================================

/-- The match is the whole header, in the digits of the grammar. -/
def RangeGroups.Plain (g : RangeGroups) : Prop :=
  g.rest = [] ∧ (∀ c ∈ g.first, c.isDigit = true) ∧ ∀ c ∈ g.last, c.isDigit = true

/-- A file of `n` bytes has bytes in the range. -/
def RangeGroups.Satisfiable (g : RangeGroups) (n : ℤ) : Prop :=
  decimalValue g.first < n ∧ (g.last = [] ∨ decimalValue g.first ≤ decimalValue g.last)

instance (g : RangeGroups) : Decidable g.Plain := inferInstanceAs (Decidable (_ ∧ _ ∧ _))

instance (g : RangeGroups) (n : ℤ) : Decidable (g.Satisfiable n) :=
  inferInstanceAs (Decidable (_ ∧ _))

/-- The headers that the parser understands. -/
structure Understood (header : List Char) (n : ℤ) : Prop where
  /-- `int` reads the numbers. -/
  short : ∀ g, matchRange header = some g →
    g.first.length ≤ intMaxStrDigits ∧ g.last.length ≤ intMaxStrDigits
  /-- Nothing follows a range that is served, and its digits are ASCII ones. -/
  whole : ∀ g, matchRange header = some g → g.Satisfiable n → g.Plain
  /-- The range is not the last so many bytes. -/
  noSuffix : ∀ unit length, header = unit ++ '=' :: '-' :: length → IsBytesUnit unit →
    IsDigits length → decimalValue length = 0
  /-- The unit of a range that can be served has no capital letter. -/
  lowercase : ∀ unit numbers g, header = unit ++ '=' :: numbers → IsBytesUnit unit →
    unit ≠ "bytes".toList → matchNumbers numbers = some g → g.Plain → ¬ g.Satisfiable n

-- ============================================================================
-- Digits
-- ============================================================================

theorem anyDigit_of_isDigit {c : Char} (h : c.isDigit = true) :
    anyDigit c = some (c.toNat - 48) := by
  have hrange : 48 ≤ c.toNat ∧ c.toNat < 48 + 10 := by
    simp only [Char.isDigit, Bool.and_eq_true, decide_eq_true_eq, ge_iff_le, UInt32.le_iff_toNat_le]
      at h
    exact ⟨h.1, Nat.lt_succ_of_le h.2⟩
  rw [anyDigit, Text.decimalZeros, List.find?_cons_of_pos (by simpa using hrange)]
  rfl

theorem isDecimal_of_isDigit {c : Char} (h : c.isDigit = true) : isDecimal c = true := by
  rw [isDecimal, anyDigit_of_isDigit h]
  rfl

theorem isDecimal_minus : isDecimal '-' = false := by decide

-- ============================================================================
-- The match
-- ============================================================================

/-- A text that does not start with a digit. -/
def NoDigitFirst (text : List Char) : Prop := ∀ c ∈ text.head?, isDecimal c = false

theorem takeWhile_digits {digits rest : List Char} (hd : ∀ c ∈ digits, isDecimal c = true)
    (hrest : NoDigitFirst rest) : (digits ++ rest).takeWhile isDecimal = digits := by
  induction digits with
  | nil =>
    cases rest with
    | nil => rfl
    | cons c rest => simp [hrest c rfl]
  | cons c digits ih =>
    have hc := hd c List.mem_cons_self
    have hrest := ih fun x hx => hd x (List.mem_cons_of_mem _ hx)
    rw [List.cons_append, List.takeWhile_cons_of_pos hc, hrest]

theorem dropWhile_digits {digits rest : List Char} (hd : ∀ c ∈ digits, isDecimal c = true)
    (hrest : NoDigitFirst rest) : (digits ++ rest).dropWhile isDecimal = rest := by
  have hsplit := List.takeWhile_append_dropWhile (p := isDecimal) (l := digits ++ rest)
  rw [takeWhile_digits hd hrest] at hsplit
  exact List.append_cancel_left hsplit

/-- A match, as the decomposition of the text that it stands for. -/
structure RangeGroups.Splits (g : RangeGroups) (text : List Char) : Prop where
  text_eq : text = g.first ++ '-' :: (g.last ++ g.rest)
  first_ne : g.first ≠ []
  first : ∀ c ∈ g.first, isDecimal c = true
  last : ∀ c ∈ g.last, isDecimal c = true
  rest : NoDigitFirst g.rest

theorem noDigitFirst_dropWhile (text : List Char) :
    NoDigitFirst (text.dropWhile isDecimal) := by
  intro c hc
  have := List.head?_dropWhile_not isDecimal text
  rw [Option.mem_def.mp hc] at this
  exact this

theorem matchNumbers_iff {text : List Char} {g : RangeGroups} :
    matchNumbers text = some g ↔ g.Splits text := by
  constructor
  · intro h
    unfold matchNumbers at h
    split at h
    · rename_i c first tail hfirst htail
      cases h
      have hsplit := List.takeWhile_append_dropWhile (p := isDecimal) (l := text)
      refine ⟨?_, List.cons_ne_nil _ _, ?_, ?_, noDigitFirst_dropWhile tail⟩
      · rw [← hsplit, hfirst, htail, List.takeWhile_append_dropWhile]
      · rw [← hfirst]
        exact fun d hd => List.mem_takeWhile_imp hd
      · exact fun d hd => List.mem_takeWhile_imp hd
    · cases h
  · intro hg
    have hminus : NoDigitFirst ('-' :: (g.last ++ g.rest)) := by
      intro c hc
      cases hc
      exact isDecimal_minus
    have htake := takeWhile_digits hg.first hminus
    have hdrop := dropWhile_digits hg.first hminus
    obtain ⟨c, first, hcons⟩ := List.exists_cons_of_ne_nil hg.first_ne
    unfold matchNumbers
    rw [hg.text_eq, htake, hdrop, hcons]
    simp only [takeWhile_digits hg.last hg.rest, dropWhile_digits hg.last hg.rest]
    rw [← hcons]

theorem matchRange_iff {header : List Char} {g : RangeGroups} :
    matchRange header = some g ↔
      ∃ numbers, header = "bytes=".toList ++ numbers ∧ g.Splits numbers := by
  unfold matchRange
  constructor
  · intro h
    split at h
    · rename_i hprefix
      obtain ⟨numbers, rfl⟩ := hprefix
      exact ⟨numbers, rfl, matchNumbers_iff.mp h⟩
    · cases h
  · rintro ⟨numbers, rfl, hg⟩
    rw [if_pos (List.prefix_append _ _)]
    exact matchNumbers_iff.mpr hg

/-- A header has one unit. -/
theorem unit_unique {unit unit' numbers numbers' : List Char} (h : IsBytesUnit unit)
    (h' : IsBytesUnit unit') (heq : unit ++ '=' :: numbers = unit' ++ '=' :: numbers') :
    unit = unit' ∧ numbers = numbers' := by
  have hlen : unit.length = unit'.length := by
    have := congrArg List.length (h.trans h'.symm)
    simpa using this
  obtain ⟨hunit, hrest⟩ := List.append_inj heq hlen
  exact ⟨hunit, (List.cons.inj hrest).2⟩

theorem isBytesUnit_bytes : IsBytesUnit "bytes".toList := by
  unfold IsBytesUnit
  decide

/-- What a match says of the unit and the numbers. -/
theorem matchRange_unit {unit numbers : List Char} {g : RangeGroups} (hunit : IsBytesUnit unit)
    (h : matchRange (unit ++ '=' :: numbers) = some g) :
    unit = "bytes".toList ∧ g.Splits numbers := by
  obtain ⟨numbers', heq, hg⟩ := matchRange_iff.mp h
  obtain ⟨rfl, rfl⟩ := unit_unique hunit isBytesUnit_bytes heq
  exact ⟨rfl, hg⟩

theorem matchRange_bytes {numbers : List Char} {g : RangeGroups} (h : g.Splits numbers) :
    matchRange ("bytes".toList ++ '=' :: numbers) = some g :=
  matchRange_iff.mpr ⟨numbers, rfl, h⟩

/-- A suffix range has no number in front. -/
theorem not_splits_suffix {g : RangeGroups} {length : List Char} :
    ¬ g.Splits ('-' :: length) := by
  intro hg
  obtain ⟨c, first, hcons⟩ := List.exists_cons_of_ne_nil hg.first_ne
  have hhead : '-' = c := by
    have := hg.text_eq
    rw [hcons] at this
    exact (List.cons.inj this).1
  have hc := hg.first c (hcons ▸ List.mem_cons_self)
  rw [← hhead, isDecimal_minus] at hc
  cases hc

-- ============================================================================
-- The grammar in terms of the match
-- ============================================================================

/-- The interval of a match that is satisfiable. -/
def RangeGroups.interval (g : RangeGroups) (n : ℤ) : ℤ × ℤ :=
  (decimalValue g.first, if g.last = [] then n - 1 else min (decimalValue g.last) (n - 1))

/-- The range that a plain match stands for. -/
def RangeGroups.spec (g : RangeGroups) : RangeSpec :=
  if g.last = [] then .onwards (decimalValue g.first)
  else .firstLast (decimalValue g.first) (decimalValue g.last)

theorem RangeGroups.spec_interval (g : RangeGroups) (n : ℤ) :
    g.spec.interval n = if g.Satisfiable n then some (g.interval n) else none := by
  by_cases hlast : g.last = []
  · simp [RangeGroups.spec, RangeSpec.interval, RangeGroups.Satisfiable, RangeGroups.interval,
      hlast]
  · simp [RangeGroups.spec, RangeSpec.interval, RangeGroups.Satisfiable, RangeGroups.interval,
      hlast, and_comm]

theorem text_of_splits {unit numbers : List Char} {g : RangeGroups} (hunit : IsBytesUnit unit)
    (hg : g.Splits numbers) (hplain : g.Plain) :
    ByteRangeText (unit ++ '=' :: numbers) g.spec := by
  obtain ⟨hrest, hfirst, hlast⟩ := hplain
  rw [hg.text_eq, hrest, List.append_nil]
  by_cases hempty : g.last = []
  · rw [RangeGroups.spec, if_pos hempty, hempty]
    exact .onwards hunit ⟨hg.first_ne, hfirst⟩
  · rw [RangeGroups.spec, if_neg hempty]
    exact .firstLast hunit ⟨hg.first_ne, hfirst⟩ ⟨hempty, hlast⟩

/-- A text of the grammar is a suffix range, or a unit with a plain match. -/
theorem text_cases {header : List Char} {spec : RangeSpec} (h : ByteRangeText header spec) :
    (∃ unit length, header = unit ++ '=' :: '-' :: length ∧ IsBytesUnit unit ∧ IsDigits length ∧
      spec = .suffix (decimalValue length)) ∨
    ∃ unit numbers g, header = unit ++ '=' :: numbers ∧ IsBytesUnit unit ∧
      RangeGroups.Splits g numbers ∧ g.Plain ∧ spec = g.spec := by
  have hnil : NoDigitFirst [] := by
    intro c hc
    cases hc
  cases h with
  | @suffix unit length hunit hlength => exact .inl ⟨unit, length, rfl, hunit, hlength, rfl⟩
  | @onwards unit first hunit hfirst =>
    have hsplits : RangeGroups.Splits ⟨first, [], []⟩ (first ++ ['-']) :=
      ⟨rfl, hfirst.1, fun c hc => isDecimal_of_isDigit (hfirst.2 c hc), by simp, hnil⟩
    exact .inr ⟨unit, _, _, rfl, hunit, hsplits, ⟨rfl, hfirst.2, by simp⟩, rfl⟩
  | @firstLast unit first last hunit hfirst hlast =>
    have hsplits : RangeGroups.Splits ⟨first, last, []⟩ (first ++ '-' :: last) :=
      ⟨by simp, hfirst.1, fun c hc => isDecimal_of_isDigit (hfirst.2 c hc),
        fun c hc => isDecimal_of_isDigit (hlast.2 c hc), hnil⟩
    refine .inr ⟨unit, _, _, rfl, hunit, hsplits, ⟨rfl, hfirst.2, hlast.2⟩, ?_⟩
    rw [RangeGroups.spec, if_neg hlast.1]

-- ============================================================================
-- What the parser returns
-- ============================================================================

theorem parseByteRange_none {header : List Char} {n : ℤ} (h : matchRange header = none) :
    parseByteRange header n = .ok none := by
  simp only [parseByteRange, h]

theorem parseByteRange_some {header : List Char} {n : ℤ} {g : RangeGroups}
    (h : matchRange header = some g) (hfirst : g.first.length ≤ intMaxStrDigits)
    (hlast : g.last.length ≤ intMaxStrDigits) :
    parseByteRange header n =
      .ok (if g.Satisfiable n then some (g.interval n) else none) := by
  have hstart : intOfDigits g.first = .ok (decimalValue g.first) := if_pos hfirst
  have hstop : intOfDigits g.last = .ok (decimalValue g.last) := if_pos hlast
  by_cases hempty : g.last = []
  · have hparse : parseByteRange header n =
        .ok (if min (n - 1) (n - 1) < (decimalValue g.first : ℤ) ∨ n ≤ decimalValue g.first
          then none else some (↑(decimalValue g.first), min (n - 1) (n - 1))) := by
      simp only [parseByteRange, h, hstart, if_pos hempty]
      exact (apply_ite Except.ok _ _ _).symm
    rw [hparse, RangeGroups.interval, if_pos hempty, min_self]
    by_cases hsat : g.Satisfiable n
    · have := hsat.1
      rw [if_pos hsat, if_neg (by omega)]
    · have : n ≤ decimalValue g.first := not_lt.mp fun hlt => hsat ⟨hlt, .inl hempty⟩
      rw [if_neg hsat, if_pos (by omega)]
  · have hparse : parseByteRange header n =
        .ok (if min (decimalValue g.last : ℤ) (n - 1) < (decimalValue g.first : ℤ) ∨
            n ≤ decimalValue g.first
          then none else some (↑(decimalValue g.first), min ↑(decimalValue g.last) (n - 1))) := by
      simp only [parseByteRange, h, hstart, hstop, if_neg hempty]
      exact (apply_ite Except.ok _ _ _).symm
    rw [hparse, RangeGroups.interval, if_neg hempty]
    by_cases hsat : g.Satisfiable n
    · have hlt := hsat.1
      have hle := hsat.2.resolve_left hempty
      rw [if_pos hsat, if_neg (by omega)]
    · have : ¬ ((decimalValue g.first : ℤ) < n ∧ decimalValue g.first ≤ decimalValue g.last) :=
        fun hlt => hsat ⟨hlt.1, .inr hlt.2⟩
      rw [if_neg hsat, if_pos (by omega)]

/-- `int` raises. -/
theorem parseByteRange_error {header : List Char} {n : ℤ} {g : RangeGroups}
    (h : matchRange header = some g)
    (hlong : ¬ (g.first.length ≤ intMaxStrDigits ∧ g.last.length ≤ intMaxStrDigits)) :
    parseByteRange header n = .error .tooManyDigits := by
  by_cases hfirst : g.first.length ≤ intMaxStrDigits
  · have hlast : ¬ g.last.length ≤ intMaxStrDigits := fun hlast => hlong ⟨hfirst, hlast⟩
    have hempty : g.last ≠ [] := by
      intro hnil
      rw [hnil] at hlast
      exact hlast (Nat.zero_le _)
    have hstart : intOfDigits g.first = .ok (decimalValue g.first) := if_pos hfirst
    have hstop : intOfDigits g.last = .error .tooManyDigits := if_neg hlast
    simp only [parseByteRange, h, hstart, hstop, if_neg hempty]
    rfl
  · have hstart : intOfDigits g.first = .error .tooManyDigits := if_neg hfirst
    simp only [parseByteRange, h, hstart]
    rfl

/-- What is served is an interval of the file. -/
theorem parseByteRange_bounds {header : List Char} {n start stop : ℤ}
    (h : parseByteRange header n = .ok (some (start, stop))) :
    0 ≤ start ∧ start ≤ stop ∧ stop < n := by
  cases hm : matchRange header with
  | none =>
    rw [parseByteRange_none hm] at h
    cases h
  | some g =>
    by_cases hlong : g.first.length ≤ intMaxStrDigits ∧ g.last.length ≤ intMaxStrDigits
    · rw [parseByteRange_some hm hlong.1 hlong.2] at h
      by_cases hsat : g.Satisfiable n
      · rw [if_pos hsat, Except.ok.injEq, Option.some.injEq, RangeGroups.interval,
          Prod.mk.injEq] at h
        obtain ⟨hlt, hle⟩ := hsat
        obtain ⟨rfl, rfl⟩ := h
        refine ⟨Int.natCast_nonneg _, ?_, ?_⟩
        · split
          · omega
          · have := hle.resolve_left ‹_›
            omega
        · split <;> omega
      · rw [if_neg hsat] at h
        cases h
    · rw [parseByteRange_error hm hlong] at h
      cases h

theorem matchRange_suffix {unit length : List Char} (hunit : IsBytesUnit unit) :
    matchRange (unit ++ '=' :: '-' :: length) = none := by
  cases h : matchRange (unit ++ '=' :: '-' :: length) with
  | none => rfl
  | some g => exact absurd (matchRange_unit hunit h).2 not_splits_suffix

theorem splits_unique {g g' : RangeGroups} {numbers : List Char} (h : g.Splits numbers)
    (h' : g'.Splits numbers) : g = g' :=
  Option.some.inj ((matchNumbers_iff.mpr h).symm.trans (matchNumbers_iff.mpr h'))

/-- Where there is a match, the grammar asks for its interval or for nothing. -/
theorem asksFor_match {header : List Char} {n : ℤ} {g : RangeGroups} {r : ℤ × ℤ}
    (hg : matchRange header = some g) :
    AsksFor header n r ↔ g.Plain ∧ g.Satisfiable n ∧ r = g.interval n := by
  constructor
  · rintro ⟨spec, htext, hr⟩
    rcases text_cases htext with ⟨unit, length, rfl, hunit, -, -⟩ |
      ⟨unit, numbers, g', rfl, hunit, hsplits, hplain, rfl⟩
    · rw [matchRange_suffix hunit] at hg
      cases hg
    · obtain rfl := splits_unique hsplits (matchRange_unit hunit hg).2
      rw [RangeGroups.spec_interval] at hr
      split at hr
      · rename_i hsat
        exact ⟨hplain, hsat, (Option.some.inj hr).symm⟩
      · cases hr
  · rintro ⟨hplain, hsat, rfl⟩
    obtain ⟨numbers, rfl, hsplits⟩ := matchRange_iff.mp hg
    refine ⟨g.spec, text_of_splits isBytesUnit_bytes hsplits hplain, ?_⟩
    rw [RangeGroups.spec_interval, if_pos hsat]

theorem understood_of_conforms {header : List Char} {n : ℤ} (h : Conforms header n) :
    Understood header n := by
  obtain ⟨answer, hparse, hanswer⟩ := h
  have hshort : ∀ g, matchRange header = some g →
      g.first.length ≤ intMaxStrDigits ∧ g.last.length ≤ intMaxStrDigits := by
    intro g hg
    by_contra hlong
    rw [parseByteRange_error hg hlong] at hparse
    cases hparse
  have hunasked : matchRange header = none → ∀ r, ¬ AsksFor header n r := by
    intro hnone r hasks
    rw [parseByteRange_none hnone, Except.ok.injEq] at hparse
    have hsome := (hanswer r).mpr hasks
    rw [← hparse] at hsome
    cases hsome
  refine ⟨hshort, ?whole, ?noSuffix, ?lowercase⟩
  case whole =>
    intro g hg hsat
    obtain ⟨hfirst, hlast⟩ := hshort g hg
    rw [parseByteRange_some hg hfirst hlast, if_pos hsat, Except.ok.injEq] at hparse
    exact ((asksFor_match hg).mp ((hanswer _).mp hparse.symm)).1
  case noSuffix =>
    rintro unit length rfl hunit hlength
    by_contra hpos
    have hinterval : (RangeSpec.suffix (decimalValue length)).interval n =
        some (max 0 (n - decimalValue length), n - 1) := if_pos (Nat.pos_of_ne_zero hpos)
    exact hunasked (matchRange_suffix hunit) _ ⟨_, .suffix hunit hlength, hinterval⟩
  case lowercase =>
    rintro unit numbers g rfl hunit hcapital hg hplain hsat
    have hnone : matchRange (unit ++ '=' :: numbers) = none := by
      cases h : matchRange (unit ++ '=' :: numbers) with
      | none => rfl
      | some g => exact absurd (matchRange_unit hunit h).1 hcapital
    refine hunasked hnone (g.interval n) ⟨g.spec, ?_, ?_⟩
    · exact text_of_splits hunit (matchNumbers_iff.mp hg) hplain
    · rw [RangeGroups.spec_interval, if_pos hsat]

theorem conforms_of_understood {header : List Char} {n : ℤ} (h : Understood header n) :
    Conforms header n := by
  cases hm : matchRange header with
  | none =>
    refine ⟨none, parseByteRange_none hm, fun r => ⟨fun hr => ?_, ?_⟩⟩
    · exact absurd hr.symm (Option.some_ne_none r)
    rintro ⟨spec, htext, hr⟩
    rcases text_cases htext with ⟨unit, length, rfl, hunit, hlength, rfl⟩ |
      ⟨unit, numbers, g, rfl, hunit, hsplits, hplain, rfl⟩
    · simp [RangeSpec.interval, h.noSuffix unit length rfl hunit hlength] at hr
    · by_cases hcapital : unit = "bytes".toList
      · rw [hcapital, matchRange_bytes hsplits] at hm
        cases hm
      · have hsat := h.lowercase unit numbers g rfl hunit hcapital
          (matchNumbers_iff.mpr hsplits) hplain
        rw [RangeGroups.spec_interval, if_neg hsat] at hr
        cases hr
  | some g =>
    obtain ⟨hfirst, hlast⟩ := h.short g hm
    refine ⟨_, parseByteRange_some hm hfirst hlast, fun r => ?_⟩
    rw [asksFor_match hm]
    by_cases hsat : g.Satisfiable n
    · rw [if_pos hsat, Option.some.injEq]
      exact ⟨fun hr => ⟨h.whole g hm hsat, hsat, hr.symm⟩, fun hr => hr.2.2.symm⟩
    · simp [hsat]

/-- The parser answers by the grammar for exactly the headers that it understands. -/
theorem parseByteRange_conforms_iff (header : List Char) (n : ℤ) :
    Conforms header n ↔ Understood header n :=
  ⟨understood_of_conforms, conforms_of_understood⟩

/-- The last five bytes are refused, and of two ranges the first one is served. -/
theorem parseByteRange_differs :
    ¬ Conforms "bytes=-5".toList 10 ∧ ¬ Conforms "bytes=0-1,4-5".toList 10 := by
  constructor
  · rintro ⟨answer, hparse, hanswer⟩
    have hnone : answer = none := by
      have : parseByteRange "bytes=-5".toList 10 = .ok none := by decide
      exact (Except.ok.inj (this.symm.trans hparse)).symm
    have hdigits : IsDigits ['5'] :=
      ⟨List.cons_ne_nil _ _, fun c hc => by rw [List.mem_singleton.mp hc]; rfl⟩
    have hasks : AsksFor "bytes=-5".toList 10 (5, 9) :=
      ⟨_, .suffix isBytesUnit_bytes hdigits, by decide⟩
    rw [hnone] at hanswer
    exact Option.some_ne_none _ ((hanswer _).mpr hasks).symm
  · rintro ⟨answer, hparse, hanswer⟩
    have hgroups : matchRange "bytes=0-1,4-5".toList =
        some ⟨['0'], ['1'], [',', '4', '-', '5']⟩ := by decide
    have hsome : answer = some (0, 1) := by
      have : parseByteRange "bytes=0-1,4-5".toList 10 = .ok (some (0, 1)) := by decide
      exact (Except.ok.inj (this.symm.trans hparse)).symm
    have hplain := ((asksFor_match hgroups).mp ((hanswer _).mp hsome)).1
    exact List.cons_ne_nil _ _ hplain.1

end Babycat.Recorder
