/-
  Babycat.Text.JsonNumber

  The numbers of JSON as Python reads and writes them (`_match_number` of the
  decoder, `int.__repr__` and `float.__repr__`).

  A float is written as the shortest decimal that is read back: `floatText`
  takes the first candidate that is, by the number of digits.  Its last resort,
  the exact value, makes it total.
-/

import Babycat.Text.Json
import Mathlib.Data.Nat.Digits.Lemmas

namespace Babycat.Text.Json

-- ============================================================================
-- Reading
-- ============================================================================

def isDigit (c : CodePoint) : Bool := 48 ≤ c.val && c.val ≤ 57

/-- The value of a digit. -/
def digitOf (c : CodePoint) : ℕ := c.val - 48

def digitsValue (ds : PyStr) : ℕ := ds.foldl (fun acc c => 10 * acc + digitOf c) 0

/-- A number of a document. -/
inductive Number
  | int (n : ℤ)
  | float (x : Double)
  deriving DecidableEq

def Number.toJson : Number → Json
  | .int n => .int n
  | .float x => .float x

def minus : CodePoint := codePoint '-'
def dot : CodePoint := codePoint '.'

/-- A sign that may be there. -/
def readSign : PyStr → Bool × PyStr
  | [] => (false, [])
  | c :: rest => if c = minus then (true, rest) else (false, c :: rest)

/-- A zero, or digits that do not start with one. -/
def readInteger : PyStr → Option (PyStr × PyStr)
  | [] => none
  | c :: rest =>
      if c = codePoint '0' then some ([c], rest)
      else if isDigit c then some (c :: rest.takeWhile isDigit, rest.dropWhile isDigit)
      else none

/-- The digits behind a dot; none if there is no dot with a digit behind it. -/
def readFraction : PyStr → PyStr × PyStr
  | c :: d :: rest =>
      if c = dot && isDigit d then (d :: rest.takeWhile isDigit, rest.dropWhile isDigit)
      else ([], c :: d :: rest)
  | s => ([], s)

/-- The sign of an exponent. -/
def readExponentSign : PyStr → Bool × PyStr
  | [] => (false, [])
  | c :: rest =>
      if c = minus then (true, rest)
      else if c = codePoint '+' then (false, rest)
      else (false, c :: rest)

/-- An exponent; none if there is no digit. -/
def readExponent : PyStr → Option ℤ × PyStr
  | [] => (none, [])
  | c :: rest =>
      if c = codePoint 'e' || c = codePoint 'E' then
        let (negative, s) := readExponentSign rest
        let ds := s.takeWhile isDigit
        if ds = [] then (none, c :: rest)
        else (some (if negative then -(digitsValue ds : ℤ) else digitsValue ds), s.dropWhile isDigit)
      else (none, c :: rest)

/-- The most digits that `int` takes. -/
def maxStrDigits : ℕ := 4300

/-- `_match_number`: the number at the start of a text, and the rest. -/
def readNumber (s : PyStr) : Option (Number × PyStr) :=
  let (negative, s) := readSign s
  match readInteger s with
  | none => none
  | some (ds, s) =>
      let (fraction, s) := readFraction s
      let (exponent, s) := readExponent s
      if fraction = [] && exponent = none then
        if ds.length ≤ maxStrDigits then
          some (.int (if negative then -(digitsValue ds : ℤ) else digitsValue ds), s)
        else none
      else
        some (.float (Double.ofDecimal negative (digitsValue (ds ++ fraction))
          (exponent.getD 0 - fraction.length)), s)

-- ============================================================================
-- Writing
-- ============================================================================

/-- The decimal digits of a natural number. -/
def natText (n : ℕ) : PyStr :=
  if n = 0 then [codePoint '0'] else (Nat.digits 10 n).reverse.map fun d => codePoint d.digitChar

/-- `int.__repr__` -/
def intText (n : ℤ) : PyStr := (if n < 0 then [minus] else []) ++ natText n.natAbs

/-- The text of `digits * 10^exponent` in the style of `float.__repr__`: with an exponent when the
    first digit stands behind the sixteenth place or the fourth one after the dot. -/
def decimalText (digits : ℕ) (exponent : ℤ) : PyStr :=
  let point : ℤ := (natText digits).length + exponent
  let ds :=
    if digits = 0 then natText 0
    else ((natText digits).reverse.dropWhile (· = codePoint '0')).reverse
  if point ≤ -4 || 16 < point then
    let power := point - 1
    let powerDigits := natText power.natAbs
    ds.take 1 ++ (if ds.length = 1 then [] else dot :: ds.drop 1) ++ [codePoint 'e'] ++
      [if power < 0 then minus else codePoint '+'] ++
      (if powerDigits.length = 1 then [codePoint '0'] else []) ++ powerDigits
  else if point ≤ 0 then
    [codePoint '0', dot] ++ List.replicate (-point).toNat (codePoint '0') ++ ds
  else if (ds.length : ℤ) ≤ point then
    ds ++ List.replicate (point - ds.length).toNat (codePoint '0') ++ [dot, codePoint '0']
  else ds.take point.toNat ++ [dot] ++ ds.drop point.toNat

/-- The decimals of `count` digits next to `num / den`, the nearer one first; `below` is a power of
    ten with `10^below ≤ num / den < 10^(below + 1)`. -/
def decimalsNear (num den : ℕ) (below : ℤ) (count : ℕ) : List (ℕ × ℤ) :=
  let exponent := below - (count - 1)
  let num := num * 10 ^ (-exponent).toNat
  let den := den * 10 ^ exponent.toNat
  let q := num / den
  if 2 * (num % den) ≤ den then [(q, exponent), (q + 1, exponent)]
  else [(q + 1, exponent), (q, exponent)]

/-- The place of the first digit of `num / den`. -/
def firstDigit (num den : ℕ) : ℤ :=
  if den ≤ num then Nat.log 10 (num / den) else -(Nat.clog 10 ((den + num - 1) / num) : ℤ)

/-- Decimals close to the magnitude at a position, shortest first. -/
def decimals (n : ℕ) : List (ℕ × ℤ) :=
  (List.range 17).flatMap fun count =>
    decimalsNear (units n) (2 ^ 1074) (firstDigit (units n) (2 ^ 1074)) (count + 1)

def signText (negative : Bool) : PyStr := if negative then [minus] else []

/-- The exact value of the magnitude at a position. -/
def exactText (n : ℕ) : PyStr :=
  natText (units n * 5 ^ 1074) ++ [codePoint 'e', minus] ++ natText 1074

/-- `float.__repr__` of a finite number. -/
def floatText (negative : Bool) (n : ℕ) (le : n ≤ infinityAt) : PyStr :=
  let texts := (if n = 0 then [(0, 0)] else decimals n).map fun d =>
    signText negative ++ decimalText d.1 d.2
  (texts.find? fun text => readNumber text = some (.float (.number negative n le), [])).getD
    (signText negative ++ exactText n)

-- ============================================================================
-- What follows a number
-- ============================================================================

/-- No number goes on with the text. -/
def Stops (rest : PyStr) : Prop :=
  ∀ c ∈ rest.head?, isDigit c = false ∧ c ≠ dot ∧ c ≠ minus ∧ c ≠ codePoint '+' ∧
    c ≠ codePoint 'e' ∧ c ≠ codePoint 'E'

/-- No digit follows. -/
def NoDigit (rest : PyStr) : Prop := ∀ c ∈ rest.head?, isDigit c = false

section Append

variable {s rest : PyStr}

theorem Stops.noDigit (hr : Stops rest) : NoDigit rest := fun c hc => (hr c hc).1

theorem takeWhile_append_stop (hr : NoDigit rest) :
    (s ++ rest).takeWhile isDigit = s.takeWhile isDigit ∧
      (s ++ rest).dropWhile isDigit = s.dropWhile isDigit ++ rest := by
  induction s with
  | nil =>
    cases rest with
    | nil => exact ⟨rfl, rfl⟩
    | cons c rest =>
      have hc := hr c rfl
      simp only [List.nil_append, List.takeWhile_cons, List.dropWhile_cons, hc, Bool.false_eq_true,
        if_false, List.takeWhile_nil, List.dropWhile_nil]
      exact ⟨trivial, trivial⟩
  | cons c s ih =>
    by_cases hc : isDigit c = true
    · simp only [List.cons_append, List.takeWhile_cons, List.dropWhile_cons, hc, if_true, ih.1, ih.2]
      exact ⟨trivial, trivial⟩
    · simp only [List.cons_append, List.takeWhile_cons, List.dropWhile_cons, hc,
        Bool.false_eq_true, if_false]
      exact ⟨trivial, trivial⟩

theorem readSign_append (hs : s ≠ []) (rest : PyStr) :
    readSign (s ++ rest) = ((readSign s).1, (readSign s).2 ++ rest) := by
  cases s with
  | nil => exact absurd rfl hs
  | cons c s =>
    rw [List.cons_append, readSign, readSign]
    split <;> rfl

theorem readInteger_append {ds s' : PyStr} (h : readInteger s = some (ds, s'))
    (hr : NoDigit rest) :
    readInteger (s ++ rest) = some (ds, s' ++ rest) := by
  cases s with
  | nil => cases h
  | cons c s =>
    obtain ⟨htake, hdrop⟩ := takeWhile_append_stop (s := s) hr
    rw [readInteger] at h
    rw [List.cons_append, readInteger, htake, hdrop]
    split_ifs at h ⊢ <;> cases h <;> rfl

theorem readFraction_append (hr : Stops rest) :
    readFraction (s ++ rest) = ((readFraction s).1, (readFraction s).2 ++ rest) := by
  match s with
  | [] =>
    match rest, hr with
    | [], _ => rfl
    | [c], _ => rfl
    | c :: d :: rest, hr =>
      have hdot := (hr c rfl).2.1
      simp only [List.nil_append, readFraction, hdot, decide_false, Bool.false_and,
        Bool.false_eq_true, if_false]
  | [c] =>
    match rest, hr with
    | [], _ => rfl
    | d :: rest, hr =>
      have hd := (hr d rfl).1
      simp only [List.cons_append, List.nil_append, readFraction, hd, Bool.and_false,
        Bool.false_eq_true, if_false]
  | c :: d :: s =>
    obtain ⟨htake, hdrop⟩ := takeWhile_append_stop (s := s) hr.noDigit
    simp only [List.cons_append, readFraction, htake, hdrop]
    split_ifs <;> rfl

theorem readExponentSign_append (hr : Stops rest) :
    readExponentSign (s ++ rest) = ((readExponentSign s).1, (readExponentSign s).2 ++ rest) := by
  cases s with
  | nil =>
    cases rest with
    | nil => rfl
    | cons c rest =>
      obtain ⟨-, -, hminus, hplus, -⟩ := hr c rfl
      simp only [List.nil_append, readExponentSign, hminus, hplus, if_false]
  | cons c s =>
    rw [List.cons_append, readExponentSign, readExponentSign]
    split_ifs <;> rfl

theorem readExponent_append (hr : Stops rest) :
    readExponent (s ++ rest) = ((readExponent s).1, (readExponent s).2 ++ rest) := by
  cases s with
  | nil =>
    cases rest with
    | nil => rfl
    | cons c rest =>
      obtain ⟨-, -, -, -, he, hE⟩ := hr c rfl
      simp only [List.nil_append, readExponent, he, hE, decide_false, Bool.or_self,
        Bool.false_eq_true, if_false]
  | cons c s =>
    obtain ⟨htake, hdrop⟩ := takeWhile_append_stop (s := (readExponentSign s).2) hr.noDigit
    simp only [List.cons_append, readExponent, readExponentSign_append hr, htake, hdrop]
    split_ifs <;> rfl

/-- What follows a number does not change how it is read. -/
theorem readNumber_append {v : Number} {s' : PyStr} (h : readNumber s = some (v, s'))
    (hr : Stops rest) : readNumber (s ++ rest) = some (v, s' ++ rest) := by
  have hs : s ≠ [] := by
    rintro rfl
    cases h
  simp only [readNumber] at h ⊢
  rw [readSign_append hs]
  cases hint : readInteger (readSign s).2 with
  | none =>
    rw [hint] at h
    cases h
  | some r =>
    obtain ⟨ds, s₁⟩ := r
    rw [hint] at h
    simp only [readInteger_append hint hr.noDigit, readFraction_append hr, readExponent_append hr]
    simp only at h
    split_ifs at h ⊢ <;> cases h <;> rfl

/-- A number starts with a minus or a digit. -/
theorem readNumber_head {r : Number × PyStr} (h : readNumber s = some r) :
    ∃ c s', s = c :: s' ∧ (c = minus ∨ isDigit c = true) := by
  cases s with
  | nil => cases h
  | cons c s =>
    refine ⟨c, s, rfl, ?_⟩
    by_contra hc
    obtain ⟨hminus, hdigit⟩ := not_or.mp hc
    have hzero : c ≠ codePoint '0' := by
      rintro rfl
      exact hdigit (by decide)
    simp only [readNumber, readSign, if_neg hminus, readInteger, if_neg hzero, if_neg hdigit] at h
    cases h

end Append

-- ============================================================================
-- What is written is read back
-- ============================================================================

section Digits

theorem isDigit_digitChar {d : ℕ} (h : d < 10) : isDigit (codePoint d.digitChar) = true := by
  have hall : ∀ d < 10, isDigit (codePoint d.digitChar) = true := by decide
  exact hall d h

theorem digitOf_digitChar {d : ℕ} (h : d < 10) : digitOf (codePoint d.digitChar) = d := by
  have hall : ∀ d < 10, digitOf (codePoint d.digitChar) = d := by decide
  exact hall d h

theorem natText_digits (n : ℕ) : ∀ c ∈ natText n, isDigit c = true := by
  intro c hc
  unfold natText at hc
  split at hc
  · rw [List.mem_singleton.mp hc]
    decide
  · obtain ⟨d, hd, rfl⟩ := List.mem_map.mp hc
    exact isDigit_digitChar (Nat.digits_lt_base (by decide) (List.mem_reverse.mp hd))

theorem digitsValue_map (ds : List ℕ) (h : ∀ d ∈ ds, d < 10) :
    digitsValue (ds.reverse.map fun d => codePoint d.digitChar) = Nat.ofDigits 10 ds := by
  rw [digitsValue, List.map_reverse, List.foldl_reverse]
  induction ds with
  | nil => rfl
  | cons d ds ih =>
    rw [List.map_cons, List.foldr_cons, ih fun x hx => h x (List.mem_cons_of_mem d hx),
      digitOf_digitChar (h d List.mem_cons_self), Nat.ofDigits_cons, Nat.add_comm]

theorem digitsValue_natText (n : ℕ) : digitsValue (natText n) = n := by
  unfold natText
  split
  · rename_i h
    rw [h]
    rfl
  · rw [digitsValue_map _ fun d hd => Nat.digits_lt_base (by decide) hd, Nat.ofDigits_digits]

theorem natText_ne_nil (n : ℕ) : natText n ≠ [] := by
  unfold natText
  split
  · exact List.cons_ne_nil _ _
  · rename_i h
    rw [ne_eq, List.map_eq_nil_iff, List.reverse_eq_nil_iff]
    exact Nat.digits_ne_nil_iff_ne_zero.mpr h

theorem length_natText_le {n k : ℕ} (hk : 0 < k) (h : n < 10 ^ k) : (natText n).length ≤ k := by
  unfold natText
  split
  · exact hk
  · rw [List.length_map, List.length_reverse]
    exact (Nat.digits_length_le_iff (by decide) n).mpr h

/-- The digits of a positive number do not start with a zero. -/
theorem natText_head {n : ℕ} (h : n ≠ 0) {c : CodePoint} {s : PyStr} (hs : natText n = c :: s) :
    c ≠ codePoint '0' := by
  rw [natText, if_neg h] at hs
  have hne : Nat.digits 10 n ≠ [] := Nat.digits_ne_nil_iff_ne_zero.mpr h
  have hlast := Nat.getLast_digit_ne_zero 10 h
  have hrev : (Nat.digits 10 n).reverse =
      (Nat.digits 10 n).getLast hne :: (Nat.digits 10 n).dropLast.reverse := by
    rw [← List.reverse_concat, List.dropLast_concat_getLast]
  rw [hrev, List.map_cons] at hs
  have hlt := Nat.digits_lt_base (b := 10) (m := n) (by decide) (List.getLast_mem hne)
  rw [← (List.cons.inj hs).1]
  intro hzero
  have hvalue := digitOf_digitChar hlt
  rw [hzero] at hvalue
  exact hlast (hvalue.symm.trans (by decide))

theorem readInteger_natText (n : ℕ) : readInteger (natText n) = some (natText n, []) := by
  by_cases h : n = 0
  · subst h
    rfl
  · cases hs : natText n with
    | nil => exact absurd hs (natText_ne_nil n)
    | cons c s =>
      have hdigits := natText_digits n
      rw [hs] at hdigits
      have hrest : ∀ d ∈ s, isDigit d = true := fun d hd => hdigits d (List.mem_cons_of_mem c hd)
      rw [readInteger, if_neg (natText_head h hs), if_pos (hdigits c List.mem_cons_self),
        List.takeWhile_eq_self_iff.mpr hrest, List.dropWhile_eq_nil_iff.mpr hrest]

theorem readSign_natText (n : ℕ) (rest : PyStr) :
    readSign (natText n ++ rest) = (false, natText n ++ rest) := by
  cases hs : natText n with
  | nil => exact absurd hs (natText_ne_nil n)
  | cons c s =>
    have hdigit := natText_digits n c (hs ▸ List.mem_cons_self)
    have hne : c ≠ minus := by
      rintro rfl
      exact absurd hdigit (by decide)
    rw [List.cons_append, readSign, if_neg hne]

theorem readSign_signText (negative : Bool) (n : ℕ) (rest : PyStr) :
    readSign (signText negative ++ (natText n ++ rest)) = (negative, natText n ++ rest) := by
  cases negative with
  | false => exact readSign_natText n rest
  | true => rfl

end Digits

/-- `int(repr(n)) == n` -/
theorem readNumber_intText {n : ℤ} (h : n.natAbs < 10 ^ maxStrDigits) :
    readNumber (intText n) = some (.int n, []) := by
  have hsign : intText n = signText (decide (n < 0)) ++ (natText n.natAbs ++ []) := by
    rw [List.append_nil, intText, signText]
    by_cases hn : n < 0
    · rw [if_pos hn, decide_eq_true hn, if_pos rfl]
    · rw [if_neg hn, decide_eq_false hn, if_neg Bool.false_ne_true]
  have hlen : (natText n.natAbs).length ≤ maxStrDigits := length_natText_le (by decide) h
  have hfrac : readFraction [] = ([], []) := rfl
  have hexp : readExponent [] = (none, []) := rfl
  simp only [readNumber]
  rw [hsign, readSign_signText, List.append_nil]
  simp only [readInteger_natText, hfrac, hexp, digitsValue_natText, decide_true, Bool.and_self,
    if_true, if_pos hlen]
  by_cases hn : n < 0
  · rw [decide_eq_true hn, if_pos rfl]
    congr 3
    omega
  · rw [decide_eq_false hn, if_neg Bool.false_ne_true]
    congr 3
    omega

theorem readExponent_digits (m : ℕ) :
    readExponent (codePoint 'e' :: minus :: natText m) = (some (-(m : ℤ)), []) := by
  have hall := natText_digits m
  have hsign : readExponentSign (minus :: natText m) = (true, natText m) := rfl
  simp only [readExponent, hsign, List.takeWhile_eq_self_iff.mpr hall,
    List.dropWhile_eq_nil_iff.mpr hall, natText_ne_nil, digitsValue_natText, decide_true,
    Bool.true_or, if_true, if_false]

/-- Digits with a negative exponent. -/
theorem readNumber_power (negative : Bool) (d m : ℕ) :
    readNumber (signText negative ++ (natText d ++ codePoint 'e' :: minus :: natText m)) =
      some (.float (Double.ofDecimal negative d (-(m : ℤ))), []) := by
  have hnoDigit : NoDigit (codePoint 'e' :: minus :: natText m) := by
    intro c hc
    rw [← Option.some.inj hc]
    decide
  have hint := readInteger_append (readInteger_natText d) hnoDigit
  have hfrac : readFraction (codePoint 'e' :: minus :: natText m) =
      ([], codePoint 'e' :: minus :: natText m) := rfl
  simp only [readNumber]
  rw [readSign_signText]
  simp only [hint, List.nil_append, hfrac, readExponent_digits, List.append_nil,
    digitsValue_natText, Option.getD_some, List.length_nil, Nat.cast_zero, sub_zero, reduceCtorEq,
    decide_false, Bool.and_false, Bool.false_eq_true, if_false]

theorem ofDecimal_exact (negative : Bool) {n : ℕ} (le : n ≤ infinityAt) :
    Double.ofDecimal negative (units n * 5 ^ 1074) (-(1074 : ℕ)) = .number negative n le := by
  have hzero : (-((1074 : ℕ) : ℤ)).toNat = 0 := rfl
  have hpower : (-(-((1074 : ℕ) : ℤ))).toNat = 1074 := rfl
  have hten : (5 * 2 : ℕ) = 10 := rfl
  have hmul : units n * 5 ^ 1074 * 10 ^ 0 * 2 ^ 1074 = units n * 10 ^ 1074 := by
    rw [pow_zero, mul_one, mul_assoc, ← mul_pow, hten]
  have hnearest : nearest (units n * 5 ^ 1074 * 10 ^ 0 * 2 ^ 1074) (10 ^ 1074) = n := by
    rw [hmul, nearest_units (Nat.pow_pos (by decide)) le]
  simp only [Double.ofDecimal, hzero, hpower, hnearest]

/-- The exact value is read back. -/
theorem readNumber_exactText (negative : Bool) {n : ℕ} (le : n ≤ infinityAt) :
    readNumber (signText negative ++ exactText n) = some (.float (.number negative n le), []) := by
  have htext : exactText n =
      natText (units n * 5 ^ 1074) ++ codePoint 'e' :: minus :: natText 1074 := by
    rw [exactText, List.append_assoc, List.cons_append, List.cons_append, List.nil_append]
  rw [htext, readNumber_power, ofDecimal_exact negative le]

/-- `float(repr(x)) == x` -/
theorem readNumber_floatText (negative : Bool) (n : ℕ) (le : n ≤ infinityAt) :
    readNumber (floatText negative n le) = some (.float (.number negative n le), []) := by
  unfold floatText
  generalize (if n = 0 then [(0, 0)] else decimals n).map
    (fun d => signText negative ++ decimalText d.1 d.2) = texts
  have hfound : ∀ text, (texts.find? fun text =>
      readNumber text = some (.float (.number negative n le), [])) = some text →
      readNumber text = some (.float (.number negative n le), []) :=
    fun text h => of_decide_eq_true (List.find?_some (p := fun text =>
      decide (readNumber text = some (Number.float (.number negative n le), []))) h)
  show readNumber (Option.getD _ _) = _
  cases hfind : texts.find? fun text =>
      readNumber text = some (.float (.number negative n le), []) with
  | some text => exact hfound text hfind
  | none => exact readNumber_exactText negative le

end Babycat.Text.Json
