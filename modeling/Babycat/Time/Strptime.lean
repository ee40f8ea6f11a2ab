/-
  Babycat.Time.Strptime

  `time.strptime` for stamps of the form `%Y%m%d_%H%M%S`.

  The format is matched as a regular expression: a field takes one or two
  characters, in the order of its alternatives, and a later field that does not
  match sends the matcher back to the next alternative.  Only the first match
  of the whole expression counts; characters it leaves over are an error.
-/

import Babycat.Text.PyStr
import Babycat.Time.DateOrder

namespace Babycat.Time

-- ============================================================================
-- Fields
-- ============================================================================

/-- `\d` -/
def anyDigit (c : Char) : Option ℕ :=
  (Text.decimalZeros.find? fun z => z ≤ c.toNat ∧ c.toNat < z + 10).map (c.toNat - ·)

/-- `[low-high]` -/
def digitIn (low high : ℕ) (c : Char) : Option ℕ :=
  if low + 48 ≤ c.toNat ∧ c.toNat ≤ high + 48 then some (c.toNat - 48) else none

/-- A blank counts as a zero. -/
def blank (c : Char) : Option ℕ := if c = ' ' then some 0 else none

/-- The values a field can have at the front of a text, each with what is left of the text. -/
abbrev Field := List Char → List (ℕ × List Char)

def oneDigit (p : Char → Option ℕ) : Field
  | c :: s => ((p c).map fun v => (v, s)).toList
  | [] => []

def twoDigits (p q : Char → Option ℕ) : Field
  | c :: d :: s => ((p c).bind fun v => (q d).map fun w => (10 * v + w, s)).toList
  | _ => []

def oneOf (alternatives : List Field) : Field := fun s => alternatives.flatMap (· s)

/-- The rest of an expression behind a field. -/
def Field.andThen {α : Type} (f : Field) (k : ℕ → List Char → List α) : List Char → List α :=
  fun s => (f s).flatMap fun m => k m.1 m.2

/-- The rest of an expression behind a character. -/
def literal {α : Type} (c : Char) (k : List Char → List α) : List Char → List α
  | d :: s => if d = c then k s else []
  | [] => []

/-- `\d\d\d\d` -/
def yearField : Field :=
  (twoDigits anyDigit anyDigit).andThen fun century =>
    (twoDigits anyDigit anyDigit).andThen fun year s => [(100 * century + year, s)]

/-- `1[0-2]|0[1-9]|[1-9]` -/
def monthField : Field :=
  oneOf [twoDigits (digitIn 1 1) (digitIn 0 2), twoDigits (digitIn 0 0) (digitIn 1 9),
    oneDigit (digitIn 1 9)]

/-- `3[0-1]|[1-2]\d|0[1-9]|[1-9]| [1-9]` -/
def dayField : Field :=
  oneOf [twoDigits (digitIn 3 3) (digitIn 0 1), twoDigits (digitIn 1 2) anyDigit,
    twoDigits (digitIn 0 0) (digitIn 1 9), oneDigit (digitIn 1 9), twoDigits blank (digitIn 1 9)]

/-- `2[0-3]|[0-1]\d|\d` -/
def hourField : Field :=
  oneOf [twoDigits (digitIn 2 2) (digitIn 0 3), twoDigits (digitIn 0 1) anyDigit,
    oneDigit anyDigit]

/-- `[0-5]\d|\d` -/
def minuteField : Field := oneOf [twoDigits (digitIn 0 5) anyDigit, oneDigit anyDigit]

/-- `6[0-1]|[0-5]\d|\d` -/
def secondField : Field :=
  oneOf [twoDigits (digitIn 6 6) (digitIn 0 1), twoDigits (digitIn 0 5) anyDigit,
    oneDigit anyDigit]

-- ============================================================================
-- The format
-- ============================================================================

/-- The fields of a `struct_time` that the format sets. -/
structure TimeFields where
  year : ℕ
  month : ℕ
  day : ℕ
  hour : ℕ
  minute : ℕ
  second : ℕ
  deriving DecidableEq

def TimeFields.toSeconds (f : TimeFields) : ℤ :=
  Babycat.Time.toSeconds f.year f.month f.day f.hour f.minute f.second

/-- The matches of `%Y%m%d_%H%M%S`, in the order in which they are tried. -/
def stampMatches : List Char → List (TimeFields × List Char) :=
  yearField.andThen fun year => monthField.andThen fun month => dayField.andThen fun day =>
    literal '_' (hourField.andThen fun hour => minuteField.andThen fun minute =>
      secondField.andThen fun second s => [(⟨year, month, day, hour, minute, second⟩, s)])

/-- The date must be one of the calendar, which has no year 0. -/
def strptime (s : List Char) : Option TimeFields :=
  match stampMatches s with
  | (f, []) :: _ => if 1 ≤ f.year ∧ f.day ≤ daysInMonth f.year f.month then some f else none
  | _ => none

example : strptime "20260228_235960".toList = some ⟨2026, 2, 28, 23, 59, 60⟩ := by
  decide

example : strptime "20260229_000000".toList = none := by decide

/-- The matches of `%Y-%m-%d`. -/
def dateMatches : List Char → List ((ℕ × ℕ × ℕ) × List Char) :=
  yearField.andThen fun year => literal '-' (monthField.andThen fun month =>
    literal '-' (dayField.andThen fun day s => [((year, month, day), s)]))

/-- `datetime.strptime` with `%Y-%m-%d`, as a day. -/
def strptimeDate (s : List Char) : Option ℤ :=
  match dateMatches s with
  | ((year, month, day), []) :: _ =>
      if 1 ≤ year ∧ day ≤ daysInMonth year month then some (toDays year month day) else none
  | _ => none

-- ============================================================================
-- What a field reads of its own text
-- ============================================================================

theorem digitChar_toNat {d : ℕ} (h : d < 10) : d.digitChar.toNat = d + 48 := by
  have hall : ∀ d < 10, d.digitChar.toNat = d + 48 := by decide
  exact hall d h

@[simp] theorem anyDigit_digitChar {d : ℕ} (h : d < 10) : anyDigit d.digitChar = some d := by
  have hall : ∀ d < 10, anyDigit d.digitChar = some d := by decide
  exact hall d h

theorem digitIn_digitChar {low high d : ℕ} (h : d < 10) :
    digitIn low high d.digitChar = if low ≤ d ∧ d ≤ high then some d else none := by
  simp [digitIn, digitChar_toNat h]

theorem zeroPad_two {n : ℕ} (h : n < 100) :
    zeroPad 2 n = [(n / 10).digitChar, (n % 10).digitChar] := by
  rw [zeroPad_succ, zeroPad_one (by omega)]
  rfl

/-- `f` reads `v` first. -/
def Field.First (f : Field) (s : List Char) (v : ℕ) (rest : List Char) : Prop :=
  ∃ more, f s = (v, rest) :: more

theorem andThen_first {α : Type} {f : Field} {k : ℕ → List Char → List α} {s rest : List Char}
    {v : ℕ} {x : α} (hf : f.First s v rest) (hk : ∃ more, k v rest = x :: more) :
    ∃ more, f.andThen k s = x :: more := by
  obtain ⟨more, hf⟩ := hf
  obtain ⟨more', hk⟩ := hk
  exact ⟨more' ++ more.flatMap fun m => k m.1 m.2, by simp [Field.andThen, hf, hk]⟩

theorem First.head {f : Field} {fs : List Field} {s rest : List Char} {v : ℕ}
    (h : f.First s v rest) : (oneOf (f :: fs)).First s v rest := by
  obtain ⟨more, h⟩ := h
  exact ⟨more ++ fs.flatMap (· s), by simp [oneOf, h]⟩

theorem First.tail {f : Field} {fs : List Field} {s rest : List Char} {v : ℕ} (hf : f s = [])
    (h : (oneOf fs).First s v rest) : (oneOf (f :: fs)).First s v rest := by
  obtain ⟨more, h⟩ := h
  refine ⟨more, ?_⟩
  rw [← h]
  simp [oneOf, hf]

/-- Two digits that an alternative takes. -/
theorem twoDigits_first {p q : Char → Option ℕ} {v : ℕ} {s : List Char} (h : v < 100)
    (hp : p (v / 10).digitChar = some (v / 10)) (hq : q (v % 10).digitChar = some (v % 10)) :
    (twoDigits p q).First (zeroPad 2 v ++ s) v s := by
  rw [zeroPad_two h]
  refine ⟨[], ?_⟩
  simp only [List.cons_append, List.nil_append, twoDigits, hp, hq, Option.bind_some,
    Option.map_some, Option.toList_some, List.cons.injEq, Prod.mk.injEq, and_true]
  omega

/-- Two digits that it does not. -/
theorem twoDigits_nil {p q : Char → Option ℕ} {v : ℕ} {s : List Char} (h : v < 100)
    (hp : p (v / 10).digitChar = none) : twoDigits p q (zeroPad 2 v ++ s) = [] := by
  rw [zeroPad_two h]
  simp only [List.cons_append, List.nil_append, twoDigits, hp, Option.bind_none,
    Option.toList_none]

theorem digitIn_some {low high d : ℕ} (hd : d < 10) (h : low ≤ d ∧ d ≤ high) :
    digitIn low high d.digitChar = some d := by
  rw [digitIn_digitChar hd, if_pos h]

theorem digitIn_none {low high d : ℕ} (hd : d < 10) (h : ¬ (low ≤ d ∧ d ≤ high)) :
    digitIn low high d.digitChar = none := by
  rw [digitIn_digitChar hd, if_neg h]

theorem monthField_first {v : ℕ} (h : 1 ≤ v ∧ v ≤ 12) (s : List Char) :
    monthField.First (zeroPad 2 v ++ s) v s := by
  rcases Nat.lt_or_ge v 10 with hone | htwo
  · refine First.tail (twoDigits_nil (by omega) (digitIn_none (by omega) (by omega))) ?_
    exact First.head (twoDigits_first (by omega) (digitIn_some (by omega) (by omega))
      (digitIn_some (by omega) (by omega)))
  · exact First.head (twoDigits_first (by omega) (digitIn_some (by omega) (by omega))
      (digitIn_some (by omega) (by omega)))

theorem dayField_first {v : ℕ} (h : 1 ≤ v ∧ v ≤ 31) (s : List Char) :
    dayField.First (zeroPad 2 v ++ s) v s := by
  rcases Nat.lt_or_ge v 30 with hlow | hthree
  · refine First.tail (twoDigits_nil (by omega) (digitIn_none (by omega) (by omega))) ?_
    rcases Nat.lt_or_ge v 10 with hone | htwo
    · refine First.tail (twoDigits_nil (by omega) (digitIn_none (by omega) (by omega))) ?_
      exact First.head (twoDigits_first (by omega) (digitIn_some (by omega) (by omega))
        (digitIn_some (by omega) (by omega)))
    · exact First.head (twoDigits_first (by omega) (digitIn_some (by omega) (by omega))
        (anyDigit_digitChar (by omega)))
  · exact First.head (twoDigits_first (by omega) (digitIn_some (by omega) (by omega))
      (digitIn_some (by omega) (by omega)))

theorem hourField_first {v : ℕ} (h : v < 24) (s : List Char) :
    hourField.First (zeroPad 2 v ++ s) v s := by
  rcases Nat.lt_or_ge v 20 with hlow | htwenty
  · refine First.tail (twoDigits_nil (by omega) (digitIn_none (by omega) (by omega))) ?_
    exact First.head (twoDigits_first (by omega) (digitIn_some (by omega) (by omega))
      (anyDigit_digitChar (by omega)))
  · exact First.head (twoDigits_first (by omega) (digitIn_some (by omega) (by omega))
      (digitIn_some (by omega) (by omega)))

theorem minuteField_first {v : ℕ} (h : v < 60) (s : List Char) :
    minuteField.First (zeroPad 2 v ++ s) v s :=
  First.head (twoDigits_first (by omega) (digitIn_some (by omega) (by omega))
    (anyDigit_digitChar (by omega)))

theorem secondField_first {v : ℕ} (h : v < 60) (s : List Char) :
    secondField.First (zeroPad 2 v ++ s) v s := by
  refine First.tail (twoDigits_nil (by omega) (digitIn_none (by omega) (by omega))) ?_
  exact First.head (twoDigits_first (by omega) (digitIn_some (by omega) (by omega))
    (anyDigit_digitChar (by omega)))

theorem yearField_first {v : ℕ} (h : v < 10000) (s : List Char) :
    yearField.First (zeroPad 4 v ++ s) v s := by
  have htext : zeroPad 4 v = zeroPad 2 (v / 100) ++ zeroPad 2 (v % 100) := by
    rw [zeroPad_succ, zeroPad_succ, zeroPad_two (n := v % 100) (by omega), Nat.div_div_eq_div_mul,
      show v / 10 % 10 = v % 100 / 10 by omega, show v % 10 = v % 100 % 10 by omega,
      List.append_assoc]
    rfl
  rw [htext, List.append_assoc]
  refine andThen_first (twoDigits_first (by omega) (anyDigit_digitChar (by omega))
    (anyDigit_digitChar (by omega))) ?_
  refine andThen_first (twoDigits_first (by omega) (anyDigit_digitChar (by omega))
    (anyDigit_digitChar (by omega))) ⟨[], ?_⟩
  rw [show 100 * (v / 100) + v % 100 = v by omega]

-- ============================================================================
-- What the format reads of its own text
-- ============================================================================

/-- The fields of a time. -/
def DateTime.fields (t : DateTime) : TimeFields :=
  ⟨t.date.year.toNat, t.date.month, t.date.day, t.hour, t.minute, t.second⟩

/-- The first match of a stamp takes it whole. -/
theorem stampMatches_compact {t : DateTime} (h : FourDigits t.date.year) :
    ∃ more, stampMatches t.compact = (t.fields, []) :: more := by
  have hyear : 1000 ≤ t.date.year ∧ t.date.year ≤ 9999 := h
  simp only [DateTime.compact, Date.text, DateTime.timeText, padInt_four h, List.nil_append,
    List.append_assoc]
  refine andThen_first (yearField_first (by omega) _) ?_
  refine andThen_first (monthField_first t.date.month_range _) ?_
  refine andThen_first (dayField_first t.date.day_range _) ?_
  rw [literal, if_pos rfl]
  refine andThen_first (hourField_first t.hour_lt _) ?_
  refine andThen_first (minuteField_first t.minute_lt _) ?_
  rw [← List.append_nil (zeroPad 2 t.second)]
  exact andThen_first (secondField_first t.second_lt []) ⟨[], rfl⟩

/-- A stamp is read back as the second it was written for. -/
theorem strptime_compact {n : ℤ} (h : FourDigits (DateTime.ofSeconds n).date.year) :
    (strptime (DateTime.ofSeconds n).compact).map TimeFields.toSeconds = some n := by
  have hyear : 1000 ≤ (DateTime.ofSeconds n).date.year ∧
      (DateTime.ofSeconds n).date.year ≤ 9999 := h
  have hcast : ((DateTime.ofSeconds n).date.year.toNat : ℤ) = (DateTime.ofSeconds n).date.year := by
    omega
  obtain ⟨more, hmatch⟩ := stampMatches_compact h
  have hvalid : 1 ≤ (DateTime.ofSeconds n).fields.year ∧ (DateTime.ofSeconds n).fields.day ≤
      daysInMonth (DateTime.ofSeconds n).fields.year (DateTime.ofSeconds n).fields.month := by
    refine ⟨show 1 ≤ (DateTime.ofSeconds n).date.year.toNat by omega, ?_⟩
    show _ ≤ daysInMonth ((DateTime.ofSeconds n).date.year.toNat : ℤ) _
    rw [hcast]
    exact day_le_daysInMonth (n / 86400)
  rw [strptime, hmatch]
  show Option.map _ (if _ then _ else _) = _
  rw [if_pos hvalid, Option.map_some, TimeFields.toSeconds]
  show some (toSeconds ((DateTime.ofSeconds n).date.year.toNat : ℤ) _ _ _ _ _) = _
  rw [hcast]
  exact congrArg some (toSeconds_ofSeconds n)

-- ============================================================================
-- Stamps of years beyond 9999
-- ============================================================================

/-- A field takes at most two characters. -/
def Field.Short (f : Field) : Prop := ∀ s, ∀ m ∈ f s, ∃ k ≤ 2, m.2 = s.drop k

theorem oneDigit_short (p : Char → Option ℕ) : (oneDigit p).Short := by
  intro s m hm
  cases s with
  | nil => cases hm
  | cons c s =>
      simp only [oneDigit, Option.mem_toList, Option.map_eq_some_iff] at hm
      obtain ⟨v, -, rfl⟩ := hm
      exact ⟨1, by decide, rfl⟩

theorem twoDigits_drop {p q : Char → Option ℕ} {s : List Char} {m : ℕ × List Char}
    (hm : m ∈ twoDigits p q s) : m.2 = s.drop 2 := by
  cases s with
  | nil => cases hm
  | cons c s =>
      cases s with
      | nil => cases hm
      | cons d s =>
          simp only [twoDigits, Option.mem_toList, Option.bind_eq_some_iff,
            Option.map_eq_some_iff] at hm
          obtain ⟨v, -, w, -, rfl⟩ := hm
          rfl

theorem twoDigits_short (p q : Char → Option ℕ) : (twoDigits p q).Short :=
  fun _ _ hm => ⟨2, le_refl 2, twoDigits_drop hm⟩

theorem oneOf_short {fs : List Field} (h : ∀ f ∈ fs, f.Short) : (oneOf fs).Short := by
  intro s m hm
  obtain ⟨f, hf, hmf⟩ := List.mem_flatMap.mp hm
  exact h f hf s m hmf

theorem monthField_short : monthField.Short := by
  simp [monthField, oneOf_short, oneDigit_short, twoDigits_short]

theorem dayField_short : dayField.Short := by
  simp [dayField, oneOf_short, oneDigit_short, twoDigits_short]

theorem andThen_nil {α : Type} {f : Field} {k : ℕ → List Char → List α} {s : List Char}
    (h : ∀ m ∈ f s, k m.1 m.2 = []) : f.andThen k s = [] :=
  List.flatMap_eq_nil_iff.mpr h

theorem yearField_drop {s : List Char} {m : ℕ × List Char} (hm : m ∈ yearField s) :
    m.2 = s.drop 4 := by
  obtain ⟨c, hc, hm⟩ := List.mem_flatMap.mp hm
  obtain ⟨y, hy, hm⟩ := List.mem_flatMap.mp hm
  rw [List.mem_singleton.mp hm, twoDigits_drop hy, twoDigits_drop hc, List.drop_drop]

/-- The separator stands behind at most eight characters. -/
theorem stampMatches_long {x s : List Char} (hlength : 9 ≤ x.length) (hx : '_' ∉ x) :
    stampMatches (x ++ s) = [] := by
  refine andThen_nil fun year hyear => ?_
  refine andThen_nil fun month hmonth => ?_
  refine andThen_nil fun day hday => ?_
  obtain ⟨j, hj, hmonthRest⟩ := monthField_short _ _ hmonth
  obtain ⟨k, hk, hdayRest⟩ := dayField_short _ _ hday
  rw [hdayRest, hmonthRest, yearField_drop hyear, List.drop_drop, List.drop_drop]
  have hshort : 4 + (j + k) < x.length := by omega
  rw [List.drop_append_of_le_length hshort.le, List.drop_eq_getElem_cons hshort]
  rw [List.cons_append, literal, if_neg]
  intro hc
  exact hx (hc ▸ List.getElem_mem hshort)

theorem strptime_long {t : DateTime} (h : 9999 < t.date.year) : strptime t.compact = none := by
  have hmonth := t.date.month_range
  have hday := t.date.day_range
  have hyear : 5 ≤ (padInt 1 t.date.year).length := by
    have hdigits : ¬ (Nat.toDigits 10 t.date.year.natAbs).length ≤ 4 := by
      rw [Nat.length_toDigits_le_iff (by decide) (by decide)]
      omega
    rw [padInt, if_pos (by omega), zeroPad, List.length_append]
    omega
  have hlength : 9 ≤ (t.date.text []).length := by
    simp only [Date.text, List.length_append, List.length_nil]
    rw [zeroPad_length 1 _ (by omega), zeroPad_length 1 _ (by omega)]
    omega
  rw [strptime, DateTime.compact,
    stampMatches_long hlength (not_mem_text rfl (by decide) (by decide) t.date)]

end Babycat.Time
