/-
  Babycat.Time.DateOrder

  Dates and their texts in the order of the days and seconds they stand for.

  `Date.toDays` and `DateTime.toSeconds` take `Date.ofDays` and
  `DateTime.ofSeconds` back, and the stamps of two seconds with years of four
  digits sort as the seconds do (`DateTime.compact_lt_iff`).
-/

import Babycat.Time.Calendar
import Mathlib.Data.List.Lex

namespace Babycat.Time

-- ============================================================================
-- From a date to its day
-- ============================================================================

def isLeap (year : ℤ) : Bool := year % 4 == 0 && (year % 100 != 0 || year % 400 == 0)

def daysInMonth (year : ℤ) (month : ℕ) : ℕ :=
  if month = 2 then (if isLeap year then 29 else 28)
  else if month = 4 ∨ month = 6 ∨ month = 9 ∨ month = 11 then 30
  else 31

/-- The day from the first of March of the year 0 of a day of a year that begins in March. -/
def marchDay (year day : ℤ) : ℤ := 365 * year + year / 4 - year / 100 + year / 400 + day

/-- The day of the year, March 1 being 0, of a day of a month. -/
def yearDay (index : ℤ) (day : ℤ) : ℤ := (153 * index + 2) / 5 + day

/-- Days from 1970-01-01. -/
def toDays (year : ℤ) (month day : ℕ) : ℤ :=
  if 2 < month then marchDay year (yearDay (month - 3) (day - 1)) - 719468
  else marchDay (year - 1) (yearDay (month + 9) (day - 1)) - 719468

/-- The last day of a leap year is day 365 of the year from March before it. -/
theorem EraDay.ofDays_leap {n : ℤ} (h0 : 0 ≤ n) (h1 : n < 146097) :
    let e := EraDay.ofDays n
    e.day ≤ 364 ∨ (e.year = 3 ∧ (e.group ≤ 23 ∨ e.century = 3)) := by
  simp only [EraDay.ofDays]
  have hcentury : min 3 (n / 36524) = 3 ∨ n - 36524 * min 3 (n / 36524) ≤ 36523 := by omega
  have hbounds := century_range h0 h1
  generalize min 3 (n / 36524) = century at *
  have hyear : min 3 ((n - 36524 * century) % 1461 / 365) = 3 ∨
      (n - 36524 * century) % 1461 - 365 * min 3 ((n - 36524 * century) % 1461 / 365) ≤ 364 := by
    omega
  have hbounds' := year_range (n := (n - 36524 * century) % 1461) (by omega) (by omega)
  generalize min 3 ((n - 36524 * century) % 1461 / 365) = year at *
  omega

theorem eraDay_leap (n : ℤ) :
    (eraDay n).day ≤ 364 ∨
      ((eraDay n).year = 3 ∧ ((eraDay n).group ≤ 23 ∨ (eraDay n).century = 3)) :=
  EraDay.ofDays_leap (Int.emod_nonneg _ (by decide)) (Int.emod_lt_of_pos _ (by decide))

/-- A day is day `(eraDay n).day` of its year from March. -/
theorem marchDay_eq (n : ℤ) : marchDay (marchYear n) (eraDay n).day = n + 719468 := by
  obtain ⟨hday, hspec⟩ := eraDay_spec n
  have hera := Int.mul_ediv_add_emod (n + 719468) 146097
  simp only [marchDay, marchYear]
  generalize (n + 719468) / 146097 = era at *
  generalize (n + 719468) % 146097 = rest at *
  generalize eraDay n = e at *
  have h4 : (400 * era + 100 * e.century + 4 * e.group + e.year) / 4 =
      100 * era + 25 * e.century + e.group := by omega
  have h100 : (400 * era + 100 * e.century + 4 * e.group + e.year) / 100 =
      4 * era + e.century := by omega
  have h400 : (400 * era + 100 * e.century + 4 * e.group + e.year) / 400 = era := by omega
  rw [h4, h100, h400]
  omega

/-- Day 365 is in the March year before a leap year. -/
theorem day_le_or_leap (n : ℤ) :
    0 ≤ (eraDay n).day ∧ ((eraDay n).day ≤ 364 ∨
      ((eraDay n).day = 365 ∧ isLeap (marchYear n + 1) = true)) := by
  obtain ⟨-, hspec⟩ := eraDay_spec n
  have hleap := eraDay_leap n
  simp only [marchYear, isLeap, Bool.and_eq_true, Bool.or_eq_true, beq_iff_eq, bne_iff_ne, ne_eq]
  generalize (n + 719468) / 146097 = era at *
  generalize eraDay n = e at *
  omega

theorem yearDay_index (day : ℤ) : yearDay (monthIndex day) (dayIndex day) = day := by
  simp only [yearDay, dayIndex]
  omega

/-- The fields of a date from its year from March and its day in it. -/
theorem Date.ofDays_spec (n : ℤ) :
    ((Date.ofDays n).day : ℤ) = dayIndex (eraDay n).day + 1 ∧
      (monthIndex (eraDay n).day < 10 ∧ (Date.ofDays n).year = marchYear n ∧
          ((Date.ofDays n).month : ℤ) = monthIndex (eraDay n).day + 3 ∨
        10 ≤ monthIndex (eraDay n).day ∧ (Date.ofDays n).year = marchYear n + 1 ∧
          ((Date.ofDays n).month : ℤ) = monthIndex (eraDay n).day - 9) := by
  have hrange := eraDay_index_range n
  simp only [Date.ofDays]
  refine ⟨by omega, ?_⟩
  by_cases hmarch : monthIndex (eraDay n).day < 10
  · simp only [if_pos hmarch]
    exact .inl ⟨hmarch, trivial, by omega⟩
  · simp only [if_neg hmarch]
    exact .inr ⟨by omega, trivial, by omega⟩

/-- A date is read back. -/
theorem toDays_ofDays (n : ℤ) :
    toDays (Date.ofDays n).year (Date.ofDays n).month (Date.ofDays n).day = n := by
  have hrange := eraDay_index_range n
  have hday := marchDay_eq n
  rw [← yearDay_index (eraDay n).day] at hday
  obtain ⟨hdayField, ⟨hindex, hyear, hmonth⟩ | ⟨hindex, hyear, hmonth⟩⟩ := Date.ofDays_spec n
  · rw [toDays, if_pos (by omega), hyear, hmonth, hdayField, add_sub_cancel_right,
      add_sub_cancel_right, hday, add_sub_cancel_right]
  · rw [toDays, if_neg (by omega), hyear, hmonth, hdayField, add_sub_cancel_right,
      sub_add_cancel, add_sub_cancel_right, hday, add_sub_cancel_right]

/-- Every month has as many days as the calendar says. -/
theorem day_le_daysInMonth (n : ℤ) :
    (Date.ofDays n).day ≤ daysInMonth (Date.ofDays n).year (Date.ofDays n).month := by
  have hrange := eraDay_index_range n
  obtain ⟨h0, hleap⟩ := day_le_or_leap n
  have hindex : monthIndex (eraDay n).day = (5 * (eraDay n).day + 2) / 153 := rfl
  have hinMonth : dayIndex (eraDay n).day =
      (eraDay n).day - (153 * monthIndex (eraDay n).day + 2) / 5 := rfl
  obtain ⟨hday, hfields⟩ := Date.ofDays_spec n
  rw [daysInMonth]
  split
  · rename_i hfebruary
    rcases hleap with hle | ⟨hlast, hyear⟩
    · split <;> omega
    · rw [if_pos (by rwa [show (Date.ofDays n).year = marchYear n + 1 by omega])]
      omega
  · split <;> omega

-- ============================================================================
-- Dates in the order of their days
-- ============================================================================

/-- A day comes before another when its year from March does, or its day in the same one. -/
theorem marchYear_lt_or {m n : ℤ} (h : m < n) :
    marchYear m < marchYear n ∨
      (marchYear m = marchYear n ∧ (eraDay m).day < (eraDay n).day) := by
  have hm := marchDay_eq m
  have hn := marchDay_eq n
  obtain ⟨hm0, hmleap⟩ := day_le_or_leap m
  obtain ⟨hn0, hnleap⟩ := day_le_or_leap n
  simp only [marchDay] at hm hn
  simp only [isLeap, Bool.and_eq_true, Bool.or_eq_true, beq_iff_eq, bne_iff_ne, ne_eq]
    at hmleap hnleap
  generalize marchYear m = y at *
  generalize marchYear n = z at *
  rcases lt_trichotomy y z with hlt | rfl | hgt
  · exact .inl hlt
  · exact .inr ⟨rfl, by omega⟩
  · omega

/-- Year, month and day in lexicographic order. -/
def Date.before (d e : Date) : Prop :=
  d.year < e.year ∨ (d.year = e.year ∧ (d.month < e.month ∨ (d.month = e.month ∧ d.day < e.day)))

theorem Date.ofDays_before {m n : ℤ} (h : m < n) : (Date.ofDays m).before (Date.ofDays n) := by
  have hmr := eraDay_index_range m
  have hnr := eraDay_index_range n
  obtain ⟨hmday, hmfields⟩ := Date.ofDays_spec m
  obtain ⟨hnday, hnfields⟩ := Date.ofDays_spec n
  have horder := marchYear_lt_or h
  have hinMonth : ∀ k, dayIndex (eraDay k).day =
      (eraDay k).day - (153 * monthIndex (eraDay k).day + 2) / 5 := fun k => rfl
  have hmIn := hinMonth m
  have hnIn := hinMonth n
  have hindex : (eraDay m).day < (eraDay n).day →
      monthIndex (eraDay m).day ≤ monthIndex (eraDay n).day := by
    intro hlt
    simp only [monthIndex]
    omega
  simp only [Date.before]
  generalize monthIndex (eraDay m).day = i at *
  generalize monthIndex (eraDay n).day = j at *
  rcases horder with hyear | ⟨hyear, hday⟩
  · omega
  · have hij := hindex hday
    rcases lt_or_eq_of_le hij with hlt | rfl
    · omega
    · omega

-- ============================================================================
-- Times in the order of their seconds
-- ============================================================================

/-- Seconds from 1970-01-01 00:00:00. -/
def toSeconds (year : ℤ) (month day hour minute second : ℕ) : ℤ :=
  86400 * toDays year month day + 3600 * hour + 60 * minute + second

theorem toSeconds_ofSeconds (n : ℤ) :
    toSeconds (DateTime.ofSeconds n).date.year (DateTime.ofSeconds n).date.month
      (DateTime.ofSeconds n).date.day (DateTime.ofSeconds n).hour (DateTime.ofSeconds n).minute
      (DateTime.ofSeconds n).second = n := by
  simp only [toSeconds, DateTime.ofSeconds, toDays_ofDays]
  omega

/-- The time of the day in lexicographic order. -/
def DateTime.earlierInDay (t u : DateTime) : Prop :=
  t.hour < u.hour ∨ (t.hour = u.hour ∧
    (t.minute < u.minute ∨ (t.minute = u.minute ∧ t.second < u.second)))

theorem earlierInDay_of_lt {m n : ℤ} (hday : m / 86400 = n / 86400) (h : m < n) :
    (DateTime.ofSeconds m).earlierInDay (DateTime.ofSeconds n) := by
  simp only [DateTime.ofSeconds, DateTime.earlierInDay]
  omega

theorem DateTime.ofSeconds_before {m n : ℤ} (h : m < n) :
    (DateTime.ofSeconds m).date.before (DateTime.ofSeconds n).date ∨
      ((DateTime.ofSeconds m).date = (DateTime.ofSeconds n).date ∧
        (DateTime.ofSeconds m).earlierInDay (DateTime.ofSeconds n)) := by
  rcases lt_or_ge (m / 86400) (n / 86400) with hday | hday
  · exact .inl (Date.ofDays_before hday)
  · have hsame : m / 86400 = n / 86400 := by omega
    exact .inr ⟨congrArg Date.ofDays hsame, earlierInDay_of_lt hsame h⟩

-- ============================================================================
-- Texts in the order of the numbers
-- ============================================================================

/-- Of two texts the one that is less within the same number of characters comes first. -/
theorem append_lt_append {x x' : List Char} (hlength : x.length = x'.length) (h : x < x')
    (y y' : List Char) : x ++ y < x' ++ y' := by
  induction x generalizing x' with
  | nil =>
      rw [List.length_nil] at hlength
      rw [List.eq_nil_of_length_eq_zero hlength.symm] at h
      exact absurd h (List.not_lt_nil [])
  | cons a x ih =>
      cases x' with
      | nil => cases hlength
      | cons b x' =>
          rw [List.cons_append, List.cons_append, List.cons_lt_cons_iff]
          rcases List.cons_lt_cons_iff.mp h with hlt | ⟨rfl, hlt⟩
          · exact .inl hlt
          · exact .inr ⟨rfl, ih (Nat.succ.inj hlength) hlt⟩

theorem digitChar_lt {m n : ℕ} (h : m < n) (hn : n < 10) : m.digitChar < n.digitChar := by
  have hm := Nat.toNat_digitChar_of_lt_ten (h.trans hn)
  have hn' := Nat.toNat_digitChar_of_lt_ten hn
  rw [Char.lt_def, UInt32.lt_iff_toNat_lt]
  show m.digitChar.toNat < n.digitChar.toNat
  omega

theorem zeroPad_one {n : ℕ} (h : n < 10) : zeroPad 1 n = [n.digitChar] := by
  rw [zeroPad, Nat.toDigits_of_lt_base h]
  rfl

/-- The last digit. -/
theorem zeroPad_succ (width n : ℕ) :
    zeroPad (width + 2) n = zeroPad (width + 1) (n / 10) ++ [(n % 10).digitChar] := by
  rcases Nat.lt_or_ge n 10 with hsmall | hlarge
  · rw [Nat.div_eq_of_lt hsmall, Nat.mod_eq_of_lt hsmall, zeroPad, zeroPad,
      Nat.toDigits_of_lt_base hsmall, Nat.toDigits_zero]
    show List.replicate (width + 1) '0' ++ _ = (List.replicate width '0' ++ ['0']) ++ _
    rw [List.replicate_succ']
  · rw [zeroPad, zeroPad, Nat.toDigits_of_base_le (by decide) hlarge, List.length_append,
      ← List.append_assoc]
    show List.replicate (width + 2 - (_ + 1)) '0' ++ _ ++ _ = _
    rw [show width + 2 - ((Nat.toDigits 10 (n / 10)).length + 1) =
      width + 1 - (Nat.toDigits 10 (n / 10)).length by omega]

theorem zeroPad_length (width n : ℕ) (h : n < 10 ^ (width + 1)) :
    (zeroPad (width + 1) n).length = width + 1 := by
  induction width generalizing n with
  | zero =>
      rw [zeroPad_one h]
      rfl
  | succ width ih =>
      rw [zeroPad_succ, List.length_append, ih (n / 10) (by rw [pow_succ] at h; omega)]
      rfl

/-- Numbers of one width sort by value. -/
theorem zeroPad_lt (width m n : ℕ) (h : m < n) (hn : n < 10 ^ (width + 1)) :
    zeroPad (width + 1) m < zeroPad (width + 1) n := by
  induction width generalizing m n with
  | zero =>
      rw [zeroPad_one (by omega), zeroPad_one (by omega)]
      exact List.cons_lt_cons_iff.mpr (.inl (digitChar_lt h (by omega)))
  | succ width ih =>
      rw [pow_succ] at hn
      rw [zeroPad_succ, zeroPad_succ]
      rcases Nat.lt_or_ge (m / 10) (n / 10) with htens | htens
      · refine append_lt_append ?_ (ih _ _ htens (by omega)) _ _
        rw [zeroPad_length _ _ (by omega), zeroPad_length _ _ (by omega)]
      · have hsame : m / 10 = n / 10 := by omega
        rw [hsame]
        exact List.append_left_lt (List.cons_lt_cons_iff.mpr
          (.inl (digitChar_lt (by omega) (by omega))))

/-- A year that `%Y` writes in four digits. -/
def FourDigits (year : ℤ) : Prop := 1000 ≤ year ∧ year ≤ 9999

instance (year : ℤ) : Decidable (FourDigits year) := inferInstanceAs (Decidable (_ ∧ _))

/-- `%Y` does not pad, and a year of four digits needs none. -/
theorem padInt_four {year : ℤ} (h : FourDigits year) : padInt 1 year = zeroPad 4 year.toNat := by
  have hrange : 1000 ≤ year ∧ year ≤ 9999 := h
  have hlength : (Nat.toDigits 10 year.natAbs).length = 4 := by
    have hle : (Nat.toDigits 10 year.natAbs).length ≤ 4 :=
      (Nat.length_toDigits_le_iff (by decide) (by decide)).mpr (by omega)
    have hgt : ¬ (Nat.toDigits 10 year.natAbs).length ≤ 3 := by
      rw [Nat.length_toDigits_le_iff (by decide) (by decide)]
      omega
    omega
  rw [padInt, if_pos (by omega), show year.toNat = year.natAbs by omega, zeroPad, zeroPad, hlength]

/-- Texts that begin with texts of one length. -/
theorem lex_append {x x' y y' : List Char} (hlength : x.length = x'.length)
    (h : x < x' ∨ (x = x' ∧ y < y')) : x ++ y < x' ++ y' := by
  rcases h with hlt | ⟨rfl, hlt⟩
  · exact append_lt_append hlength hlt y y'
  · exact List.append_left_lt hlt

/-- Fields of two digits in front. -/
theorem two_append_lt {m n : ℕ} {y y' : List Char} (hm : m < 100) (hn : n < 100)
    (h : m < n ∨ (m = n ∧ y < y')) : zeroPad 2 m ++ y < zeroPad 2 n ++ y' := by
  refine lex_append ?_ ?_
  · rw [zeroPad_length 1 m (by omega), zeroPad_length 1 n (by omega)]
  · rcases h with hlt | ⟨rfl, hlt⟩
    · exact .inl (zeroPad_lt 1 m n hlt (by omega))
    · exact .inr ⟨rfl, hlt⟩

theorem Date.text_length {sep : List Char} {d : Date} (h : FourDigits d.year) :
    (d.text sep).length = 2 * sep.length + 8 := by
  have hmonth := d.month_range
  have hday := d.day_range
  have hyear : 1000 ≤ d.year ∧ d.year ≤ 9999 := h
  simp only [Date.text, padInt_four h, List.length_append]
  rw [zeroPad_length 3 _ (by omega), zeroPad_length 1 _ (by omega), zeroPad_length 1 _ (by omega)]
  omega

theorem Date.text_lt {sep : List Char} {d e : Date} (hd : FourDigits d.year)
    (he : FourDigits e.year) (h : d.before e) : d.text sep < e.text sep := by
  have hdm := d.month_range
  have hem := e.month_range
  have hdd := d.day_range
  have hed := e.day_range
  have hdy : 1000 ≤ d.year ∧ d.year ≤ 9999 := hd
  have hey : 1000 ≤ e.year ∧ e.year ≤ 9999 := he
  simp only [Date.text, padInt_four hd, padInt_four he, List.append_assoc]
  refine lex_append ?_ ?_
  · rw [zeroPad_length 3 _ (by omega), zeroPad_length 3 _ (by omega)]
  · rcases h with hyear | ⟨hyear, hrest⟩
    · exact .inl (zeroPad_lt 3 _ _ (by omega) (by omega))
    · refine .inr ⟨by rw [hyear], List.append_left_lt (two_append_lt (by omega) (by omega) ?_)⟩
      rcases hrest with hmonth | ⟨hmonth, hday⟩
      · exact .inl hmonth
      · exact .inr ⟨hmonth, List.append_left_lt (zeroPad_lt 1 _ _ hday (by omega))⟩

theorem DateTime.timeText_lt {sep : List Char} {t u : DateTime} (h : t.earlierInDay u) :
    t.timeText sep < u.timeText sep := by
  have hth := t.hour_lt
  have huh := u.hour_lt
  have htm := t.minute_lt
  have hum := u.minute_lt
  have hus := u.second_lt
  simp only [DateTime.timeText, List.append_assoc]
  refine two_append_lt (by omega) (by omega) ?_
  rcases h with hhour | ⟨hhour, hrest⟩
  · exact .inl hhour
  · refine .inr ⟨hhour, List.append_left_lt (two_append_lt (by omega) (by omega) ?_)⟩
    rcases hrest with hminute | ⟨hminute, hsecond⟩
    · exact .inl hminute
    · exact .inr ⟨hminute, List.append_left_lt (zeroPad_lt 1 _ _ hsecond (by omega))⟩

theorem timeText_length (t : DateTime) : (t.timeText [':']).length = 8 := by
  have hhour := t.hour_lt
  have hminute := t.minute_lt
  have hsecond := t.second_lt
  simp only [DateTime.timeText, List.length_append, List.length_cons, List.length_nil]
  rw [zeroPad_two_length (by omega), zeroPad_two_length (by omega), zeroPad_two_length (by omega)]

theorem DateTime.compact_length {t : DateTime} (h : FourDigits t.date.year) :
    t.compact.length = 15 := by
  have hhour := t.hour_lt
  have hminute := t.minute_lt
  have hsecond := t.second_lt
  simp only [DateTime.compact, DateTime.timeText, List.length_append, List.length_cons,
    List.length_nil, Date.text_length h]
  rw [zeroPad_length 1 _ (by omega), zeroPad_length 1 _ (by omega), zeroPad_length 1 _ (by omega)]

/-- Stamps sort as the seconds they stand for. -/
theorem DateTime.compact_lt {m n : ℤ} (hm : FourDigits (DateTime.ofSeconds m).date.year)
    (hn : FourDigits (DateTime.ofSeconds n).date.year) (h : m < n) :
    (DateTime.ofSeconds m).compact < (DateTime.ofSeconds n).compact := by
  refine lex_append (by rw [Date.text_length hm, Date.text_length hn]) ?_
  rcases DateTime.ofSeconds_before h with hdate | ⟨hdate, htime⟩
  · exact .inl (Date.text_lt hm hn hdate)
  · exact .inr ⟨by rw [hdate],
      List.cons_lt_cons_iff.mpr (.inr ⟨rfl, DateTime.timeText_lt htime⟩)⟩

theorem DateTime.compact_lt_iff {m n : ℤ} (hm : FourDigits (DateTime.ofSeconds m).date.year)
    (hn : FourDigits (DateTime.ofSeconds n).date.year) :
    (DateTime.ofSeconds m).compact < (DateTime.ofSeconds n).compact ↔ m < n := by
  refine ⟨fun h => ?_, DateTime.compact_lt hm hn⟩
  rcases lt_trichotomy m n with hlt | rfl | hgt
  · exact hlt
  · exact absurd h (List.lt_irrefl _)
  · exact absurd h (List.lt_asymm (DateTime.compact_lt hn hm hgt))

end Babycat.Time
