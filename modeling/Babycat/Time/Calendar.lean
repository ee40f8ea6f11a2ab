/-
  Babycat.Time.Calendar

  The proleptic Gregorian calendar over the integers, and dates as text.

  Years are counted from March, so that the leap day is the last of its year:
  400 years are four centuries of 36524 days and the day that the last one has
  more, a century is made of groups of four years of 1461 days and a group of
  years of 365 days.  A date determines its day number and a text its date:
  `Date.ofDays_injective`, `DateTime.compact_numbered_injective` and
  `DateTime.iso_injective`.
-/

import Mathlib.Data.List.Basic
import Mathlib.Tactic.Linarith

namespace Babycat.Time

-- ============================================================================
-- Decimal numbers
-- ============================================================================

/-- `n` in decimal, with zeros in front up to the width. -/
def zeroPad (width n : ℕ) : List Char :=
  List.replicate (width - (Nat.toDigits 10 n).length) '0' ++ Nat.toDigits 10 n

/-- The sign counts for the width. -/
def padInt (width : ℕ) (z : ℤ) : List Char :=
  if 0 ≤ z then zeroPad width z.natAbs else '-' :: zeroPad (width - 1) z.natAbs

theorem ofDigitChars_zeroPad (width n : ℕ) : Nat.ofDigitChars 10 (zeroPad width n) 0 = n := by
  rw [zeroPad, Nat.ofDigitChars_append, Nat.ofDigitChars_replicate_zero, Nat.mul_zero,
    Nat.ofDigitChars_ten_toDigits]

theorem zeroPad_injective {v w m n : ℕ} (h : zeroPad v m = zeroPad w n) : m = n := by
  rw [← ofDigitChars_zeroPad v m, h, ofDigitChars_zeroPad]

theorem isDigit_of_mem_zeroPad {width n : ℕ} {c : Char} (h : c ∈ zeroPad width n) :
    c.isDigit = true := by
  rcases List.mem_append.mp h with hzero | hdigit
  · rw [List.eq_of_mem_replicate hzero]
    rfl
  · exact Nat.isDigit_of_mem_toDigits (b := 10) (by decide) (by decide) hdigit

theorem zeroPad_two_length {n : ℕ} (h : n < 100) : (zeroPad 2 n).length = 2 := by
  have hall : ∀ n < 100, (zeroPad 2 n).length = 2 := by decide
  exact hall n h

theorem not_digit_of_mem {c : Char} (h : c.isDigit = false) {width n : ℕ} :
    c ∉ zeroPad width n := by
  intro hmem
  rw [isDigit_of_mem_zeroPad hmem] at h
  cases h

theorem padInt_injective {width : ℕ} {y z : ℤ} (h : padInt width y = padInt width z) : y = z := by
  have hsign : ∀ v w m n, zeroPad v m ≠ '-' :: zeroPad w n := fun v w m n he =>
    not_digit_of_mem (c := '-') rfl (he ▸ List.mem_cons_self)
  simp only [padInt] at h
  split at h <;> split at h
  · have habs := zeroPad_injective h
    omega
  · exact absurd h (hsign _ _ _ _)
  · exact absurd h.symm (hsign _ _ _ _)
  · have habs := zeroPad_injective (List.cons.inj h).2
    omega

theorem not_mem_padInt {c : Char} (h : c.isDigit = false) (hminus : c ≠ '-') {width : ℕ} {z : ℤ} :
    c ∉ padInt width z := by
  simp only [padInt]
  split
  · exact not_digit_of_mem h
  · rw [List.mem_cons]
    rintro (rfl | hmem)
    · exact hminus rfl
    · exact not_digit_of_mem h hmem

-- ============================================================================
-- Dates
-- ============================================================================

@[ext]
structure Date where
  year : ℤ
  month : ℕ
  day : ℕ
  month_range : 1 ≤ month ∧ month ≤ 12
  day_range : 1 ≤ day ∧ day ≤ 31
  deriving DecidableEq

/-- A day within 400 years from a first of March. -/
structure EraDay where
  century : ℤ
  group : ℤ
  year : ℤ
  day : ℤ

/-- The day `n` of 400 years, `0 ≤ n < 146097`. -/
def EraDay.ofDays (n : ℤ) : EraDay :=
  let century := min 3 (n / 36524)
  let inCentury := n - 36524 * century
  let inGroup := inCentury % 1461
  let year := min 3 (inGroup / 365)
  ⟨century, inCentury / 1461, year, inGroup - 365 * year⟩

/-- The last century has one day more. -/
theorem century_range {n : ℤ} (h0 : 0 ≤ n) (h1 : n < 146097) :
    0 ≤ min 3 (n / 36524) ∧ min 3 (n / 36524) ≤ 3 ∧
      0 ≤ n - 36524 * min 3 (n / 36524) ∧ n - 36524 * min 3 (n / 36524) ≤ 36524 := by
  omega

/-- So has the last year of a group. -/
theorem year_range {n : ℤ} (h0 : 0 ≤ n) (h1 : n < 1461) :
    0 ≤ min 3 (n / 365) ∧ min 3 (n / 365) ≤ 3 ∧
      0 ≤ n - 365 * min 3 (n / 365) ∧ n - 365 * min 3 (n / 365) ≤ 365 := by
  omega

theorem EraDay.ofDays_spec {n : ℤ} (h0 : 0 ≤ n) (h1 : n < 146097) :
    let e := EraDay.ofDays n
    n = 36524 * e.century + 1461 * e.group + 365 * e.year + e.day ∧
      0 ≤ e.century ∧ e.century ≤ 3 ∧ 0 ≤ e.group ∧ e.group ≤ 24 ∧ 0 ≤ e.year ∧ e.year ≤ 3 ∧
      0 ≤ e.day ∧ e.day ≤ 365 := by
  simp only [EraDay.ofDays]
  have hcentury := century_range h0 h1
  generalize min 3 (n / 36524) = century at *
  have hyear := year_range (n := (n - 36524 * century) % 1461) (by omega) (by omega)
  generalize min 3 ((n - 36524 * century) % 1461 / 365) = year at *
  omega

/-- The month of a day of the year, March being 0. -/
def monthIndex (day : ℤ) : ℤ := (5 * day + 2) / 153

/-- The day of the month, the first being 0. -/
def dayIndex (day : ℤ) : ℤ := day - (153 * monthIndex day + 2) / 5

theorem index_range {day : ℤ} (h0 : 0 ≤ day) (h1 : day ≤ 365) :
    0 ≤ monthIndex day ∧ monthIndex day ≤ 11 ∧ 0 ≤ dayIndex day ∧ dayIndex day ≤ 30 := by
  simp only [dayIndex, monthIndex]
  omega

/-- The day `n` after 1970-01-01, from the first of March of the year 0. -/
def eraDay (n : ℤ) : EraDay := EraDay.ofDays ((n + 719468) % 146097)

theorem eraDay_spec (n : ℤ) :
    (n + 719468) % 146097 =
        36524 * (eraDay n).century + 1461 * (eraDay n).group + 365 * (eraDay n).year +
          (eraDay n).day ∧
      0 ≤ (eraDay n).century ∧ (eraDay n).century ≤ 3 ∧ 0 ≤ (eraDay n).group ∧
      (eraDay n).group ≤ 24 ∧ 0 ≤ (eraDay n).year ∧ (eraDay n).year ≤ 3 ∧
      0 ≤ (eraDay n).day ∧ (eraDay n).day ≤ 365 :=
  EraDay.ofDays_spec (Int.emod_nonneg _ (by decide)) (Int.emod_lt_of_pos _ (by decide))

theorem eraDay_index_range (n : ℤ) :
    0 ≤ monthIndex (eraDay n).day ∧ monthIndex (eraDay n).day ≤ 11 ∧
      0 ≤ dayIndex (eraDay n).day ∧ dayIndex (eraDay n).day ≤ 30 := by
  obtain ⟨-, -, -, -, -, -, -, h0, h1⟩ := eraDay_spec n
  exact index_range h0 h1

/-- The year that begins with the March before the day. -/
def marchYear (n : ℤ) : ℤ :=
  400 * ((n + 719468) / 146097) + 100 * (eraDay n).century + 4 * (eraDay n).group + (eraDay n).year

/-- The date of the day `n` after 1970-01-01. -/
def Date.ofDays (n : ℤ) : Date where
  year := if monthIndex (eraDay n).day < 10 then marchYear n else marchYear n + 1
  month := (if monthIndex (eraDay n).day < 10 then monthIndex (eraDay n).day + 3
    else monthIndex (eraDay n).day - 9).toNat
  day := (dayIndex (eraDay n).day + 1).toNat
  month_range := by
    have hrange := eraDay_index_range n
    constructor <;> split <;> omega
  day_range := by
    have hrange := eraDay_index_range n
    omega

/-- A day is determined by its year from March and its day in it. -/
theorem eq_of_marchYear {m n : ℤ} (hyear : marchYear m = marchYear n)
    (hday : (eraDay m).day = (eraDay n).day) : m = n := by
  obtain ⟨hm, hm'⟩ := eraDay_spec m
  obtain ⟨hn, hn'⟩ := eraDay_spec n
  simp only [marchYear] at hyear
  have hera : (m + 719468) / 146097 = (n + 719468) / 146097 := by omega
  have hcentury : (eraDay m).century = (eraDay n).century := by omega
  have hgroup : (eraDay m).group = (eraDay n).group := by omega
  have hrest : (m + 719468) % 146097 = (n + 719468) % 146097 := by omega
  omega

theorem Date.ofDays_injective {m n : ℤ} (h : Date.ofDays m = Date.ofDays n) : m = n := by
  have hm := eraDay_index_range m
  have hn := eraDay_index_range n
  simp only [Date.ofDays, Date.mk.injEq] at h
  obtain ⟨hyear, hmonth, hday⟩ := h
  have hindex : monthIndex (eraDay m).day = monthIndex (eraDay n).day := by
    split at hmonth <;> split at hmonth <;> omega
  have hdayIndex : dayIndex (eraDay m).day = dayIndex (eraDay n).day := by omega
  refine eq_of_marchYear ?_ ?_
  · rw [hindex] at hyear
    split at hyear <;> omega
  · simp only [dayIndex, hindex] at hdayIndex
    omega

example : (Date.ofDays 20454).year = 2026 ∧ (Date.ofDays 20454).month = 1 ∧
    (Date.ofDays 20454).day = 1 := by decide

-- ============================================================================
-- Times of the day
-- ============================================================================

@[ext]
structure DateTime where
  date : Date
  hour : ℕ
  minute : ℕ
  second : ℕ
  hour_lt : hour < 24
  minute_lt : minute < 60
  second_lt : second < 60

/-- The second `n` after 1970-01-01 00:00:00. -/
def DateTime.ofSeconds (n : ℤ) : DateTime where
  date := .ofDays (n / 86400)
  hour := (n % 86400 / 3600).toNat
  minute := (n % 3600 / 60).toNat
  second := (n % 60).toNat
  hour_lt := by omega
  minute_lt := by omega
  second_lt := by omega

theorem eq_of_ediv_emod {m n : ℤ} (c : ℤ) (hdiv : m / c = n / c) (hmod : m % c = n % c) : m = n := by
  rw [← Int.mul_ediv_add_emod m c, hdiv, hmod, Int.mul_ediv_add_emod]

theorem eq_of_toNat {a b : ℤ} (ha : 0 ≤ a) (hb : 0 ≤ b) (h : a.toNat = b.toNat) : a = b := by
  rw [← Int.toNat_of_nonneg ha, ← Int.toNat_of_nonneg hb, h]

theorem field_nonneg (n : ℤ) {c d : ℤ} (hc : c ≠ 0) (hd : 0 ≤ d) : 0 ≤ n % c / d :=
  Int.ediv_nonneg (Int.emod_nonneg n hc) hd

theorem DateTime.ofSeconds_injective {m n : ℤ}
    (h : DateTime.ofSeconds m = DateTime.ofSeconds n) : m = n := by
  simp only [DateTime.ofSeconds, DateTime.mk.injEq] at h
  obtain ⟨hdate, hhour, hminute, hsecond⟩ := h
  have hday := Date.ofDays_injective hdate
  have hsecond' : m % 60 = n % 60 :=
    eq_of_toNat (Int.emod_nonneg m (by decide)) (Int.emod_nonneg n (by decide)) hsecond
  have hminute' : m % 3600 / 60 = n % 3600 / 60 :=
    eq_of_toNat (field_nonneg m (by decide) (by decide)) (field_nonneg n (by decide) (by decide))
      hminute
  have hhour' : m % 86400 / 3600 = n % 86400 / 3600 :=
    eq_of_toNat (field_nonneg m (by decide) (by decide)) (field_nonneg n (by decide) (by decide))
      hhour
  have hinHour : m % 3600 = n % 3600 := by
    refine eq_of_ediv_emod 60 hminute' ?_
    rw [Int.emod_emod_of_dvd m (by decide), Int.emod_emod_of_dvd n (by decide)]
    exact hsecond'
  have hinDay : m % 86400 = n % 86400 := by
    refine eq_of_ediv_emod 3600 hhour' ?_
    rw [Int.emod_emod_of_dvd m (by decide), Int.emod_emod_of_dvd n (by decide)]
    exact hinHour
  exact eq_of_ediv_emod 86400 hday hinDay

-- ============================================================================
-- Text
-- ============================================================================

/-- `%Y%m%d`, with `sep` between the fields. -/
def Date.text (sep : List Char) (d : Date) : List Char :=
  padInt 1 d.year ++ (sep ++ zeroPad 2 d.month ++ (sep ++ zeroPad 2 d.day))

/-- `%H%M%S`, with `sep` between the fields. -/
def DateTime.timeText (sep : List Char) (t : DateTime) : List Char :=
  zeroPad 2 t.hour ++ (sep ++ zeroPad 2 t.minute ++ (sep ++ zeroPad 2 t.second))

/-- `%Y%m%d_%H%M%S`. -/
def DateTime.compact (t : DateTime) : List Char := t.date.text [] ++ '_' :: t.timeText []

/-- `%Y-%m-%dT%H:%M:%SZ`. -/
def DateTime.iso (t : DateTime) : List Char :=
  t.date.text ['-'] ++ 'T' :: (t.timeText [':'] ++ ['Z'])

/-- A text up to a separator that is not in it. -/
theorem append_separator {x x' z z' : List Char} {c : Char} (hx : c ∉ x) (hx' : c ∉ x')
    (h : x ++ c :: z = x' ++ c :: z') : x = x' ∧ z = z' := by
  induction x generalizing x' with
  | nil =>
      cases x' with
      | nil => exact ⟨rfl, (List.cons.inj h).2⟩
      | cons b x' => exact absurd ((List.cons.inj h).1 ▸ List.mem_cons_self) hx'
  | cons a x ih =>
      cases x' with
      | nil => exact absurd ((List.cons.inj h).1 ▸ List.mem_cons_self) hx
      | cons b x' =>
          obtain ⟨rfl, htail⟩ := List.cons.inj h
          obtain ⟨rfl, rfl⟩ := ih (fun hc => hx (List.mem_cons_of_mem a hc))
            (fun hc => hx' (List.mem_cons_of_mem a hc)) htail
          exact ⟨rfl, rfl⟩

/-- Two fields of two digits behind the first one. -/
theorem fields_injective {sep x x' : List Char} {m m' n n' : ℕ} (hm : m < 100) (hm' : m' < 100)
    (hn : n < 100) (hn' : n' < 100)
    (h : x ++ (sep ++ zeroPad 2 m ++ (sep ++ zeroPad 2 n)) =
      x' ++ (sep ++ zeroPad 2 m' ++ (sep ++ zeroPad 2 n'))) : x = x' ∧ m = m' ∧ n = n' := by
  obtain ⟨rfl, hrest⟩ := List.append_inj' h (by
    simp [zeroPad_two_length hm, zeroPad_two_length hm', zeroPad_two_length hn,
      zeroPad_two_length hn'])
  obtain ⟨hfirst, hsecond⟩ := List.append_inj' hrest (by
    simp [zeroPad_two_length hn, zeroPad_two_length hn'])
  exact ⟨rfl, zeroPad_injective (List.append_cancel_left hfirst),
    zeroPad_injective (List.append_cancel_left hsecond)⟩

theorem Date.text_injective {sep : List Char} {d e : Date} (h : d.text sep = e.text sep) :
    d = e := by
  have hd := d.month_range
  have he := e.month_range
  have hd' := d.day_range
  have he' := e.day_range
  obtain ⟨hyear, hmonth, hday⟩ :=
    fields_injective (by omega) (by omega) (by omega) (by omega) h
  exact Date.ext (padInt_injective hyear) hmonth hday

theorem DateTime.timeText_injective {sep : List Char} {t u : DateTime} (hdate : t.date = u.date)
    (h : t.timeText sep = u.timeText sep) : t = u := by
  have ht := t.minute_lt
  have hu := u.minute_lt
  have ht' := t.second_lt
  have hu' := u.second_lt
  obtain ⟨hhour, hminute, hsecond⟩ :=
    fields_injective (by omega) (by omega) (by omega) (by omega) h
  exact DateTime.ext hdate (zeroPad_injective hhour) hminute hsecond

theorem not_mem_text {c : Char} {sep : List Char} (hdigit : c.isDigit = false) (hminus : c ≠ '-')
    (hsep : c ∉ sep) (d : Date) : c ∉ d.text sep := by
  simp [Date.text, not_mem_padInt hdigit hminus, not_digit_of_mem hdigit, hsep]

theorem not_mem_timeText {c : Char} {sep : List Char} (hdigit : c.isDigit = false)
    (hsep : c ∉ sep) (t : DateTime) : c ∉ t.timeText sep := by
  simp [DateTime.timeText, not_digit_of_mem hdigit, hsep]

theorem DateTime.iso_injective {t u : DateTime} (h : t.iso = u.iso) : t = u := by
  obtain ⟨hdate, htime⟩ := append_separator
    (not_mem_text rfl (by decide) (by decide) t.date)
    (not_mem_text rfl (by decide) (by decide) u.date) h
  exact DateTime.timeText_injective (Date.text_injective hdate) (List.append_cancel_right htime)

/-- A stamp, a separator and a number behind it. -/
theorem DateTime.compact_numbered_injective {width : ℕ} {t u : DateTime} {y z : ℤ}
    (h : t.compact ++ '_' :: padInt width y = u.compact ++ '_' :: padInt width z) :
    t = u ∧ y = z := by
  simp only [DateTime.compact, List.append_assoc, List.cons_append] at h
  obtain ⟨hdate, hrest⟩ := append_separator
    (not_mem_text rfl (by decide) (by decide) t.date)
    (not_mem_text rfl (by decide) (by decide) u.date) h
  obtain ⟨htime, hnumber⟩ := append_separator (not_mem_timeText rfl (by decide) t)
    (not_mem_timeText rfl (by decide) u) hrest
  exact ⟨DateTime.timeText_injective (Date.text_injective hdate) htime, padInt_injective hnumber⟩

example : String.ofList (DateTime.ofSeconds 1767225600).iso = "2026-01-01T00:00:00Z" := by
  decide

end Babycat.Time
