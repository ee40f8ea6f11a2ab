/-
  Babycat.Time.DateTexts

  Dates with dashes and UTC times as texts: how they sort, and what `strptime`
  reads of them.

  Texts of years with four digits sort as the days and the seconds they stand
  for.  `%Y` does not pad: a year with fewer digits sorts among the years of
  four digits by its leading ones (`yearReach`), and `strptime` does not take it.
-/

import Babycat.Time.Strptime

namespace Babycat.Time

/-- The year of a day. -/
def yearOf (day : ℤ) : ℤ := (Date.ofDays day).year

/-- The year of a second. -/
def utcYear (n : ℤ) : ℤ := yearOf (n / 86400)

theorem yearOf_mono {m n : ℤ} (h : m ≤ n) : yearOf m ≤ yearOf n := by
  rcases lt_or_eq_of_le h with hlt | rfl
  · rcases Date.ofDays_before hlt with hyear | ⟨hyear, -⟩
    · exact hyear.le
    · exact hyear.le
  · exact le_refl _

theorem utcYear_mono {m n : ℤ} (h : m ≤ n) : utcYear m ≤ utcYear n :=
  yearOf_mono (Int.ediv_le_ediv (by decide) h)

-- ============================================================================
-- Years of four digits
-- ============================================================================

theorem Date.text_lt_iff {sep : List Char} {m n : ℤ} (hm : FourDigits (yearOf m))
    (hn : FourDigits (yearOf n)) :
    (Date.ofDays m).text sep < (Date.ofDays n).text sep ↔ m < n := by
  refine ⟨fun h => ?_, fun h => Date.text_lt hm hn (Date.ofDays_before h)⟩
  rcases lt_trichotomy m n with hlt | rfl | hgt
  · exact hlt
  · exact absurd h (List.lt_irrefl _)
  · exact absurd h (List.lt_asymm (Date.text_lt hn hm (Date.ofDays_before hgt)))

theorem DateTime.iso_lt {m n : ℤ} (hm : FourDigits (utcYear m)) (hn : FourDigits (utcYear n))
    (h : m < n) : (DateTime.ofSeconds m).iso < (DateTime.ofSeconds n).iso := by
  have htm := timeText_length (DateTime.ofSeconds m)
  have htn := timeText_length (DateTime.ofSeconds n)
  refine lex_append ((Date.text_length hm).trans (Date.text_length hn).symm) ?_
  rcases DateTime.ofSeconds_before h with hdate | ⟨hdate, htime⟩
  · exact .inl (Date.text_lt hm hn hdate)
  · refine .inr ⟨by rw [hdate], List.cons_lt_cons_iff.mpr (.inr ⟨rfl, ?_⟩)⟩
    exact append_lt_append (htm.trans htn.symm) (DateTime.timeText_lt htime) _ _

theorem DateTime.iso_lt_iff {m n : ℤ} (hm : FourDigits (utcYear m)) (hn : FourDigits (utcYear n)) :
    (DateTime.ofSeconds m).iso < (DateTime.ofSeconds n).iso ↔ m < n := by
  refine ⟨fun h => ?_, DateTime.iso_lt hm hn⟩
  rcases lt_trichotomy m n with hlt | rfl | hgt
  · exact hlt
  · exact absurd h (List.lt_irrefl _)
  · exact absurd h (List.lt_asymm (DateTime.iso_lt hn hm hgt))

-- ============================================================================
-- Years of fewer digits
-- ============================================================================

/-- The first year of four digits whose text sorts behind that of a year. -/
def yearReach (year : ℤ) : ℤ :=
  if year < 10 then 1000 * year
  else if year < 100 then 100 * year
  else if year < 1000 then 10 * year
  else year

/-- `%Y` of a year with `width + 1` digits. -/
theorem padInt_digits {width y : ℕ} (hlow : 10 ^ width ≤ y) (hhigh : y < 10 ^ (width + 1)) :
    padInt 1 y = zeroPad (width + 1) y := by
  have hlength : (Nat.toDigits 10 y).length = width + 1 := by
    have hle := (Nat.length_toDigits_le_iff (by decide) (Nat.succ_pos width)).mpr hhigh
    rcases Nat.eq_zero_or_pos width with rfl | hwidth
    · have hpos := Nat.length_toDigits_pos (b := 10) (n := y)
      omega
    · have hgt := mt (Nat.length_toDigits_le_iff (by decide) hwidth).mp (not_lt_of_ge hlow)
      omega
  rw [padInt, if_pos (Int.natCast_nonneg y), Int.natAbs_natCast, zeroPad, zeroPad, hlength]
  simp

/-- The leading digits of a number, and the digit behind them. -/
theorem zeroPad_leading (width more n : ℕ) : ∃ d rest, d < 10 ∧
    zeroPad (width + 1 + (more + 1)) n =
      zeroPad (width + 1) (n / 10 ^ (more + 1)) ++ d.digitChar :: rest := by
  induction more generalizing n with
  | zero =>
      refine ⟨n % 10, [], Nat.mod_lt n (by decide), ?_⟩
      rw [zeroPad_succ, Nat.zero_add, pow_one]
  | succ more ih =>
      obtain ⟨d, rest, hd, htext⟩ := ih (n / 10)
      refine ⟨d, rest ++ [(n % 10).digitChar], hd, ?_⟩
      rw [show width + 1 + (more + 1 + 1) = width + 1 + more + 2 by omega, zeroPad_succ,
        show width + 1 + more + 1 = width + 1 + (more + 1) by omega, htext, Nat.div_div_eq_div_mul,
        ← pow_succ', List.append_assoc, List.cons_append]

theorem dash_lt_digitChar {d : ℕ} (h : d < 10) : '-' < d.digitChar := by
  have hall : ∀ d < 10, '-' < d.digitChar := by decide
  exact hall d h

/-- A dash sorts in front of every digit. -/
theorem dash_append_lt {width y q d : ℕ} {x x' : List Char} (h : y ≤ q)
    (hq : q < 10 ^ (width + 1)) (hd : d < 10) :
    zeroPad (width + 1) y ++ '-' :: x < zeroPad (width + 1) q ++ d.digitChar :: x' := by
  refine lex_append ?_ ?_
  · rw [zeroPad_length width y (by omega), zeroPad_length width q hq]
  · rcases Nat.lt_or_eq_of_le h with hlt | rfl
    · exact .inl (zeroPad_lt width y q hlt hq)
    · exact .inr ⟨rfl, List.cons_lt_cons_iff.mpr (.inl (dash_lt_digitChar hd))⟩

/-- The two orders of a year with `width + 1` digits and one with `width + 1 + (more + 1)`. -/
theorem padInt_dash_order {width more y z : ℕ} (hlow : 10 ^ width ≤ y)
    (hhigh : y < 10 ^ (width + 1)) (hz : z < 10 ^ (width + 1 + (more + 1))) (x x' : List Char) :
    (y * 10 ^ (more + 1) ≤ z →
      padInt 1 y ++ '-' :: x < zeroPad (width + 1 + (more + 1)) z ++ x') ∧
    (z < y * 10 ^ (more + 1) →
      zeroPad (width + 1 + (more + 1)) z ++ x' < padInt 1 y ++ '-' :: x) := by
  have hpos : 0 < 10 ^ (more + 1) := Nat.pow_pos (by decide)
  have hq : z / 10 ^ (more + 1) < 10 ^ (width + 1) := by
    rw [Nat.div_lt_iff_lt_mul hpos, ← pow_add]
    exact hz
  obtain ⟨d, rest, hd, htext⟩ := zeroPad_leading width more z
  rw [padInt_digits hlow hhigh, htext, List.append_assoc, List.cons_append]
  refine ⟨fun hle => dash_append_lt ((Nat.le_div_iff_mul_le hpos).mpr hle) hq hd, fun hlt => ?_⟩
  refine append_lt_append ?_ (zeroPad_lt width _ y ((Nat.div_lt_iff_lt_mul hpos).mpr hlt) hhigh) _ _
  rw [zeroPad_length width _ hq, zeroPad_length width y hhigh]

/-- A date of a short year beside one with a year of four digits, with anything behind them. -/
theorem Date.short_order {d e : Date} (hd : 1 ≤ d.year ∧ d.year < 1000) (he : FourDigits e.year)
    (x x' : List Char) :
    (yearReach d.year ≤ e.year → d.text ['-'] ++ x < e.text ['-'] ++ x') ∧
      (e.year < yearReach d.year → e.text ['-'] ++ x' < d.text ['-'] ++ x) := by
  have he' : 1000 ≤ e.year ∧ e.year ≤ 9999 := he
  obtain ⟨y, hy⟩ := Int.eq_ofNat_of_zero_le (show 0 ≤ d.year by omega)
  simp only [Date.text, padInt_four he, hy, yearReach, List.append_assoc, List.cons_append,
    List.nil_append]
  rcases Nat.lt_or_ge y 10 with hone | hone
  · have horder := @padInt_dash_order 0 2 y e.year.toNat (by omega) (by omega) (by omega)
    rw [if_pos (by omega)]
    exact ⟨fun h => (horder _ _).1 (by omega), fun h => (horder _ _).2 (by omega)⟩
  rcases Nat.lt_or_ge y 100 with htwo | htwo
  · have horder := @padInt_dash_order 1 1 y e.year.toNat (by omega) (by omega) (by omega)
    rw [if_neg (by omega), if_pos (by omega)]
    exact ⟨fun h => (horder _ _).1 (by omega), fun h => (horder _ _).2 (by omega)⟩
  · have horder := @padInt_dash_order 2 0 y e.year.toNat (by omega) (by omega) (by omega)
    rw [if_neg (by omega), if_neg (by omega), if_pos (by omega)]
    exact ⟨fun h => (horder _ _).1 (by omega), fun h => (horder _ _).2 (by omega)⟩

/-- Texts that are in the order of two numbers, where equal ones count as one way. -/
theorem text_order_iff {x y : List Char} {a b : ℤ} (h : (a ≤ b → x < y) ∧ (b < a → y < x)) :
    (¬ y < x ↔ a ≤ b) ∧ (¬ x < y ↔ b < a) := by
  constructor
  · refine ⟨fun hnot => ?_, fun hle => List.lt_asymm (h.1 hle)⟩
    by_contra hgt
    exact hnot (h.2 (not_le.mp hgt))
  · refine ⟨fun hnot => ?_, fun hlt => List.lt_asymm (h.2 hlt)⟩
    by_contra hge
    exact hnot (h.1 (not_lt.mp hge))

-- ============================================================================
-- What `strptime` reads
-- ============================================================================

/-- A date with a year of four digits is read back. -/
theorem strptimeDate_text {day : ℤ} (h : FourDigits (yearOf day)) :
    strptimeDate ((Date.ofDays day).text ['-']) = some day := by
  have hyear : 1000 ≤ (Date.ofDays day).year ∧ (Date.ofDays day).year ≤ 9999 := h
  have hfour : FourDigits (Date.ofDays day).year := h
  have hcast : ((Date.ofDays day).year.toNat : ℤ) = (Date.ofDays day).year := by omega
  have hfirst : ∃ more, dateMatches ((Date.ofDays day).text ['-']) =
      (((Date.ofDays day).year.toNat, (Date.ofDays day).month, (Date.ofDays day).day), []) ::
        more := by
    simp only [Date.text, padInt_four hfour, List.cons_append, List.nil_append]
    refine andThen_first (yearField_first (by omega) _) ?_
    rw [literal, if_pos rfl]
    refine andThen_first (monthField_first (Date.ofDays day).month_range _) ?_
    rw [literal, if_pos rfl, ← List.append_nil (zeroPad 2 (Date.ofDays day).day)]
    exact andThen_first (dayField_first (Date.ofDays day).day_range []) ⟨[], rfl⟩
  obtain ⟨more, hmatch⟩ := hfirst
  rw [strptimeDate, hmatch]
  show (if _ then _ else _) = _
  rw [if_pos ⟨by omega, by rw [hcast]; exact day_le_daysInMonth day⟩, hcast, toDays_ofDays]

theorem anyDigit_dash : anyDigit '-' = none := by decide

theorem twoDigits_dash (s : List Char) : twoDigits anyDigit anyDigit ('-' :: s) = [] := by
  cases s with
  | nil => rfl
  | cons c s => simp [twoDigits, anyDigit_dash]

theorem twoDigits_dash_second (c : Char) (s : List Char) :
    twoDigits anyDigit anyDigit (c :: '-' :: s) = [] := by
  simp [twoDigits, anyDigit_dash]

/-- `%Y` takes four digits. -/
theorem yearField_dash {x s : List Char} (h : x.length < 4) : yearField (x ++ '-' :: s) = [] := by
  refine andThen_nil fun m hm => andThen_nil fun l hl => ?_
  rw [twoDigits_drop hm] at hl
  match x, h with
  | [], _ => rw [List.nil_append, twoDigits_dash] at hm; cases hm
  | [a], _ => rw [List.cons_append, List.nil_append, twoDigits_dash_second] at hm; cases hm
  | [a, b], _ => exact absurd hl (by simp [twoDigits_dash])
  | [a, b, c], _ => exact absurd hl (by simp [twoDigits_dash_second])

/-- A short year is not read back. -/
theorem strptimeDate_short {day : ℤ} (h : 1 ≤ yearOf day ∧ yearOf day < 1000) :
    strptimeDate ((Date.ofDays day).text ['-']) = none := by
  have hyear : 1 ≤ (Date.ofDays day).year ∧ (Date.ofDays day).year < 1000 := h
  have hdigits : (Nat.toDigits 10 (Date.ofDays day).year.natAbs).length ≤ 3 :=
    (Nat.length_toDigits_le_iff (by decide) (by decide)).mpr (by omega)
  have hpos := Nat.length_toDigits_pos (b := 10) (n := (Date.ofDays day).year.natAbs)
  have hlength : (padInt 1 (Date.ofDays day).year).length < 4 := by
    rw [padInt, if_pos (by omega), zeroPad, List.length_append, List.length_replicate]
    omega
  have hnone : dateMatches ((Date.ofDays day).text ['-']) = [] := by
    refine andThen_nil fun m hm => ?_
    rw [Date.text, List.append_assoc, List.singleton_append, yearField_dash hlength] at hm
    cases hm
  rw [strptimeDate, hnone]

/-! ## The years it takes -/

/-- The values of a field. -/
def Field.Within (f : Field) (low high : ℕ) : Prop := ∀ s, ∀ m ∈ f s, low ≤ m.1 ∧ m.1 ≤ high

theorem twoDigits_within {p q : Char → Option ℕ} {low high a b : ℕ}
    (hp : ∀ c v, p c = some v → low ≤ v ∧ v ≤ high) (hq : ∀ c v, q c = some v → a ≤ v ∧ v ≤ b) :
    (twoDigits p q).Within (10 * low + a) (10 * high + b) := by
  intro s m hm
  match s, hm with
  | c :: d :: s, hm =>
      simp only [twoDigits, Option.mem_toList, Option.bind_eq_some_iff,
        Option.map_eq_some_iff] at hm
      obtain ⟨v, hv, w, hw, rfl⟩ := hm
      have hfirst := hp c v hv
      have hsecond := hq d w hw
      exact ⟨by omega, by omega⟩

theorem oneDigit_within {p : Char → Option ℕ} {low high : ℕ}
    (hp : ∀ c v, p c = some v → low ≤ v ∧ v ≤ high) : (oneDigit p).Within low high := by
  intro s m hm
  match s, hm with
  | c :: s, hm =>
      simp only [oneDigit, Option.mem_toList, Option.map_eq_some_iff] at hm
      obtain ⟨v, hv, rfl⟩ := hm
      exact hp c v hv

theorem Field.Within.widen {f : Field} {low high a b : ℕ} (h : f.Within low high) (ha : a ≤ low)
    (hb : high ≤ b) : f.Within a b := fun s m hm =>
  ⟨ha.trans (h s m hm).1, (h s m hm).2.trans hb⟩

theorem oneOf_within {fs : List Field} {low high : ℕ} (h : ∀ f ∈ fs, f.Within low high) :
    (oneOf fs).Within low high := by
  intro s m hm
  obtain ⟨f, hf, hmf⟩ := List.mem_flatMap.mp hm
  exact h f hf s m hmf

theorem anyDigit_within (c : Char) (v : ℕ) (h : anyDigit c = some v) : 0 ≤ v ∧ v ≤ 9 := by
  obtain ⟨first, hfirst, rfl⟩ := Option.map_eq_some_iff.mp h
  have hrange := List.find?_some hfirst
  simp only [decide_eq_true_eq] at hrange
  omega

theorem digitIn_within {low high : ℕ} (c : Char) (v : ℕ) (h : digitIn low high c = some v) :
    low ≤ v ∧ v ≤ high := by
  simp only [digitIn, Option.ite_none_right_eq_some, Option.some.injEq] at h
  omega

theorem blank_within (c : Char) (v : ℕ) (h : blank c = some v) : 0 ≤ v ∧ v ≤ 0 := by
  simp only [blank, Option.ite_none_right_eq_some, Option.some.injEq] at h
  omega

theorem monthField_within : monthField.Within 1 12 := by
  refine oneOf_within fun f hf => ?_
  simp only [List.mem_cons, List.not_mem_nil, or_false] at hf
  rcases hf with rfl | rfl | rfl
  · exact (twoDigits_within digitIn_within digitIn_within).widen (by decide) (by decide)
  · exact (twoDigits_within digitIn_within digitIn_within).widen (by decide) (by decide)
  · exact (oneDigit_within digitIn_within).widen (by decide) (by decide)

theorem dayField_within : dayField.Within 1 31 := by
  refine oneOf_within fun f hf => ?_
  simp only [List.mem_cons, List.not_mem_nil, or_false] at hf
  rcases hf with rfl | rfl | rfl | rfl | rfl
  · exact (twoDigits_within digitIn_within digitIn_within).widen (by decide) (by decide)
  · exact (twoDigits_within digitIn_within anyDigit_within).widen (by decide) (by decide)
  · exact (twoDigits_within digitIn_within digitIn_within).widen (by decide) (by decide)
  · exact (oneDigit_within digitIn_within).widen (by decide) (by decide)
  · exact (twoDigits_within blank_within digitIn_within).widen (by decide) (by decide)

theorem yearField_within : yearField.Within 0 9999 := by
  intro s m hm
  obtain ⟨c, hc, hm⟩ := List.mem_flatMap.mp hm
  obtain ⟨y, hy, hm⟩ := List.mem_flatMap.mp hm
  have hcentury := twoDigits_within anyDigit_within anyDigit_within _ _ hc
  have hyear := twoDigits_within anyDigit_within anyDigit_within _ _ hy
  rw [List.mem_singleton.mp hm]
  exact ⟨Nat.zero_le _, by show 100 * c.1 + y.1 ≤ 9999; omega⟩

/-- What is behind a literal. -/
theorem mem_literal {α : Type} {c : Char} {k : List Char → List α} {s : List Char} {x : α}
    (h : x ∈ literal c k s) : ∃ rest, x ∈ k rest := by
  cases s with
  | nil => cases h
  | cons d s =>
      rw [literal] at h
      split at h
      · exact ⟨s, h⟩
      · cases h

theorem dateMatches_within {s : List Char} {m : (ℕ × ℕ × ℕ) × List Char} (h : m ∈ dateMatches s) :
    m.1.1 ≤ 9999 ∧ (1 ≤ m.1.2.1 ∧ m.1.2.1 ≤ 12) ∧ (1 ≤ m.1.2.2 ∧ m.1.2.2 ≤ 31) := by
  obtain ⟨year, hyear, h⟩ := List.mem_flatMap.mp h
  obtain ⟨_, h⟩ := mem_literal h
  obtain ⟨month, hmonth, h⟩ := List.mem_flatMap.mp h
  obtain ⟨_, h⟩ := mem_literal h
  obtain ⟨day, hday, h⟩ := List.mem_flatMap.mp h
  rw [List.mem_singleton.mp h]
  exact ⟨(yearField_within _ _ hyear).2, monthField_within _ _ hmonth, dayField_within _ _ hday⟩

/-- A date lies between the new years of its year and of the next. -/
theorem toDays_within {month day : ℕ} (year : ℤ) (hmonth : 1 ≤ month ∧ month ≤ 12)
    (hday : 1 ≤ day ∧ day ≤ 31) :
    toDays year 1 1 ≤ toDays year month day ∧ toDays year month day < toDays (year + 1) 1 1 := by
  simp only [toDays, marchDay, yearDay]
  split <;> omega

theorem newYear_mono {y z : ℤ} (h : y ≤ z) : toDays y 1 1 ≤ toDays z 1 1 := by
  simp only [toDays, marchDay, yearDay]
  omega

theorem yearOf_toDays {month day : ℕ} (year : ℤ) (hmonth : 1 ≤ month ∧ month ≤ 12)
    (hday : 1 ≤ day ∧ day ≤ 31) : yearOf (toDays year month day) = year := by
  have hin := toDays_within year hmonth hday
  generalize toDays year month day = n at hin
  have hback := toDays_within (yearOf n) (Date.ofDays n).month_range (Date.ofDays n).day_range
  rw [yearOf, toDays_ofDays, ← yearOf] at hback
  rcases lt_trichotomy (yearOf n) year with hlt | heq | hgt
  · have hmono := newYear_mono (show yearOf n + 1 ≤ year by omega)
    omega
  · exact heq
  · have hmono := newYear_mono (show year + 1 ≤ yearOf n by omega)
    omega

theorem strptimeDate_year {s : List Char} {day : ℤ} (h : strptimeDate s = some day) :
    1 ≤ yearOf day ∧ yearOf day ≤ 9999 := by
  rw [strptimeDate] at h
  split at h
  · rename_i year month d more hmatch
    obtain ⟨hyear, hmonth, hday⟩ : year ≤ 9999 ∧ (1 ≤ month ∧ month ≤ 12) ∧ 1 ≤ d ∧ d ≤ 31 :=
      dateMatches_within (hmatch ▸ List.mem_cons_self)
    split at h
    · rename_i hvalid
      rw [← Option.some.inj h, yearOf_toDays (year : ℤ) hmonth hday]
      exact ⟨by omega, by omega⟩
    · cases h
  · cases h

end Babycat.Time
