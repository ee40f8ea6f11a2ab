/-
  Babycat.Recorder.DateBounds

  The dates of a query and the bounds that they become (`_normalize_date_query`,
  `_local_date_bound_utc`).

  A date is a local one, and its first and its last second are converted to UTC
  and compared as texts.  The conversion gives up where it would leave the years
  of a datetime, and a year with fewer than four digits is not read back.
-/

import Babycat.Time.Aware
import Babycat.Time.DateTexts

-- ============================================================================
-- Conversions that can fail
-- ============================================================================

namespace Babycat.Time

/-- A datetime has a year from 1 to 9999. -/
def checkedYear (n : ℤ) : Option ℤ := if 1 ≤ utcYear n ∧ utcYear n ≤ 9999 then some n else none

theorem checkedYear_eq_some {n m : ℤ} :
    checkedYear n = some m ↔ (1 ≤ utcYear n ∧ utcYear n ≤ 9999) ∧ n = m := by
  rw [checkedYear, Option.ite_none_right_eq_some, Option.some.injEq]

namespace Zone

/-- `local` -/
def checkedLocal (z : Zone) (n : ℤ) : Option ℤ := checkedYear (z.localtime n)

/-- `local_to_seconds` with `fold=0`, which gives up where `local` does. -/
def checkedLocalToSeconds (z : Zone) (t : ℤ) : Option ℤ := do
  let lt ← z.checkedLocal t
  let u1 := t - (lt - t)
  let t1 ← z.checkedLocal u1
  if t1 = t then
    let earlier ← z.checkedLocal (u1 - maxFoldSeconds)
    let b := earlier - (u1 - maxFoldSeconds)
    if lt - t = b then some u1
    else
      let t2 ← z.checkedLocal (t - b)
      if t2 = t then some (t - b) else some u1
  else
    let u2 := t - (t1 - u1)
    let t2 ← z.checkedLocal u2
    if t2 = t then some u2 else some (max u1 u2)

/-- The offset that a naive local time is converted with. -/
def foldOffset (z : Zone) (t : ℤ) : ℤ := z.offset (z.localToSeconds t)

/-- The conversion of a naive local time to UTC stays within the years of a datetime. -/
structure Converts (z : Zone) (t : ℤ) : Prop where
  lookup : (z.checkedLocalToSeconds t).isSome = true
  year : 1 ≤ utcYear (t - z.foldOffset t) ∧ utcYear (t - z.foldOffset t) ≤ 9999

theorem checkedLocal_eq_some {z : Zone} {n m : ℤ} (h : z.checkedLocal n = some m) :
    m = z.localtime n := (checkedYear_eq_some.mp h).2.symm

theorem checkedLocalToSeconds_eq {z : Zone} {t u : ℤ} (h : z.checkedLocalToSeconds t = some u) :
    u = z.localToSeconds t := by
  simp only [checkedLocalToSeconds, Option.bind_eq_bind, Option.bind_eq_some_iff] at h
  obtain ⟨lt, hlt, t1, ht1, h⟩ := h
  have hoffset : lt - t = z.offset t := by
    rw [checkedLocal_eq_some hlt, localtime]
    omega
  rw [hoffset] at ht1 h
  rw [checkedLocal_eq_some ht1] at h
  simp only [localToSeconds]
  split at h
  · rename_i hsolves
    rw [if_pos hsolves]
    obtain ⟨earlier, hearlier, h⟩ := Option.bind_eq_some_iff.mp h
    have hbefore : earlier - (t - z.offset t - maxFoldSeconds) =
        z.offset (t - z.offset t - maxFoldSeconds) := by
      rw [checkedLocal_eq_some hearlier, localtime]
      omega
    rw [hbefore] at h
    split at h
    · rename_i hsame
      rw [if_pos hsame]
      exact (Option.some.inj h).symm
    · rename_i hother
      obtain ⟨t2, ht2, h⟩ := Option.bind_eq_some_iff.mp h
      rw [checkedLocal_eq_some ht2] at h
      rw [if_neg hother]
      split at h
      · rename_i hfirst
        rw [if_pos hfirst]
        exact (Option.some.inj h).symm
      · rename_i hnone
        rw [if_neg hnone]
        exact (Option.some.inj h).symm
  · rename_i hskips
    obtain ⟨t2, ht2, h⟩ := Option.bind_eq_some_iff.mp h
    rw [checkedLocal_eq_some ht2] at h
    have hother : z.localtime (t - z.offset t) - (t - z.offset t) = z.offset (t - z.offset t) := by
      rw [localtime]
      omega
    rw [hother] at h
    rw [if_neg hskips]
    split at h
    · rename_i hsecond
      rw [if_pos hsecond]
      exact (Option.some.inj h).symm
    · rename_i hgap
      rw [if_neg hgap]
      exact (Option.some.inj h).symm

end Zone

end Babycat.Time

namespace Babycat.Recorder

open Babycat.Time

-- ============================================================================
-- The bounds
-- ============================================================================

/-- What makes a request fail. -/
inductive FilterError
  | http (status : ℕ) (detail : String)
  | valueError
  | overflowError
  deriving DecidableEq

/-- `_normalize_date_query` of a date that is there. -/
def normalizeDateQuery (name value : String) : Except FilterError String :=
  match strptimeDate value.toList with
  | some day => .ok (String.ofList ((Date.ofDays day).text ['-']))
  | none => .error (.http 400 ("invalid " ++ name))

namespace DateFilter

/-- The first or the last second of a day, as a naive local time. -/
def naiveBound (day : ℤ) (last : Bool) : ℤ := 86400 * day + if last then 86399 else 0

def utcText (n : ℤ) : String := String.ofList (DateTime.ofSeconds n).iso

/-- The date is parsed again, and the parser does not take the year that `strftime` has written
    with fewer digits. -/
def localDateBoundUtc (z : Zone) (value : String) (last : Bool) : Except FilterError String :=
  match strptimeDate value.toList with
  | none => .error .valueError
  | some day =>
      match z.checkedLocalToSeconds (naiveBound day last) with
      | none => .error .valueError
      | some u =>
          match checkedYear (naiveBound day last - z.offset u) with
          | none => .error .overflowError
          | some n => .ok (utcText n)

/-- `s <= t` of two texts. -/
def textLe (s t : String) : Bool := !decide (t.toList < s.toList)

end DateFilter

/-- A date that the check of the query takes. -/
structure DateQuery where
  value : String
  day : ℤ
  parsed : strptimeDate value.toList = some day

/-- What the check makes of it. -/
def DateQuery.text (q : DateQuery) : String := String.ofList ((Date.ofDays q.day).text ['-'])

-- ============================================================================
-- The bounds as texts
-- ============================================================================

theorem bind_eq_ok {ε α β : Type} {x : Except ε α} {k : α → Except ε β} {b : β} :
    (x >>= k) = .ok b ↔ ∃ a, x = .ok a ∧ k a = .ok b := by
  cases x with
  | error e => exact ⟨fun h => (by cases h), fun ⟨a, ha, _⟩ => (by cases ha)⟩
  | ok a => exact ⟨fun h => ⟨a, rfl, h⟩, fun ⟨a', ha, h⟩ => (by cases ha; exact h)⟩

theorem DateQuery.year_range (q : DateQuery) : 1 ≤ yearOf q.day ∧ yearOf q.day ≤ 9999 :=
  strptimeDate_year q.parsed

theorem DateQuery.short_of_not {q : DateQuery} (h : ¬ FourDigits (yearOf q.day)) :
    1 ≤ yearOf q.day ∧ yearOf q.day < 1000 := by
  have hrange := q.year_range
  have hshort : ¬ (1000 ≤ yearOf q.day ∧ yearOf q.day ≤ 9999) := h
  omega

/-- The bound of a date is its second in UTC, if the date has a year of four digits and the
    conversion succeeds. -/
theorem localDateBoundUtc_eq_ok {z : Zone} {q : DateQuery} {last : Bool} {text : String} :
    DateFilter.localDateBoundUtc z q.text last = .ok text ↔
      FourDigits (yearOf q.day) ∧ z.Converts (DateFilter.naiveBound q.day last) ∧
        text = DateFilter.utcText (DateFilter.naiveBound q.day last -
          z.foldOffset (DateFilter.naiveBound q.day last)) := by
  rw [DateFilter.localDateBoundUtc, DateQuery.text, String.toList_ofList]
  by_cases hyear : FourDigits (yearOf q.day)
  · rw [strptimeDate_text hyear]
    dsimp only
    generalize DateFilter.naiveBound q.day last = t
    cases hu : z.checkedLocalToSeconds t with
    | none =>
        refine ⟨fun h => (by cases h), fun ⟨_, hconverts, _⟩ => ?_⟩
        have hlookup := hconverts.lookup
        rw [hu] at hlookup
        cases hlookup
    | some u =>
        have hfold : z.offset u = z.foldOffset t :=
          congrArg z.offset (Zone.checkedLocalToSeconds_eq hu)
        dsimp only
        rw [hfold, checkedYear]
        by_cases hrange : 1 ≤ utcYear (t - z.foldOffset t) ∧ utcYear (t - z.foldOffset t) ≤ 9999
        · rw [if_pos hrange]
          refine ⟨fun h => ⟨hyear, ⟨by rw [hu]; rfl, hrange⟩, (Except.ok.inj h).symm⟩, ?_⟩
          rintro ⟨-, -, rfl⟩
          rfl
        · rw [if_neg hrange]
          exact ⟨fun h => (by cases h), fun ⟨_, hconverts, _⟩ => absurd hconverts.year hrange⟩
  · rw [strptimeDate_short (DateQuery.short_of_not hyear)]
    exact ⟨fun h => (by cases h), fun ⟨h, _⟩ => absurd h hyear⟩

/-- A bound that may have a short year. -/
theorem utcText_le {i n : ℤ} (hi : 1 ≤ utcYear i ∧ utcYear i ≤ 9999) (hn : FourDigits (utcYear n)) :
    DateFilter.textLe (DateFilter.utcText i) (DateFilter.utcText n) = true ↔
      if FourDigits (utcYear i) then i ≤ n else yearReach (utcYear i) ≤ utcYear n := by
  rw [DateFilter.textLe, DateFilter.utcText, DateFilter.utcText, String.toList_ofList,
    String.toList_ofList, Bool.not_eq_true', decide_eq_false_iff_not]
  by_cases hyear : FourDigits (utcYear i)
  · rw [if_pos hyear, DateTime.iso_lt_iff hn hyear, not_lt]
  · have hshort : ¬ (1000 ≤ utcYear i ∧ utcYear i ≤ 9999) := hyear
    have horder := Date.short_order (d := (DateTime.ofSeconds i).date)
      (e := (DateTime.ofSeconds n).date) (show 1 ≤ utcYear i ∧ utcYear i < 1000 by omega) hn
    rw [if_neg hyear]
    exact (text_order_iff (horder _ _)).1

end Babycat.Recorder
