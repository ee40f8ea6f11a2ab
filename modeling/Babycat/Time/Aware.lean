/-
  Babycat.Time.Aware

  Datetimes with a UTC offset of their own (`datetime.astimezone`, `isoformat`).

  A naive datetime is taken as local time: `astimezone` looks for an instant with
  that wall-clock time, the first one where it comes twice.  The result keeps the
  offset it was given; arithmetic on it does not look at the zone again.
-/

import Babycat.Time.Zone

namespace Babycat.Time

/-- A datetime whose time zone is a fixed offset. -/
@[ext]
structure Aware where
  instant : ℤ
  offset : ℤ
  deriving DecidableEq

namespace Aware

/-- The fields of the datetime, in seconds. -/
def wall (a : Aware) : ℤ := a.instant + a.offset

/-- `+ timedelta(seconds=d)`. -/
def add (a : Aware) (d : ℤ) : Aware := { a with instant := a.instant + d }

/-- `replace` with zero for all fields below a unit of `step` seconds. -/
def floor (a : Aware) (step : ℤ) : Aware := { a with instant := a.instant - a.wall % step }

/-- `+hh:mm`, with the seconds where there are any. -/
def offsetText (offset : ℤ) : List Char :=
  (if offset < 0 then '-' else '+') :: (zeroPad 2 (offset.natAbs / 3600) ++
    ':' :: (zeroPad 2 (offset.natAbs % 3600 / 60) ++
      if offset.natAbs % 60 = 0 then [] else ':' :: zeroPad 2 (offset.natAbs % 60)))

/-- `%Y-%m-%d` with a year of four digits. -/
def isoDate (d : Date) : List Char :=
  padInt 4 d.year ++ (['-'] ++ zeroPad 2 d.month ++ (['-'] ++ zeroPad 2 d.day))

/-- `%Y-%m-%dT%H:%M:%S` and the offset. -/
def isoformat (a : Aware) : String :=
  let t := DateTime.ofSeconds a.wall
  String.ofList (isoDate t.date ++ 'T' :: (t.timeText [':'] ++ offsetText a.offset))

example : isoformat ⟨1767225600, 32400⟩ = "2026-01-01T09:00:00+09:00" := by decide

end Aware

namespace Zone

/-- How far `local_to_seconds` looks back for an earlier instant. -/
def maxFoldSeconds : ℤ := 86400

/-- `local_to_seconds` with `fold=0`. -/
def localToSeconds (z : Zone) (t : ℤ) : ℤ :=
  let u1 := t - z.offset t
  if z.localtime u1 = t then
    -- one solution; look for an earlier one
    let b := z.offset (u1 - maxFoldSeconds)
    if z.offset t = b then u1
    else if z.localtime (t - b) = t then t - b
    else u1
  else
    let u2 := t - z.offset u1
    if z.localtime u2 = t then u2
    -- the wall clock skips `t`
    else max u1 u2

/-- `astimezone()` of a naive datetime. -/
def astimezone (z : Zone) (naive : ℤ) : Aware :=
  let instant := naive - z.offset (z.localToSeconds naive)
  ⟨instant, z.offset instant⟩

/-- `astimezone()` of a UTC datetime. -/
def ofUtc (z : Zone) (instant : ℤ) : Aware := ⟨instant, z.offset instant⟩

theorem astimezone_range (z : Zone) (naive : ℤ) :
    naive - 86400 < (z.astimezone naive).instant ∧ (z.astimezone naive).instant < naive + 86400 := by
  have hoffset := z.offset_range (z.localToSeconds naive)
  simp only [astimezone]
  omega

end Zone

-- ============================================================================
-- A text determines its datetime
-- ============================================================================

theorem zeroPad_two_append {m n : ℕ} {y y' : List Char} (hm : m < 100) (hn : n < 100)
    (h : zeroPad 2 m ++ y = zeroPad 2 n ++ y') : m = n ∧ y = y' := by
  obtain ⟨hfield, hrest⟩ := List.append_inj h (by
    rw [zeroPad_two_length hm, zeroPad_two_length hn])
  exact ⟨zeroPad_injective hfield, hrest⟩

theorem offsetText_injective {m n : ℤ} (hm : -86400 < m ∧ m < 86400) (hn : -86400 < n ∧ n < 86400)
    (h : Aware.offsetText m = Aware.offsetText n) : m = n := by
  obtain ⟨hsign, hrest⟩ := List.cons.inj h
  obtain ⟨hhour, hrest⟩ := zeroPad_two_append (by omega) (by omega) hrest
  obtain ⟨hminute, hrest⟩ := zeroPad_two_append (by omega) (by omega) (List.cons.inj hrest).2
  have hsecond : m.natAbs % 60 = n.natAbs % 60 := by
    split at hrest <;> split at hrest
    · omega
    · cases hrest
    · cases hrest
    · exact zeroPad_injective (List.cons.inj hrest).2
  have hsame : (m < 0) ↔ (n < 0) := by
    split at hsign <;> split at hsign
    · omega
    · exact absurd hsign (by decide)
    · exact absurd hsign (by decide)
    · omega
  omega

theorem isoDate_injective {d e : Date} (h : Aware.isoDate d = Aware.isoDate e) : d = e := by
  have hd := d.month_range
  have he := e.month_range
  have hd' := d.day_range
  have he' := e.day_range
  obtain ⟨hyear, hmonth, hday⟩ :=
    fields_injective (by omega) (by omega) (by omega) (by omega) h
  exact Date.ext (padInt_injective hyear) hmonth hday

theorem not_mem_isoDate {c : Char} (hdigit : c.isDigit = false) (hminus : c ≠ '-') (d : Date) :
    c ∉ Aware.isoDate d := by
  simp [Aware.isoDate, not_mem_padInt hdigit hminus, not_digit_of_mem hdigit, hminus]

theorem Aware.isoformat_injective {a b : Aware} (ha : -86400 < a.offset ∧ a.offset < 86400)
    (hb : -86400 < b.offset ∧ b.offset < 86400) (h : a.isoformat = b.isoformat) : a = b := by
  obtain ⟨hdate, hrest⟩ := append_separator (not_mem_isoDate rfl (by decide) _)
    (not_mem_isoDate rfl (by decide) _) (String.ofList_injective h)
  obtain ⟨htime, hoffset⟩ := List.append_inj hrest (by rw [timeText_length, timeText_length])
  have hwall := DateTime.ofSeconds_injective
    (DateTime.timeText_injective (isoDate_injective hdate) htime)
  have hsame := offsetText_injective ha hb hoffset
  simp only [Aware.wall] at hwall
  exact Aware.ext (by omega) hsame

end Babycat.Time
