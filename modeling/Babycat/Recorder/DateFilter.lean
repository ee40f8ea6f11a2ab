/-
  Babycat.Recorder.DateFilter

  The date filters of the clip list and of the event history (`_list_clips`,
  `list_events`).

  `/clips` takes the local date of a clip and compares dates.  `/events`
  converts the first and the last second of the range to UTC and compares the
  texts of the rows with the texts of the two.  The two agree on an event that
  is on the same side of each bound by the clock that the bound was converted
  with and by its own (`DatesAgree`).  A last second that the clock repeats is
  taken for its first pass, and what happens from there to midnight belongs to
  no day.
-/

import Babycat.Recorder.ClipListing
import Babycat.Recorder.HistoryRow
import Babycat.Recorder.DateBounds

namespace Babycat.Recorder

open Babycat.Time

-- ============================================================================
-- The endpoints
-- ============================================================================

namespace DateFilter

def normalizeDateQuery (name : String) : Option String → Except FilterError (Option String)
  | none => .ok none
  | some value =>
      (Recorder.normalizeDateQuery name value).map some

def param (z : Zone) (last : Bool) : Option String → Except FilterError (Option String)
  | none => .ok none
  | some value => (localDateBoundUtc z value last).map some

/-- The `WHERE` clause: `created_at >= ?` and `created_at <= ?`, where they are asked for. -/
def between (low high : Option String) (row : EventRow) : Bool :=
  low.all (fun bound => textLe bound (createdText row.createdAt)) &&
    high.all fun bound => textLe (createdText row.createdAt) bound

/-- `list_events` without a text and without pages; the rows are in the order of their ids. -/
def listEvents (z : Zone) (rows : List EventRow) (dateFrom dateTo : Option String) :
    Except FilterError (List EventRow) := do
  let dateFrom ← normalizeDateQuery "date_from" dateFrom
  let dateTo ← normalizeDateQuery "date_to" dateTo
  let low ← param z false dateFrom
  let high ← param z true dateTo
  .ok (rows.filter (between low high)).reverse

/-- `datetime.fromtimestamp(ts).strftime("%Y-%m-%d")` -/
def clipDate (z : Zone) (timestamp : ℤ) : Except FilterError (List Char) :=
  match z.checkedLocal timestamp with
  | none => .error .valueError
  | some wall => .ok ((Date.ofDays (wall / 86400)).text ['-'])

/-- The clip is not passed over by the loop. -/
def keeps (z : Zone) (dateFrom dateTo : Option String) (clip : ClipOut) :
    Except FilterError Bool :=
  if dateFrom = none ∧ dateTo = none then .ok true
  else (clipDate z clip.timestamp).map fun date =>
    !(dateFrom.any fun bound => decide (date < bound.toList)) &&
      !(dateTo.any fun bound => decide (bound.toList < date))

def loop (test : ClipOut → Except FilterError Bool) : List ClipOut →
    Except FilterError (List ClipOut)
  | [] => .ok []
  | clip :: rest => do
      let kept ← test clip
      let clips ← loop test rest
      .ok (if kept then clip :: clips else clips)

/-- `list_clips` without a text and without pages. -/
def listClips (z : Zone) (v : ClipView) (dateFrom dateTo : Option String) :
    Except FilterError (List ClipOut) := do
  let dateFrom ← normalizeDateQuery "date_from" dateFrom
  let dateTo ← normalizeDateQuery "date_to" dateTo
  loop (keeps z dateFrom dateTo) v.listClips

end DateFilter

-- ============================================================================
-- What the filters are for
-- ============================================================================

/-- The local date. -/
def localDay (z : Zone) (n : ℤ) : ℤ := z.localtime n / 86400

/-- The local date is in the range. -/
def InRange (z : Zone) (dateFrom dateTo : Option DateQuery) (n : ℤ) : Prop :=
  (∀ q ∈ dateFrom, q.day ≤ localDay z n) ∧ ∀ q ∈ dateTo, localDay z n ≤ q.day

def EventMatched (z : Zone) (rows : List EventRow) (dateFrom dateTo : Option DateQuery)
    (row : EventRow) : Prop :=
  ∃ found, DateFilter.listEvents z rows (dateFrom.map DateQuery.value)
    (dateTo.map DateQuery.value) = .ok found ∧ row ∈ found

/-- The loop of the listing keeps the clip. -/
def ClipMatched (z : Zone) (dateFrom dateTo : Option DateQuery) (clip : ClipOut) : Prop :=
  ∃ low high,
    DateFilter.normalizeDateQuery "date_from" (dateFrom.map DateQuery.value) = .ok low ∧
    DateFilter.normalizeDateQuery "date_to" (dateTo.map DateQuery.value) = .ok high ∧
    DateFilter.keeps z low high clip = .ok true

/-- The second of an event and the one that its sidecar keeps, in years of four digits. -/
structure FourDigitYear (z : Zone) (t : ℚ) : Prop where
  utc : FourDigits (utcYear ⌊t⌋)
  localTime : FourDigits (yearOf (localDay z ⌊t⌋))
  sidecar : FourDigits (yearOf (localDay z (truncate t)))

/-! ## The condition -/

/-- Midnight of a day is not after `n` by the clock that midnight is converted with. -/
structure FromBound (z : Zone) (day n : ℤ) : Prop where
  year : FourDigits (yearOf day)
  converts : z.Converts (86400 * day)
  /-- A bound before the year 1000 is a text that begins with `999-`. -/
  side : if FourDigits (utcYear (86400 * day - z.foldOffset (86400 * day)))
    then 86400 * day ≤ n + z.foldOffset (86400 * day)
    else yearReach (utcYear (86400 * day - z.foldOffset (86400 * day))) ≤ utcYear n

/-- The last second of a day is not before `n` by the clock that it is converted with. -/
structure ToBound (z : Zone) (day n : ℤ) : Prop where
  year : FourDigits (yearOf day)
  converts : z.Converts (86400 * day + 86399)
  side : n + z.foldOffset (86400 * day + 86399) ≤ 86400 * day + 86399

def InBounds (z : Zone) (dateFrom dateTo : Option DateQuery) (n : ℤ) : Prop :=
  (∀ q ∈ dateFrom, FromBound z q.day n) ∧ ∀ q ∈ dateTo, ToBound z q.day n

/-- The dates as texts, which are in another order where a date of the range has a short year. -/
def InTexts (z : Zone) (dateFrom dateTo : Option DateQuery) (n : ℤ) : Prop :=
  (∀ q ∈ dateFrom, if FourDigits (yearOf q.day) then q.day ≤ localDay z n
    else yearReach (yearOf q.day) ≤ yearOf (localDay z n)) ∧
  ∀ q ∈ dateTo, if FourDigits (yearOf q.day) then localDay z n ≤ q.day
    else yearOf (localDay z n) < yearReach (yearOf q.day)

/-- The event is on the same side of each bound by the clock of the bound and by its own, or out
    of the range by both; and the date of the sidecar is in the range when that of the event is. -/
structure DatesAgree (z : Zone) (dateFrom dateTo : Option DateQuery) (t : ℚ) : Prop where
  clocks : ((∀ q ∈ dateFrom, FromBound z q.day ⌊t⌋ ↔ q.day ≤ localDay z ⌊t⌋) ∧
      ∀ q ∈ dateTo, ToBound z q.day ⌊t⌋ ↔ localDay z ⌊t⌋ ≤ q.day) ∨
    (¬ InBounds z dateFrom dateTo ⌊t⌋ ∧ ¬ InRange z dateFrom dateTo ⌊t⌋)
  seconds : InTexts z dateFrom dateTo (truncate t) ↔ InRange z dateFrom dateTo ⌊t⌋

-- ============================================================================
-- The bounds as texts
-- ============================================================================

theorem normalizeDateQuery_value (name : String) (q : Option DateQuery) :
    DateFilter.normalizeDateQuery name (q.map DateQuery.value) = .ok (q.map DateQuery.text) := by
  cases q with
  | none => rfl
  | some q =>
      simp only [Option.map_some, DateFilter.normalizeDateQuery, normalizeDateQuery, q.parsed]
      rfl

theorem param_eq_ok {z : Zone} {last : Bool} {q : DateQuery} {bound : Option String} :
    DateFilter.param z last (some q.text) = .ok bound ↔
      FourDigits (yearOf q.day) ∧ z.Converts (DateFilter.naiveBound q.day last) ∧
        bound = some (DateFilter.utcText (DateFilter.naiveBound q.day last -
          z.foldOffset (DateFilter.naiveBound q.day last))) := by
  rw [DateFilter.param]
  constructor
  · intro h
    cases hbound : DateFilter.localDateBoundUtc z q.text last with
    | error e =>
        rw [hbound] at h
        cases h
    | ok text =>
        rw [hbound] at h
        obtain ⟨hyear, hconverts, rfl⟩ := localDateBoundUtc_eq_ok.mp hbound
        exact ⟨hyear, hconverts, (Except.ok.inj h).symm⟩
  · rintro ⟨hyear, hconverts, rfl⟩
    rw [localDateBoundUtc_eq_ok.mpr ⟨hyear, hconverts, rfl⟩]
    rfl

theorem fromBound_iff {z : Zone} {day n : ℤ} (hn : FourDigits (utcYear n)) :
    FromBound z day n ↔ FourDigits (yearOf day) ∧ z.Converts (DateFilter.naiveBound day false) ∧
      DateFilter.textLe (DateFilter.utcText (DateFilter.naiveBound day false -
        z.foldOffset (DateFilter.naiveBound day false))) (DateFilter.utcText n) = true := by
  have hnaive : DateFilter.naiveBound day false = 86400 * day := by simp [DateFilter.naiveBound]
  have hshift : 86400 * day - z.foldOffset (86400 * day) ≤ n ↔
      86400 * day ≤ n + z.foldOffset (86400 * day) := by omega
  rw [hnaive]
  constructor
  · rintro ⟨hyear, hconverts, hside⟩
    refine ⟨hyear, hconverts, ?_⟩
    rw [utcText_le hconverts.year hn, hshift]
    exact hside
  · rintro ⟨hyear, hconverts, htext⟩
    rw [utcText_le hconverts.year hn, hshift] at htext
    exact ⟨hyear, hconverts, htext⟩

/-- The last second of a day is not before its year. -/
theorem lastSecond_year {z : Zone} {day : ℤ} (hyear : FourDigits (yearOf day))
    (hconverts : z.Converts (86400 * day + 86399)) :
    FourDigits (utcYear (86400 * day + 86399 - z.foldOffset (86400 * day + 86399))) := by
  have hoffset := z.offset_range (z.localToSeconds (86400 * day + 86399))
  have hday : day ≤ (86400 * day + 86399 - z.foldOffset (86400 * day + 86399)) / 86400 := by
    rw [Zone.foldOffset]
    omega
  exact ⟨hyear.1.trans (yearOf_mono hday), hconverts.year.2⟩

theorem toBound_iff {z : Zone} {day n : ℤ} (hn : FourDigits (utcYear n)) :
    ToBound z day n ↔ FourDigits (yearOf day) ∧ z.Converts (DateFilter.naiveBound day true) ∧
      DateFilter.textLe (DateFilter.utcText n) (DateFilter.utcText
        (DateFilter.naiveBound day true - z.foldOffset (DateFilter.naiveBound day true))) =
          true := by
  have hnaive : DateFilter.naiveBound day true = 86400 * day + 86399 := rfl
  have hshift : n ≤ 86400 * day + 86399 - z.foldOffset (86400 * day + 86399) ↔
      n + z.foldOffset (86400 * day + 86399) ≤ 86400 * day + 86399 := by omega
  rw [hnaive]
  constructor
  · rintro ⟨hyear, hconverts, hside⟩
    refine ⟨hyear, hconverts, ?_⟩
    rw [utcText_le ⟨by have h := hn.1; omega, hn.2⟩ (lastSecond_year hyear hconverts), if_pos hn,
      hshift]
    exact hside
  · rintro ⟨hyear, hconverts, htext⟩
    rw [utcText_le ⟨by have h := hn.1; omega, hn.2⟩ (lastSecond_year hyear hconverts), if_pos hn,
      hshift] at htext
    exact ⟨hyear, hconverts, htext⟩

-- ============================================================================
-- What the endpoints find
-- ============================================================================

theorem listEvents_eq_ok {z : Zone} {rows found : List EventRow}
    {dateFrom dateTo : Option DateQuery} :
    DateFilter.listEvents z rows (dateFrom.map DateQuery.value) (dateTo.map DateQuery.value) =
        .ok found ↔
      ∃ low high, DateFilter.param z false (dateFrom.map DateQuery.text) = .ok low ∧
        DateFilter.param z true (dateTo.map DateQuery.text) = .ok high ∧
        (rows.filter (DateFilter.between low high)).reverse = found := by
  rw [DateFilter.listEvents, normalizeDateQuery_value, normalizeDateQuery_value]
  constructor
  · intro h
    obtain ⟨_, hfrom, h⟩ := bind_eq_ok.mp h
    cases hfrom
    obtain ⟨_, hto, h⟩ := bind_eq_ok.mp h
    cases hto
    obtain ⟨low, hlow, h⟩ := bind_eq_ok.mp h
    obtain ⟨high, hhigh, h⟩ := bind_eq_ok.mp h
    exact ⟨low, high, hlow, hhigh, Except.ok.inj h⟩
  · rintro ⟨low, high, hlow, hhigh, rfl⟩
    show (DateFilter.param z false _ >>= fun low => _) = _
    rw [hlow]
    show (DateFilter.param z true _ >>= fun high => _) = _
    rw [hhigh]
    rfl

/-- A test of a bound that need not be asked for. -/
theorem param_all_iff {z : Zone} {last : Bool} {q : Option DateQuery} {test : String → Bool} :
    (∃ bound, DateFilter.param z last (q.map DateQuery.text) = .ok bound ∧
      bound.all test = true) ↔
      ∀ p ∈ q, FourDigits (yearOf p.day) ∧ z.Converts (DateFilter.naiveBound p.day last) ∧
        test (DateFilter.utcText (DateFilter.naiveBound p.day last -
          z.foldOffset (DateFilter.naiveBound p.day last))) = true := by
  cases q with
  | none => exact ⟨fun _ p hp => (by cases hp), fun _ => ⟨none, rfl, rfl⟩⟩
  | some p =>
      simp only [Option.map_some, param_eq_ok, Option.mem_some_iff, forall_eq']
      constructor
      · rintro ⟨bound, ⟨hyear, hconverts, rfl⟩, hall⟩
        rw [Option.all_some] at hall
        exact ⟨hyear, hconverts, hall⟩
      · rintro ⟨hyear, hconverts, htest⟩
        refine ⟨_, ⟨hyear, hconverts, rfl⟩, ?_⟩
        rwa [Option.all_some]

theorem inBounds_iff {z : Zone} {dateFrom dateTo : Option DateQuery} {n : ℤ}
    (hn : FourDigits (utcYear n)) :
    InBounds z dateFrom dateTo n ↔
      (∃ low, DateFilter.param z false (dateFrom.map DateQuery.text) = .ok low ∧
        low.all (fun bound => DateFilter.textLe bound (DateFilter.utcText n)) = true) ∧
      ∃ high, DateFilter.param z true (dateTo.map DateQuery.text) = .ok high ∧
        high.all (fun bound => DateFilter.textLe (DateFilter.utcText n) bound) = true := by
  rw [param_all_iff, param_all_iff]
  exact and_congr (forall₂_congr fun _ _ => fromBound_iff hn)
    (forall₂_congr fun _ _ => toBound_iff hn)

/-- `/events` finds the row of an event within the bounds. -/
theorem eventMatched_iff {z : Zone} {rows : List EventRow} {dateFrom dateTo : Option DateQuery}
    {row : EventRow} (hrow : row ∈ rows) (hyear : FourDigits (utcYear ⌊row.createdAt⌋)) :
    EventMatched z rows dateFrom dateTo row ↔ InBounds z dateFrom dateTo ⌊row.createdAt⌋ := by
  rw [inBounds_iff hyear]
  simp only [EventMatched, listEvents_eq_ok]
  constructor
  · rintro ⟨found, ⟨low, high, hlow, hhigh, rfl⟩, hmem⟩
    obtain ⟨-, hbetween⟩ := List.mem_filter.mp (List.mem_reverse.mp hmem)
    obtain ⟨hafter, hbefore⟩ := Bool.and_eq_true_iff.mp hbetween
    exact ⟨⟨low, hlow, hafter⟩, high, hhigh, hbefore⟩
  · rintro ⟨⟨low, hlow, hafter⟩, high, hhigh, hbefore⟩
    refine ⟨_, ⟨low, high, hlow, hhigh, rfl⟩, ?_⟩
    exact List.mem_reverse.mpr (List.mem_filter.mpr
      ⟨hrow, Bool.and_eq_true_iff.mpr ⟨hafter, hbefore⟩⟩)

theorem short_text_order {d e : ℤ} (hd : 1 ≤ yearOf d ∧ yearOf d ≤ 9999)
    (hshort : ¬ FourDigits (yearOf d)) (he : FourDigits (yearOf e)) :
    (¬ (Date.ofDays e).text ['-'] < (Date.ofDays d).text ['-'] ↔ yearReach (yearOf d) ≤ yearOf e) ∧
      (¬ (Date.ofDays d).text ['-'] < (Date.ofDays e).text ['-'] ↔
        yearOf e < yearReach (yearOf d)) := by
  have hshort : ¬ (1000 ≤ yearOf d ∧ yearOf d ≤ 9999) := hshort
  have horder := Date.short_order (d := Date.ofDays d) (e := Date.ofDays e)
    (show 1 ≤ yearOf d ∧ yearOf d < 1000 by omega) he [] []
  rw [List.append_nil, List.append_nil] at horder
  exact text_order_iff horder

theorem not_text_lt {d e : ℤ} (hd : 1 ≤ yearOf d ∧ yearOf d ≤ 9999) (he : FourDigits (yearOf e)) :
    ¬ (Date.ofDays e).text ['-'] < (Date.ofDays d).text ['-'] ↔
      if FourDigits (yearOf d) then d ≤ e else yearReach (yearOf d) ≤ yearOf e := by
  by_cases hyear : FourDigits (yearOf d)
  · rw [if_pos hyear, Date.text_lt_iff he hyear, not_lt]
  · rw [if_neg hyear]
    exact (short_text_order hd hyear he).1

theorem not_lt_text {d e : ℤ} (hd : 1 ≤ yearOf d ∧ yearOf d ≤ 9999) (he : FourDigits (yearOf e)) :
    ¬ (Date.ofDays d).text ['-'] < (Date.ofDays e).text ['-'] ↔
      if FourDigits (yearOf d) then e ≤ d else yearOf e < yearReach (yearOf d) := by
  by_cases hyear : FourDigits (yearOf d)
  · rw [if_pos hyear, Date.text_lt_iff hyear he, not_lt]
  · rw [if_neg hyear]
    exact (short_text_order hd hyear he).2

theorem clipDate_eq {z : Zone} {timestamp : ℤ}
    (h : 1 ≤ yearOf (localDay z timestamp) ∧ yearOf (localDay z timestamp) ≤ 9999) :
    DateFilter.clipDate z timestamp = .ok ((Date.ofDays (localDay z timestamp)).text ['-']) := by
  have hwall : z.checkedLocal timestamp = some (z.localtime timestamp) := by
    rw [Zone.checkedLocal, checkedYear, if_pos]
    rw [utcYear, ← localDay]
    exact h
  unfold DateFilter.clipDate
  rw [hwall, localDay]

theorem not_any_text (P : List Char → Prop) [DecidablePred P] (q : Option DateQuery) :
    (!((q.map DateQuery.text).any fun bound => decide (P bound.toList))) = true ↔
      ∀ p ∈ q, ¬ P ((Date.ofDays p.day).text ['-']) := by
  cases q with
  | none => simp
  | some q => simp [DateQuery.text]

/-- The loop keeps a clip when its date is in the range as a text. -/
theorem keeps_eq {z : Zone} {clip : ClipOut} (dateFrom dateTo : Option DateQuery)
    (h : 1 ≤ yearOf (localDay z clip.timestamp) ∧ yearOf (localDay z clip.timestamp) ≤ 9999) :
    ∃ kept, DateFilter.keeps z (dateFrom.map DateQuery.text) (dateTo.map DateQuery.text) clip =
        .ok kept ∧
      (kept = true ↔
        (∀ q ∈ dateFrom, ¬ (Date.ofDays (localDay z clip.timestamp)).text ['-'] <
          (Date.ofDays q.day).text ['-']) ∧
        ∀ q ∈ dateTo, ¬ (Date.ofDays q.day).text ['-'] <
          (Date.ofDays (localDay z clip.timestamp)).text ['-']) := by
  rw [DateFilter.keeps, clipDate_eq h]
  generalize (Date.ofDays (localDay z clip.timestamp)).text ['-'] = date
  split
  · rename_i hnone
    rw [Option.map_eq_none_iff, Option.map_eq_none_iff] at hnone
    obtain ⟨rfl, rfl⟩ := hnone
    exact ⟨true, rfl, by simp⟩
  · refine ⟨_, rfl, ?_⟩
    rw [Bool.and_eq_true, not_any_text (fun bound => date < bound),
      not_any_text (fun bound => bound < date)]

theorem clipMatched_iff_keeps {z : Zone} {dateFrom dateTo : Option DateQuery} {clip : ClipOut} :
    ClipMatched z dateFrom dateTo clip ↔ DateFilter.keeps z (dateFrom.map DateQuery.text)
      (dateTo.map DateQuery.text) clip = .ok true := by
  simp only [ClipMatched, normalizeDateQuery_value, Except.ok.injEq]
  constructor
  · rintro ⟨_, _, rfl, rfl, h⟩
    exact h
  · intro h
    exact ⟨_, _, rfl, rfl, h⟩

theorem clipMatched_iff {z : Zone} {dateFrom dateTo : Option DateQuery} {clip : ClipOut}
    (hyear : FourDigits (yearOf (localDay z clip.timestamp))) :
    ClipMatched z dateFrom dateTo clip ↔ InTexts z dateFrom dateTo clip.timestamp := by
  obtain ⟨kept, hkept, hiff⟩ := keeps_eq dateFrom dateTo ⟨by have h := hyear.1; omega, hyear.2⟩
  rw [clipMatched_iff_keeps, hkept, Except.ok.injEq, hiff, InTexts]
  refine and_congr (forall₂_congr fun q _ => ?_) (forall₂_congr fun q _ => ?_)
  · exact not_text_lt q.year_range hyear
  · exact not_lt_text q.year_range hyear

/-! ## The whole listing -/

theorem loop_eq {test : ClipOut → Except FilterError Bool} {clips : List ClipOut}
    (h : ∀ clip ∈ clips, ∃ kept, test clip = .ok kept) :
    ∃ found, DateFilter.loop test clips = .ok found ∧
      ∀ clip, clip ∈ found ↔ clip ∈ clips ∧ test clip = .ok true := by
  induction clips with
  | nil => exact ⟨[], rfl, by simp⟩
  | cons first rest ih =>
      obtain ⟨kept, hkept⟩ := h first List.mem_cons_self
      obtain ⟨found, hfound, hmem⟩ := ih fun clip hclip => h clip (List.mem_cons_of_mem first hclip)
      refine ⟨if kept then first :: found else found, ?_, fun clip => ?_⟩
      · simp only [DateFilter.loop, hkept, hfound]
        rfl
      · cases kept with
        | true =>
            rw [if_pos rfl, List.mem_cons, List.mem_cons, hmem]
            constructor
            · rintro (rfl | ⟨hrest, htest⟩)
              · exact ⟨.inl rfl, hkept⟩
              · exact ⟨.inr hrest, htest⟩
            · rintro ⟨rfl | hrest, htest⟩
              · exact .inl rfl
              · exact .inr ⟨hrest, htest⟩
        | false =>
            rw [if_neg Bool.false_ne_true, List.mem_cons, hmem]
            constructor
            · rintro ⟨hrest, htest⟩
              exact ⟨.inr hrest, htest⟩
            · rintro ⟨rfl | hrest, htest⟩
              · rw [hkept] at htest
                cases htest
              · exact ⟨hrest, htest⟩

/-- Where all clips have local years, the listing succeeds and has those that match. -/
theorem listClips_matched {z : Zone} {v : ClipView} (dateFrom dateTo : Option DateQuery)
    (h : ∀ clip ∈ v.listClips,
      1 ≤ yearOf (localDay z clip.timestamp) ∧ yearOf (localDay z clip.timestamp) ≤ 9999) :
    ∃ found, DateFilter.listClips z v (dateFrom.map DateQuery.value)
        (dateTo.map DateQuery.value) = .ok found ∧
      ∀ clip, clip ∈ found ↔ clip ∈ v.listClips ∧ ClipMatched z dateFrom dateTo clip := by
  obtain ⟨found, hfound, hmem⟩ := loop_eq fun clip hclip =>
    (keeps_eq dateFrom dateTo (h clip hclip)).imp fun _ hkept => hkept.1
  refine ⟨found, ?_, fun clip => by rw [hmem, clipMatched_iff_keeps]⟩
  rw [DateFilter.listClips, normalizeDateQuery_value, normalizeDateQuery_value]
  exact hfound

-- ============================================================================
-- Agreement
-- ============================================================================

/-- The parts of two conjunctions agree, or both conjunctions fail. -/
theorem and_iff_and {P P' Q Q' : Prop} :
    (P ∧ Q ↔ P' ∧ Q') ↔ ((P ↔ P') ∧ (Q ↔ Q')) ∨ (¬ (P ∧ Q) ∧ ¬ (P' ∧ Q')) := by
  tauto

theorem datesAgree_iff {z : Zone} {dateFrom dateTo : Option DateQuery} {t : ℚ} :
    DatesAgree z dateFrom dateTo t ↔
      ((∀ q ∈ dateFrom, FromBound z q.day ⌊t⌋ ↔ q.day ≤ localDay z ⌊t⌋) ∧
          (∀ q ∈ dateTo, ToBound z q.day ⌊t⌋ ↔ localDay z ⌊t⌋ ≤ q.day) ∨
        ¬ InBounds z dateFrom dateTo ⌊t⌋ ∧ ¬ InRange z dateFrom dateTo ⌊t⌋) ∧
      (InTexts z dateFrom dateTo (truncate t) ↔ InRange z dateFrom dateTo ⌊t⌋) :=
  ⟨fun ⟨hclocks, hseconds⟩ => ⟨hclocks, hseconds⟩, fun ⟨hclocks, hseconds⟩ => ⟨hclocks, hseconds⟩⟩

/-- A bound that need not be there. -/
theorem forall_mem_option_iff {α : Type} {P Q : α → Prop} {q : Option α} :
    (∀ p ∈ q, P p ↔ Q p) ↔ ((∀ p ∈ q, P p) ↔ ∀ p ∈ q, Q p) := by
  cases q with
  | none => simp
  | some p => simp

/-- The condition is what both filters need. -/
theorem datesAgree_iff_reads {z : Zone} {dateFrom dateTo : Option DateQuery} {t : ℚ} :
    DatesAgree z dateFrom dateTo t ↔
      (InBounds z dateFrom dateTo ⌊t⌋ ↔ InRange z dateFrom dateTo ⌊t⌋) ∧
        (InTexts z dateFrom dateTo (truncate t) ↔ InRange z dateFrom dateTo ⌊t⌋) := by
  rw [datesAgree_iff, forall_mem_option_iff, forall_mem_option_iff]
  exact and_congr_left' and_iff_and.symm

/-! ## Days without a change of the clock -/

/-- The offset stays what it is from three days before a day to three days after it. -/
structure Steady (z : Zone) (day : ℤ) : Prop where
  years : FourDigits (yearOf (day - 1)) ∧ FourDigits (yearOf (day + 1))
  offset : ∀ n, 86400 * day - 259200 ≤ n → n ≤ 86400 * day + 259200 →
    z.offset n = z.offset (86400 * day)

section Steady

variable {z : Zone} {day t n : ℤ}

theorem Steady.year (h : Steady z day) : FourDigits (yearOf day) :=
  ⟨h.years.1.1.trans (yearOf_mono (by omega)), (yearOf_mono (by omega)).trans h.years.2.2⟩

/-- The years of the seconds within a day of one of the day's. -/
theorem Steady.utcYear_range (h : Steady z day) (hday : t / 86400 = day)
    (hn : t - 86400 ≤ n ∧ n ≤ t + 86400) : FourDigits (utcYear n) :=
  ⟨h.years.1.1.trans (yearOf_mono (by omega)), (yearOf_mono (by omega)).trans h.years.2.2⟩

theorem Steady.offset_eq (h : Steady z day) (hday : t / 86400 = day)
    (hn : t - 172800 ≤ n ∧ n ≤ t + 86400) : z.offset n = z.offset (86400 * day) :=
  h.offset n (by omega) (by omega)

theorem Steady.foldOffset_eq (h : Steady z day) (hday : t / 86400 = day) :
    z.foldOffset t = z.offset (86400 * day) := by
  have hrange := z.offset_range (86400 * day)
  have hfirst := h.offset_eq hday (n := t) (by omega)
  have hsecond := h.offset_eq hday (n := t - z.offset (86400 * day)) (by omega)
  have hsolves : z.localtime (t - z.offset (86400 * day)) = t := by
    rw [Zone.localtime, hsecond]
    omega
  have hearlier := h.offset_eq hday (n := t - z.offset (86400 * day) - 86400) (by omega)
  rw [Zone.foldOffset, Zone.localToSeconds, hfirst]
  simp only [Zone.maxFoldSeconds, hsolves, hearlier, if_true, hsecond]

theorem Steady.converts (h : Steady z day) (hday : t / 86400 = day) : z.Converts t := by
  have hrange := z.offset_range (86400 * day)
  have hfirst := h.offset_eq hday (n := t) (by omega)
  have hsecond := h.offset_eq hday (n := t - z.offset (86400 * day)) (by omega)
  have hearlier := h.offset_eq hday (n := t - z.offset (86400 * day) - 86400) (by omega)
  have hlocal : ∀ m, z.offset m = z.offset (86400 * day) →
      t - 86400 ≤ m + z.offset (86400 * day) → m + z.offset (86400 * day) ≤ t + 86400 →
      z.checkedLocal m = some (m + z.offset (86400 * day)) := by
    intro m hm hlow hhigh
    have hyear := h.utcYear_range hday ⟨hlow, hhigh⟩
    rw [Zone.checkedLocal, Zone.localtime, hm, checkedYear, if_pos]
    exact ⟨by have hlow := hyear.1; omega, hyear.2⟩
  constructor
  · rw [Zone.checkedLocalToSeconds, hlocal t hfirst (by omega) (by omega)]
    simp only [Option.bind_eq_bind, Option.bind_some, add_sub_cancel_left]
    rw [hlocal _ hsecond (by omega) (by omega), Zone.maxFoldSeconds,
      hlocal _ hearlier (by omega) (by omega)]
    simp
  · rw [h.foldOffset_eq hday]
    have hyear := h.utcYear_range hday (n := t - z.offset (86400 * day)) (by omega)
    exact ⟨by have hlow := hyear.1; omega, hyear.2⟩

/-- What is more than a day away from a second of the day is on the same side of it anyway. -/
theorem Steady.offset_or (h : Steady z day) (hday : t / 86400 = day) :
    z.offset n = z.offset (86400 * day) ∨ n < t - 172800 ∨ t + 86400 < n := by
  by_cases hn : t - 172800 ≤ n ∧ n ≤ t + 86400
  · exact .inl (h.offset_eq hday hn)
  · omega

theorem Steady.fromBound_iff (h : Steady z day) : FromBound z day n ↔ day ≤ localDay z n := by
  have hday : 86400 * day / 86400 = day := by omega
  have hrange := z.offset_range (86400 * day)
  have hown := z.offset_range n
  have hyear := h.utcYear_range hday (n := 86400 * day - z.offset (86400 * day)) (by omega)
  have hside : 86400 * day ≤ n + z.offset (86400 * day) ↔ day ≤ localDay z n := by
    rw [localDay, Zone.localtime]
    rcases h.offset_or hday (n := n) with hsame | hbefore | hafter <;> omega
  rw [← hside]
  refine ⟨fun hbound => ?_, fun hbefore => ⟨h.year, h.converts hday, ?_⟩⟩
  · have hside := hbound.side
    rwa [h.foldOffset_eq hday, if_pos hyear] at hside
  · rwa [h.foldOffset_eq hday, if_pos hyear]

theorem Steady.toBound_iff (h : Steady z day) : ToBound z day n ↔ localDay z n ≤ day := by
  have hday : (86400 * day + 86399) / 86400 = day := by omega
  have hrange := z.offset_range (86400 * day)
  have hown := z.offset_range n
  have hside : n + z.offset (86400 * day) ≤ 86400 * day + 86399 ↔ localDay z n ≤ day := by
    rw [localDay, Zone.localtime]
    rcases h.offset_or hday (n := n) with hsame | hbefore | hafter <;> omega
  rw [← hside, ← h.foldOffset_eq hday]
  exact ⟨ToBound.side, fun hafter => ⟨h.year, h.converts hday, hafter⟩⟩

end Steady

/-- The filters agree on every event since 1970 where the clock does not change near the bounds,
    whatever it does between them. -/
theorem datesAgree_of_steady {z : Zone} {dateFrom dateTo : Option DateQuery} {t : ℚ}
    (ht : 0 ≤ t) (hfrom : ∀ q ∈ dateFrom, Steady z q.day) (hto : ∀ q ∈ dateTo, Steady z q.day) :
    DatesAgree z dateFrom dateTo t := by
  have hsecond : truncate t = ⌊t⌋ := if_pos ht
  constructor
  · exact .inl ⟨fun q hq => (hfrom q hq).fromBound_iff, fun q hq => (hto q hq).toBound_iff⟩
  · rw [hsecond, InTexts, InRange]
    refine and_congr (forall₂_congr fun q hq => ?_) (forall₂_congr fun q hq => ?_)
    · rw [if_pos (hfrom q hq).year]
    · rw [if_pos (hto q hq).year]

/-- A single day is the range of the events of its date. -/
theorem inRange_single {z : Zone} {q : DateQuery} {n : ℤ} :
    InRange z (some q) (some q) n ↔ q.day = localDay z n := by
  simp only [InRange, Option.mem_some_iff, forall_eq']
  exact ⟨fun ⟨hfrom, hto⟩ => le_antisymm hfrom hto, fun h => ⟨h.le, h.ge⟩⟩

/-- A day more than two days away from an event does not have it. -/
theorem not_inBounds_of_far {z : Zone} {q : DateQuery} {n : ℤ} (hn : FourDigits (utcYear n))
    (hfar : q.day < localDay z n - 2 ∨ localDay z n + 2 < q.day) :
    ¬ InBounds z (some q) (some q) n := by
  rintro ⟨hfrom, hto⟩
  have hlow := hfrom q rfl
  have hhigh := (hto q rfl).side
  have hown := z.offset_range n
  have hfirst := z.offset_range (z.localToSeconds (86400 * q.day))
  have hlast := z.offset_range (z.localToSeconds (86400 * q.day + 86399))
  rw [Zone.foldOffset] at hhigh
  rw [localDay, Zone.localtime] at hfar
  rcases hfar with hbefore | hafter
  · omega
  · have hlater : n ≤ 86400 * q.day - z.foldOffset (86400 * q.day) := by
      rw [Zone.foldOffset]
      omega
    have hside := hlow.side
    rw [if_pos ⟨hn.1.trans (utcYear_mono hlater), hlow.converts.year.2⟩, Zone.foldOffset] at hside
    omega

/-- An event without a change of the clock in the days around it is on one day by both. -/
theorem datesAgree_single {z : Zone} {t : ℚ} (ht : 0 ≤ t) (hn : FourDigits (utcYear ⌊t⌋))
    (hsteady : ∀ day, localDay z ⌊t⌋ - 2 ≤ day → day ≤ localDay z ⌊t⌋ + 2 → Steady z day)
    (q : DateQuery) : DatesAgree z (some q) (some q) t := by
  by_cases hnear : localDay z ⌊t⌋ - 2 ≤ q.day ∧ q.day ≤ localDay z ⌊t⌋ + 2
  · have hday := hsteady q.day hnear.1 hnear.2
    refine datesAgree_of_steady ht ?_ ?_ <;>
    · rintro p ⟨⟩
      exact hday
  · have hrange : ¬ InRange z (some q) (some q) ⌊t⌋ := by
      rw [inRange_single]
      omega
    refine ⟨.inr ⟨not_inBounds_of_far hn (by omega), hrange⟩, fun htexts => ?_,
      fun h => absurd h hrange⟩
    have hsecond : truncate t = ⌊t⌋ := if_pos ht
    rw [hsecond] at htexts
    have hfrom := htexts.1 q rfl
    have hto := htexts.2 q rfl
    split at hfrom
    · rename_i hyear
      rw [if_pos hyear] at hto
      exact inRange_single.mpr (le_antisymm hfrom hto)
    · rename_i hyear
      rw [if_neg hyear] at hto
      omega

/-! ## Exactly when -/

/-- Every day with a year of four digits can be asked for. -/
def DateQuery.ofDay (day : ℤ) (h : FourDigits (yearOf day)) : DateQuery where
  value := String.ofList ((Date.ofDays day).text ['-'])
  day := day
  parsed := by rw [String.toList_ofList, strptimeDate_text h]

/-- The row of an event is found by `/events`, and its clip by `/clips`, exactly for the ranges
    that the local date of the event lies in, if and only if the two filters read the range alike;
    and an event for which they do so for all single days is found on one of them. -/
theorem dateFilters_agree_iff (z : Zone) (dateFrom dateTo : Option DateQuery) (e : EventIn)
    (rows : List EventRow) (row : EventRow) (v : ClipView) (f : ClipFile) (vlmText : String)
    (hrow : row ∈ rows) (htime : row.createdAt = e.eventTime)
    (hmeta : v.readClipMeta f.name = buildTriggerClipMeta e vlmText)
    (hyear : FourDigitYear z e.eventTime) :
    ((EventMatched z rows dateFrom dateTo row ↔ InRange z dateFrom dateTo ⌊e.eventTime⌋) ∧
        (ClipMatched z dateFrom dateTo (v.clipOut f) ↔ InRange z dateFrom dateTo ⌊e.eventTime⌋) ↔
      DatesAgree z dateFrom dateTo e.eventTime) ∧
    ((∀ q : DateQuery, DatesAgree z (some q) (some q) e.eventTime) →
      ∃ day, (∃ q : DateQuery, q.day = day) ∧
        ∀ q : DateQuery, EventMatched z rows (some q) (some q) row ↔ q.day = day) := by
  have hevent : ∀ low high,
      EventMatched z rows low high row ↔ InBounds z low high ⌊e.eventTime⌋ := by
    intro low high
    rw [eventMatched_iff hrow (by rw [htime]; exact hyear.utc), htime]
  have htimestamp : (v.clipOut f).timestamp = truncate e.eventTime := by
    simp [ClipView.clipOut, hmeta, buildTriggerClipMeta]
  have hclip : ClipMatched z dateFrom dateTo (v.clipOut f) ↔
      InTexts z dateFrom dateTo (truncate e.eventTime) := by
    rw [clipMatched_iff (by rw [htimestamp]; exact hyear.sidecar), htimestamp]
  refine ⟨by rw [hevent, hclip, datesAgree_iff_reads], fun hagree => ?_⟩
  refine ⟨localDay z ⌊e.eventTime⌋, ⟨.ofDay _ hyear.localTime, rfl⟩, fun q => ?_⟩
  rw [hevent, (datesAgree_iff_reads.mp (hagree q)).1, inRange_single]

/-! ## The last hour of summer time -/

/-- At 2025-10-26 00:00 the clock goes back to 23:00. -/
def backToSaturday : Zone := .setBack 1761426000 10800 7200 (by decide) (by decide)

/-- 2025-10-25 23:30, for the second time. -/
def secondPass : EventIn := ⟨["person"], 1761427800⟩

def secondPassRow : EventRow := ⟨"person", some "20251025_233000_000.mp4", 1761427800⟩

def secondPassFile : ClipFile := ⟨"20251025_233000_000.mp4", 4096, 1761427810⟩

def secondPassView : ClipView where
  clips := ⟨[secondPassFile], by simp⟩
  readClipMeta _ := buildTriggerClipMeta secondPass "a person"

def saturday : DateQuery := ⟨"2025-10-25", 20386, by decide⟩

def sunday : DateQuery := ⟨"2025-10-26", 20387, by decide⟩

/-- The clip of what happens in the second pass is found on Saturday, its row on no day. -/
theorem dateFilters_second_pass :
    FourDigitYear backToSaturday secondPass.eventTime ∧
      InRange backToSaturday (some saturday) (some saturday) ⌊secondPass.eventTime⌋ ∧
      ¬ EventMatched backToSaturday [secondPassRow] (some saturday) (some saturday)
        secondPassRow ∧
      ¬ EventMatched backToSaturday [secondPassRow] (some sunday) (some sunday) secondPassRow ∧
      ClipMatched backToSaturday (some saturday) (some saturday)
        (secondPassView.clipOut secondPassFile) := by
  have hsecond : ⌊secondPass.eventTime⌋ = 1761427800 := by decide
  have hsidecar : truncate secondPass.eventTime = 1761427800 := by decide
  have hsaturday : DateFilter.listEvents backToSaturday [secondPassRow] (some "2025-10-25")
      (some "2025-10-25") = .ok [] := by decide
  have hsunday : DateFilter.listEvents backToSaturday [secondPassRow] (some "2025-10-26")
      (some "2025-10-26") = .ok [] := by decide
  refine ⟨⟨?_, ?_, ?_⟩, ?_, ?_, ?_, ?_⟩
  · rw [hsecond]
    decide
  · rw [hsecond]
    decide
  · rw [hsidecar]
    decide
  · rw [hsecond, inRange_single]
    decide
  · rintro ⟨found, hfound, hmem⟩
    cases hsaturday.symm.trans hfound
    cases hmem
  · rintro ⟨found, hfound, hmem⟩
    cases hsunday.symm.trans hfound
    cases hmem
  · exact ⟨some "2025-10-25", some "2025-10-25", by decide, by decide,
      by decide⟩

/-- East of Greenwich the clock has not changed for long. -/
def seoul : Zone := .fixed 32400 (by decide)

theorem seoul_steady {day : ℤ} (h : 20000 ≤ day ∧ day ≤ 21000) : Steady seoul day where
  years := by
    have hlow : yearOf 19999 = 2024 := by decide
    have hhigh : yearOf 21001 = 2027 := by decide
    have hbefore := yearOf_mono (show 19999 ≤ day - 1 by omega)
    have hafter := yearOf_mono (show day + 1 ≤ 21001 by omega)
    have hbetween := yearOf_mono (show day - 1 ≤ day + 1 by omega)
    constructor <;> constructor <;> omega
  offset _ _ _ := rfl

/-- In a zone without summer time the same event is found by both, and on one day. -/
theorem dateFilters_agree_iff_seoul :
    EventMatched seoul [secondPassRow] (some saturday) (some sunday) secondPassRow ∧
      ClipMatched seoul (some saturday) (some sunday) (secondPassView.clipOut secondPassFile) ∧
      ∃ day, (∃ q : DateQuery, q.day = day) ∧
        ∀ q : DateQuery, EventMatched seoul [secondPassRow] (some q) (some q) secondPassRow ↔
          q.day = day := by
  have hsecond : ⌊secondPass.eventTime⌋ = 1761427800 := by decide
  have hsidecar : truncate secondPass.eventTime = 1761427800 := by decide
  have hpositive : 0 ≤ secondPass.eventTime := by decide
  have hday : localDay seoul 1761427800 = 20387 := by decide
  have hyear : FourDigitYear seoul secondPass.eventTime := by
    constructor
    · rw [hsecond]
      decide
    · rw [hsecond]
      decide
    · rw [hsidecar]
      decide
  have hrange : InRange seoul (some saturday) (some sunday) ⌊secondPass.eventTime⌋ := by
    rw [hsecond]
    constructor
    · rintro q ⟨⟩
      rw [hday]
      decide
    · rintro q ⟨⟩
      rw [hday]
      decide
  have hagree : DatesAgree seoul (some saturday) (some sunday) secondPass.eventTime := by
    refine datesAgree_of_steady hpositive ?_ ?_
    · rintro q ⟨⟩
      exact seoul_steady (by decide)
    · rintro q ⟨⟩
      exact seoul_steady (by decide)
  have hresult := dateFilters_agree_iff seoul (some saturday) (some sunday) secondPass
    [secondPassRow] secondPassRow secondPassView secondPassFile "a person" List.mem_cons_self rfl
    rfl hyear
  obtain ⟨hevents, hclips⟩ := hresult.1.mpr hagree
  refine ⟨hevents.mpr hrange, hclips.mpr hrange,
    hresult.2 (datesAgree_single hpositive hyear.utc ?_)⟩
  rw [hsecond, hday]
  exact fun day hlow hhigh => seoul_steady (by omega)

end Babycat.Recorder
