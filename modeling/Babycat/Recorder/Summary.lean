/-
  Babycat.Recorder.Summary

  The label counts of a range of days (`/summary`).

  The buckets are steps of an hour or a day from the first midnight on, in the
  offset of that midnight; a row looks for its bucket by the text of its own
  local hour or day.  The two meet while the offset stays what it was.  From an
  offset change on the rows of the range are dropped, and the last bucket ends
  beside the midnight after the range.

  At the ends of the years of a datetime the endpoint raises instead (`Answers`).
-/

import Babycat.Recorder.DateBounds
import Mathlib.Data.List.Nodup
import Mathlib.Tactic.Ring

namespace Babycat.Recorder

open Babycat.Time

-- ============================================================================
-- The endpoint
-- ============================================================================

structure InferenceRow where
  /-- The second of `created_at`. -/
  createdAt : ℤ
  /-- It is that of a datetime. -/
  year : 1 ≤ utcYear createdAt ∧ utcYear createdAt ≤ 9999
  /-- The values of the JSON list, `none` for one that is no string; `none` where the text is no
      JSON. -/
  labels : Option (List (Option String))
  deriving DecidableEq

structure Bucket where
  bucketStart : String
  counts : List (String × ℕ)
  total : ℕ
  deriving DecidableEq

structure SummaryOut where
  bucket : String
  buckets : List Bucket
  deriving DecidableEq

/-- `counts[label] = counts.get(label, 0) + 1` -/
def bump : List (String × ℕ) → String → List (String × ℕ)
  | [], label => [(label, 1)]
  | (key, n) :: counts, label =>
      if key = label then (key, n + 1) :: counts else (key, n) :: bump counts label

/-- `counts.get(label, 0)` -/
def getCount : List (String × ℕ) → String → ℕ
  | [], _ => 0
  | (key, n) :: counts, label => if key = label then n else getCount counts label

/-- The labels that are strings. -/
def InferenceRow.texts (r : InferenceRow) : List String := (r.labels.getD []).filterMap id

def Bucket.add (b : Bucket) (r : InferenceRow) : Bucket :=
  { b with total := b.total + 1, counts := r.texts.foldl bump b.counts }

def bucketStep (bucket : String) : ℤ := if bucket = "hour" then 3600 else 86400

/-- The key of the bucket of a local time. -/
def bucketKey (bucket : String) (at_ : Aware) : String :=
  let start := at_.floor 3600
  (if bucket = "day" then start.floor 86400 else start).isoformat

/-- A value that may be missing, or the error. -/
def orRaise {α : Type} (e : FilterError) : Option α → Except FilterError α
  | none => .error e
  | some a => .ok a

/-- `astimezone()` of a naive time, which gives up outside the years of a datetime. -/
def checkedAstimezone (z : Zone) (naive : ℤ) : Except FilterError Aware := do
  let u ← orRaise .valueError (z.checkedLocalToSeconds naive)
  let instant ← orRaise .overflowError (checkedYear (naive - z.offset u))
  let _ ← orRaise .overflowError (z.checkedLocal instant)
  .ok (z.ofUtc instant)

/-- `+ timedelta(seconds=d)` -/
def checkedAdd (a : Aware) (d : ℤ) : Except FilterError Aware := do
  let _ ← orRaise .overflowError (checkedYear (a.wall + d))
  .ok (a.add d)

/-- `strptime` of the text of `created_at`, which takes a year of four digits, and `astimezone()`. -/
def rowTime (z : Zone) (r : InferenceRow) : Except FilterError Aware :=
  if FourDigits (utcYear r.createdAt) then do
    let _ ← orRaise .overflowError (z.checkedLocal r.createdAt)
    .ok (z.ofUtc r.createdAt)
  else .error .valueError

/-- The rounds of the loop that steps from `lo` while it is before `hi`. -/
def bucketCount (lo hi step : ℤ) : ℕ := ((hi - lo + step - 1) / step).toNat

def emptyBuckets (lo : Aware) (hi step : ℤ) : List Bucket :=
  (List.range (bucketCount lo.instant hi step)).map fun k : ℕ =>
    ⟨(lo.add (k * step)).isoformat, [], 0⟩

/-- The loop; of its steps only the last one can leave the years of a datetime. -/
def makeBuckets (lo : Aware) (hi step : ℤ) : Except FilterError (List Bucket) := do
  let _ ← checkedAdd lo (bucketCount lo.instant hi step * step)
  .ok (emptyBuckets lo hi step)

/-- A row is added to the bucket of its key, if there is one. -/
def countRow (z : Zone) (bucket : String) (buckets : List Bucket) (r : InferenceRow) :
    Except FilterError (List Bucket) := do
  let at_ ← rowTime z r
  .ok (buckets.map fun b => if b.bucketStart = bucketKey bucket at_ then b.add r else b)

/-- The `WHERE` clause. -/
def fetches (low high : String) (r : InferenceRow) : Bool :=
  DateFilter.textLe low (DateFilter.utcText r.createdAt) &&
    DateFilter.textLe (DateFilter.utcText r.createdAt) high

/-- `strptime` of a date of the query; the check of it has written it without leading zeros. -/
def parseDay (value : String) : Except FilterError ℤ :=
  orRaise .valueError (strptimeDate value.toList)

/-- `summary` -/
def summary (z : Zone) (rows : List InferenceRow) (dateFrom dateTo bucket : String) :
    Except FilterError SummaryOut :=
  if bucket ≠ "hour" ∧ bucket ≠ "day" then .error (.http 400 "bucket must be 'hour' or 'day'")
  else do
    let dateFrom ← normalizeDateQuery "date_from" dateFrom
    let dateTo ← normalizeDateQuery "date_to" dateTo
    let fromDay ← parseDay dateFrom
    let lo ← checkedAstimezone z (86400 * fromDay)
    let toDay ← parseDay dateTo
    let midnight ← checkedAstimezone z (86400 * toDay)
    let hi ← checkedAdd midnight 86400
    if hi.instant ≤ lo.instant then .error (.http 400 "date_from must not be after date_to")
    else do
      let low ← DateFilter.localDateBoundUtc z dateFrom false
      let high ← DateFilter.localDateBoundUtc z dateTo true
      let buckets ← makeBuckets lo hi.instant (bucketStep bucket)
      let buckets ← (rows.filter (fetches low high)).foldlM (countRow z bucket) buckets
      .ok ⟨bucket, buckets⟩

-- ============================================================================
-- Conservation
-- ============================================================================

/-- Local midnight of a day. -/
def localMidnight (z : Zone) (day : ℤ) : ℤ := (z.astimezone (86400 * day)).instant

/-- The text of the first or the last second of a day, in UTC. -/
def boundText (z : Zone) (day : ℤ) (last : Bool) : String :=
  DateFilter.utcText (DateFilter.naiveBound day last -
    z.foldOffset (DateFilter.naiveBound day last))

/-- The key of the bucket of a row. -/
def rowKey (z : Zone) (bucket : String) (r : InferenceRow) : String :=
  bucketKey bucket (z.ofUtc r.createdAt)

/-- A row of the time from `low` to before `high`. -/
def within (low high : ℤ) (r : InferenceRow) : Bool :=
  decide (low ≤ r.createdAt) && decide (r.createdAt < high)

/-- The buckets are consecutive steps from midnight to midnight, and each holds the rows of its
    time. -/
structure Conserved (z : Zone) (rows : List InferenceRow) (step fromDay toDay : ℤ)
    (buckets : List Bucket) : Prop where
  starts : ∀ (k : ℕ) b, buckets[k]? = some b → b.bucketStart =
    ((z.astimezone (86400 * fromDay)).add (k * step)).isoformat
  tiles : localMidnight z fromDay + buckets.length * step = localMidnight z (toDay + 1)
  totals : ∀ (k : ℕ) b, buckets[k]? = some b → b.total =
    rows.countP (within (localMidnight z fromDay + k * step)
      (localMidnight z fromDay + (k + 1) * step))
  sum : (buckets.map Bucket.total).sum =
    rows.countP (within (localMidnight z fromDay) (localMidnight z (toDay + 1)))
  labels : ∀ b ∈ buckets, ∀ label, getCount b.counts label ≤ b.total

/-- The last midnight is a number of steps after the first and within the last one of the steps
    that begin before a day after the midnight before it; and all rows between have the
    offset of the first midnight, which is one, and are fetched. -/
structure OneOffset (z : Zone) (rows : List InferenceRow) (step fromDay toDay : ℤ) : Prop where
  whole : (localMidnight z (toDay + 1) - localMidnight z fromDay) % step = 0
  lastDay : localMidnight z toDay + 86400 ≤ localMidnight z (toDay + 1) ∧
    localMidnight z (toDay + 1) < localMidnight z toDay + 86400 + step
  rows : ∀ r ∈ rows, within (localMidnight z fromDay) (localMidnight z (toDay + 1)) r = true →
    z.offset r.createdAt = z.offset (localMidnight z fromDay) ∧
      fetches (boundText z fromDay false) (boundText z toDay true) r = true ∧
      z.localtime (localMidnight z fromDay) % step = 0

/-! ## The years of a datetime -/

def InYears (n : ℤ) : Prop := 1 ≤ utcYear n ∧ utcYear n ≤ 9999

/-- `astimezone()` of a naive time stays within the years. -/
structure Localizes (z : Zone) (naive : ℤ) : Prop where
  converts : z.Converts naive
  wall : InYears (z.localtime (z.astimezone naive).instant)

/-- Nothing on the way to the answer leaves the years of a datetime, and no fetched row has a year
    of fewer digits. -/
structure Answers (z : Zone) (rows : List InferenceRow) (step fromDay toDay : ℤ) : Prop where
  years : FourDigits (yearOf fromDay) ∧ FourDigits (yearOf toDay)
  first : Localizes z (86400 * fromDay)
  last : Localizes z (86400 * toDay)
  nextDay : InYears ((z.astimezone (86400 * toDay)).wall + 86400)
  bound : z.Converts (DateFilter.naiveBound toDay true)
  /-- The step of the loop that reaches the end. -/
  steps : InYears ((z.astimezone (86400 * fromDay)).wall +
    bucketCount (localMidnight z fromDay) (localMidnight z toDay + 86400) step * step)
  rows : ∀ r ∈ rows, fetches (boundText z fromDay false) (boundText z toDay true) r = true →
    FourDigits (utcYear r.createdAt) ∧ InYears (z.localtime r.createdAt)

/-! ## Counting -/

theorem getCount_bump (counts : List (String × ℕ)) (label key : String) :
    getCount (bump counts label) key = getCount counts key + if label = key then 1 else 0 := by
  induction counts with
  | nil => simp [bump, getCount]
  | cons c counts ih =>
      obtain ⟨name, n⟩ := c
      rw [bump]
      by_cases hname : name = label
      · rw [if_pos hname]
        by_cases hkey : name = key
        · simp [getCount, hkey, hname ▸ hkey]
        · simp [getCount, hkey, hname ▸ hkey]
      · rw [if_neg hname, getCount, getCount, ih]
        by_cases hkey : name = key
        · have hother : label ≠ key := fun h => hname (hkey.trans h.symm)
          simp [hkey, hother]
        · simp [hkey]

theorem getCount_foldl (labels : List String) (counts : List (String × ℕ)) (key : String) :
    getCount (labels.foldl bump counts) key = getCount counts key + labels.count key := by
  induction labels generalizing counts with
  | nil => simp
  | cons label labels ih =>
      rw [List.foldl_cons, ih, getCount_bump, List.count_cons]
      by_cases hkey : label = key
      · simp [hkey]
        omega
      · simp [hkey]

/-- A row adds at most one to the count of a label, and one to the total. -/
theorem getCount_add_le {b : Bucket} {r : InferenceRow} (hnodup : r.texts.Nodup)
    (h : ∀ label, getCount b.counts label ≤ b.total) (label : String) :
    getCount (b.add r).counts label ≤ (b.add r).total := by
  have hbefore := h label
  have hone := List.nodup_iff_count_le_one.mp hnodup label
  rw [Bucket.add, getCount_foldl]
  show getCount b.counts label + _ ≤ b.total + 1
  omega

/-- What the rows make of one bucket. -/
def addRows (z : Zone) (bucket : String) (rows : List InferenceRow) (b : Bucket) : Bucket :=
  rows.foldl (fun b r => if b.bucketStart = rowKey z bucket r then b.add r else b) b

theorem orRaise_eq_ok {α : Type} {e : FilterError} {o : Option α} {a : α} :
    orRaise e o = .ok a ↔ o = some a := by
  cases o with
  | none => exact ⟨fun h => (by cases h), fun h => (by cases h)⟩
  | some b => rw [orRaise, Except.ok.injEq, Option.some.injEq]

theorem checkedLocal_eq_some_iff {z : Zone} {n m : ℤ} :
    z.checkedLocal n = some m ↔ InYears (z.localtime n) ∧ m = z.localtime n := by
  rw [Zone.checkedLocal, checkedYear_eq_some, InYears, @eq_comm _ m]

theorem rowTime_eq_ok {z : Zone} {r : InferenceRow} {at_ : Aware} :
    rowTime z r = .ok at_ ↔
      (FourDigits (utcYear r.createdAt) ∧ InYears (z.localtime r.createdAt)) ∧
        at_ = z.ofUtc r.createdAt := by
  rw [rowTime]
  by_cases hyear : FourDigits (utcYear r.createdAt)
  · rw [if_pos hyear, and_iff_right hyear]
    simp only [bind_eq_ok, orRaise_eq_ok, checkedLocal_eq_some_iff, and_assoc, exists_and_left,
      exists_eq_left, Except.ok.injEq]
    rw [@eq_comm _ at_]
  · rw [if_neg hyear]
    exact ⟨fun h => (by cases h), fun h => absurd h.1.1 hyear⟩

/-- The loop over the rows is done when all of them have a local time. -/
theorem foldlM_countRow {z : Zone} {bucket : String} {rows : List InferenceRow}
    {buckets out : List Bucket} :
    rows.foldlM (countRow z bucket) buckets = .ok out ↔
      (∀ r ∈ rows, FourDigits (utcYear r.createdAt) ∧ InYears (z.localtime r.createdAt)) ∧
        out = buckets.map (addRows z bucket rows) := by
  induction rows generalizing buckets with
  | nil =>
      have hsame : buckets.map (addRows z bucket []) = buckets := List.map_id buckets
      have hpure : (pure buckets : Except FilterError (List Bucket)) = .ok buckets := rfl
      rw [hsame, List.foldlM_nil, hpure, Except.ok.injEq]
      exact ⟨fun h => ⟨List.forall_mem_nil _, h.symm⟩, fun h => h.2.symm⟩
  | cons r rows ih =>
      have hone : ∀ next, countRow z bucket buckets r = .ok next ↔
          (FourDigits (utcYear r.createdAt) ∧ InYears (z.localtime r.createdAt)) ∧
            next = buckets.map (addRows z bucket [r]) := by
        intro next
        simp only [countRow, bind_eq_ok, rowTime_eq_ok, and_assoc, exists_and_left, exists_eq_left,
          Except.ok.injEq]
        rw [@eq_comm _ next]
        rfl
      have hcons : buckets.map (addRows z bucket (r :: rows)) =
          (buckets.map (addRows z bucket [r])).map (addRows z bucket rows) := by
        rw [List.map_map]
        rfl
      rw [List.foldlM_cons, bind_eq_ok, List.forall_mem_cons, hcons]
      constructor
      · rintro ⟨next, hnext, h⟩
        obtain ⟨htime, rfl⟩ := (hone next).mp hnext
        obtain ⟨htimes, rfl⟩ := ih.mp h
        exact ⟨⟨htime, htimes⟩, rfl⟩
      · rintro ⟨⟨htime, htimes⟩, rfl⟩
        exact ⟨_, (hone _).mpr ⟨htime, rfl⟩, ih.mpr ⟨htimes, rfl⟩⟩

theorem addRows_spec (z : Zone) (bucket : String) (rows : List InferenceRow) (b : Bucket) :
    (addRows z bucket rows b).bucketStart = b.bucketStart ∧
      (addRows z bucket rows b).total =
        b.total + rows.countP fun r => decide (b.bucketStart = rowKey z bucket r) := by
  induction rows generalizing b with
  | nil => exact ⟨rfl, rfl⟩
  | cons r rows ih =>
      have hcons : addRows z bucket (r :: rows) b =
          addRows z bucket rows (if b.bucketStart = rowKey z bucket r then b.add r else b) := rfl
      rw [hcons, List.countP_cons]
      by_cases hkey : b.bucketStart = rowKey z bucket r
      · obtain ⟨hstart, htotal⟩ := ih (b.add r)
        rw [if_pos hkey]
        refine ⟨hstart, htotal.trans ?_⟩
        rw [if_pos (decide_eq_true hkey)]
        show b.total + 1 + rows.countP (fun r => decide (b.bucketStart = rowKey z bucket r)) = _
        omega
      · obtain ⟨hstart, htotal⟩ := ih b
        rw [if_neg hkey]
        refine ⟨hstart, htotal.trans ?_⟩
        rw [if_neg (by simpa using hkey), Nat.add_zero]

theorem addRows_labels {z : Zone} {bucket : String} {rows : List InferenceRow}
    (hnodup : ∀ r ∈ rows, r.texts.Nodup) {b : Bucket}
    (h : ∀ label, getCount b.counts label ≤ b.total) (label : String) :
    getCount (addRows z bucket rows b).counts label ≤ (addRows z bucket rows b).total := by
  induction rows generalizing b with
  | nil => exact h label
  | cons r rows ih =>
      refine ih (fun r hr => hnodup r (List.mem_cons_of_mem _ hr)) fun label => ?_
      show getCount (if b.bucketStart = rowKey z bucket r then b.add r else b).counts label ≤
        (if b.bucketStart = rowKey z bucket r then b.add r else b).total
      by_cases hkey : b.bucketStart = rowKey z bucket r
      · rw [if_pos hkey]
        exact getCount_add_le (hnodup r List.mem_cons_self) h label
      · rw [if_neg hkey]
        exact h label

/-- Two counts of which one counts no more than the other. -/
theorem countP_eq_iff {α : Type} {p q : α → Bool} (l : List α)
    (h : ∀ a ∈ l, p a = true → q a = true) :
    l.countP p = l.countP q ↔ ∀ a ∈ l, q a = true → p a = true := by
  induction l with
  | nil => simp
  | cons a l ih =>
      have hrest := ih fun b hb => h b (List.mem_cons_of_mem a hb)
      have hle := List.countP_mono_left (p := p) (q := q) fun b hb =>
        h b (List.mem_cons_of_mem a hb)
      have hfirst := h a List.mem_cons_self
      rw [List.countP_cons, List.countP_cons, List.forall_mem_cons, ← hrest]
      cases hp : p a <;> cases hq : q a <;> simp_all
      omega

/-- Counts of two times that follow each other. -/
theorem countP_within_add (rows : List InferenceRow) (low mid high : ℤ) (hlow : low ≤ mid)
    (hhigh : mid ≤ high) :
    rows.countP (within low high) = rows.countP (within low mid) + rows.countP (within mid high) := by
  induction rows with
  | nil => rfl
  | cons r rows ih =>
      rw [List.countP_cons, List.countP_cons, List.countP_cons, ih]
      have hsplit : (if within low high r = true then 1 else 0) =
          (if within low mid r = true then 1 else 0) + if within mid high r = true then 1 else 0 := by
        simp only [within, Bool.and_eq_true, decide_eq_true_eq]
        split <;> split <;> split <;> omega
      omega

/-- Counts of consecutive steps. -/
theorem sum_countP_within (rows : List InferenceRow) (low step : ℤ) (hstep : 0 ≤ step) (n : ℕ) :
    ((List.range n).map fun k : ℕ =>
        rows.countP (within (low + k * step) (low + (k + 1) * step))).sum =
      rows.countP (within low (low + n * step)) := by
  induction n with
  | zero =>
      have hnone : rows.countP (within low (low + ((0 : ℕ) : ℤ) * step)) = 0 := by
        refine List.countP_eq_zero.mpr fun r _ => ?_
        simp [within]
      rw [hnone]
      rfl
  | succ n ih =>
      have hn : (0 : ℤ) ≤ n * step := mul_nonneg (Int.natCast_nonneg n) hstep
      have hnext : ((n + 1 : ℕ) : ℤ) * step = n * step + step := by push_cast; ring
      have hsplit := countP_within_add rows low (low + n * step)
        (low + (n + 1 : ℕ) * step) (by omega) (by omega)
      rw [List.range_succ, List.map_append, List.sum_append, ih, hsplit]
      simp

/-! ## Steps and keys -/

/-- An hour or a day. -/
theorem bucketStep_cases (bucket : String) : bucketStep bucket = 3600 ∨ bucketStep bucket = 86400 := by
  rw [bucketStep]
  split
  · exact .inl rfl
  · exact .inr rfl

theorem tiles_iff {low high step : ℤ} (last : ℤ) (hstep : step = 3600 ∨ step = 86400)
    (hlow : low < high) :
    low + bucketCount low high step * step = last ↔
      (last - low) % step = 0 ∧ high ≤ last ∧ last < high + step := by
  rw [bucketCount]
  rcases hstep with rfl | rfl <;> omega

theorem rowKey_eq (z : Zone) {bucket : String} (h : bucket = "hour" ∨ bucket = "day")
    (r : InferenceRow) :
    rowKey z bucket r = ((z.ofUtc r.createdAt).floor (bucketStep bucket)).isoformat := by
  rcases h with rfl | rfl
  · rfl
  · have hfloor : ((z.ofUtc r.createdAt).floor 3600).floor 86400 =
        (z.ofUtc r.createdAt).floor 86400 := by
      refine Aware.ext ?_ rfl
      simp only [Aware.floor, Aware.wall]
      omega
    exact congrArg Aware.isoformat hfloor

/-- A row finds the bucket of its step when its offset is that of the first bucket and the steps
    of the buckets begin with its units. -/
theorem key_eq_iff (z : Zone) (low step : ℤ) (k : ℕ) (r : InferenceRow) :
    ((z.ofUtc low).add (k * step)).isoformat = ((z.ofUtc r.createdAt).floor step).isoformat ↔
      z.offset r.createdAt = z.offset low ∧
        low + k * step = r.createdAt - z.localtime r.createdAt % step := by
  constructor
  · intro h
    have haware := Aware.isoformat_injective (z.offset_range low) (z.offset_range r.createdAt) h
    obtain ⟨hinstant, hoffset⟩ := (Aware.mk.injEq _ _ _ _).mp haware
    exact ⟨hoffset.symm, hinstant⟩
  · rintro ⟨hoffset, hinstant⟩
    exact congrArg Aware.isoformat (Aware.ext hinstant hoffset.symm)

/-- Such a row is of the time of the bucket. -/
theorem within_of_key {z : Zone} {low step : ℤ} (hstep : step = 3600 ∨ step = 86400) {k : ℕ}
    {r : InferenceRow} (h : low + k * step = r.createdAt - z.localtime r.createdAt % step) :
    within (low + k * step) (low + (k + 1) * step) r = true := by
  rw [within, Bool.and_eq_true, decide_eq_true_eq, decide_eq_true_eq]
  rcases hstep with rfl | rfl <;> omega

/-- And a row of that time finds it exactly when the first bucket begins with a unit. -/
theorem key_iff_of_within {z : Zone} {low step : ℤ} (hstep : step = 3600 ∨ step = 86400) {k : ℕ}
    {r : InferenceRow} (hoffset : z.offset r.createdAt = z.offset low)
    (h : within (low + k * step) (low + (k + 1) * step) r = true) :
    low + k * step = r.createdAt - z.localtime r.createdAt % step ↔
      z.localtime low % step = 0 := by
  rw [within, Bool.and_eq_true, decide_eq_true_eq, decide_eq_true_eq] at h
  simp only [Zone.localtime, hoffset]
  rcases hstep with rfl | rfl <;> omega

/-- The step of a row of the range. -/
theorem exists_step {low step : ℤ} (hstep : step = 3600 ∨ step = 86400) {n : ℕ} {r : InferenceRow}
    (h : within low (low + n * step) r = true) :
    ∃ k < n, within (low + k * step) (low + (k + 1) * step) r = true := by
  rw [within, Bool.and_eq_true, decide_eq_true_eq, decide_eq_true_eq] at h
  refine ⟨((r.createdAt - low) / step).toNat, ?_, ?_⟩
  · rcases hstep with rfl | rfl <;> omega
  · rw [within, Bool.and_eq_true, decide_eq_true_eq, decide_eq_true_eq]
    rcases hstep with rfl | rfl <;> omega

theorem within_range {low step : ℤ} (hstep : step = 3600 ∨ step = 86400) {n k : ℕ} (hk : k < n)
    {r : InferenceRow} (h : within (low + k * step) (low + (k + 1) * step) r = true) :
    within low (low + n * step) r = true := by
  rw [within, Bool.and_eq_true, decide_eq_true_eq, decide_eq_true_eq] at h ⊢
  rcases hstep with rfl | rfl <;> omega

/-! ## The answer -/

/-- What the query fetches. -/
def fetched (z : Zone) (rows : List InferenceRow) (fromDay toDay : ℤ) : List InferenceRow :=
  rows.filter (fetches (boundText z fromDay false) (boundText z toDay true))

theorem astimezone_eq (z : Zone) (naive : ℤ) :
    z.astimezone naive = z.ofUtc (naive - z.foldOffset naive) := rfl

theorem checkedAstimezone_eq_ok {z : Zone} {naive : ℤ} {a : Aware} :
    checkedAstimezone z naive = .ok a ↔ Localizes z naive ∧ a = z.astimezone naive := by
  simp only [checkedAstimezone, bind_eq_ok, orRaise_eq_ok, checkedYear_eq_some,
    checkedLocal_eq_some_iff, Except.ok.injEq]
  constructor
  · rintro ⟨u, hu, _, ⟨hyear, rfl⟩, _, ⟨hwall, -⟩, rfl⟩
    have hfold : naive - z.offset u = naive - z.foldOffset naive := by
      rw [Zone.foldOffset, ← Zone.checkedLocalToSeconds_eq hu]
    rw [hfold] at hyear hwall ⊢
    rw [astimezone_eq]
    exact ⟨⟨⟨by rw [hu]; rfl, hyear⟩, hwall⟩, rfl⟩
  · rintro ⟨⟨⟨hlookup, hyear⟩, hwall⟩, rfl⟩
    obtain ⟨u, hu⟩ := Option.isSome_iff_exists.mp hlookup
    have hfold : naive - z.offset u = naive - z.foldOffset naive := by
      rw [Zone.foldOffset, ← Zone.checkedLocalToSeconds_eq hu]
    rw [astimezone_eq]
    rw [astimezone_eq] at hwall
    exact ⟨u, hu, _, ⟨by rw [hfold]; exact hyear, rfl⟩, _,
      ⟨by rw [hfold]; exact hwall, rfl⟩, by rw [hfold]⟩

theorem checkedAdd_eq_ok {a b : Aware} {d : ℤ} :
    checkedAdd a d = .ok b ↔ InYears (a.wall + d) ∧ b = a.add d := by
  simp only [checkedAdd, bind_eq_ok, orRaise_eq_ok, checkedYear_eq_some, Except.ok.injEq]
  constructor
  · rintro ⟨_, ⟨hyear, -⟩, rfl⟩
    exact ⟨hyear, rfl⟩
  · rintro ⟨hyear, rfl⟩
    exact ⟨_, ⟨hyear, rfl⟩, rfl⟩

theorem makeBuckets_eq_ok {lo : Aware} {hi step : ℤ} {buckets : List Bucket} :
    makeBuckets lo hi step = .ok buckets ↔
      InYears (lo.wall + bucketCount lo.instant hi step * step) ∧
        buckets = emptyBuckets lo hi step := by
  simp only [makeBuckets, bind_eq_ok, checkedAdd_eq_ok, and_assoc, exists_and_left,
    exists_eq_left, Except.ok.injEq]
  rw [@eq_comm _ buckets]

theorem parseDay_eq_ok {q : DateQuery} {day : ℤ} :
    parseDay q.text = .ok day ↔ FourDigits (yearOf q.day) ∧ day = q.day := by
  rw [parseDay, orRaise_eq_ok, DateQuery.text, String.toList_ofList]
  by_cases hyear : FourDigits (yearOf q.day)
  · rw [strptimeDate_text hyear, Option.some.injEq]
    exact ⟨fun h => ⟨hyear, h.symm⟩, fun h => h.2.symm⟩
  · rw [strptimeDate_short (DateQuery.short_of_not hyear)]
    exact ⟨fun h => (by cases h), fun h => absurd h.1 hyear⟩

theorem normalizeDateQuery_eq_ok {name text : String} {q : DateQuery} :
    normalizeDateQuery name q.value = .ok text ↔ text = q.text := by
  rw [normalizeDateQuery, q.parsed, DateQuery.text]
  dsimp only
  rw [Except.ok.injEq]
  exact eq_comm

/-- The range is never empty. -/
theorem localMidnight_lt (z : Zone) {fromDay toDay : ℤ} (h : fromDay ≤ toDay) :
    localMidnight z fromDay < localMidnight z toDay + 86400 := by
  have hfrom := z.astimezone_range (86400 * fromDay)
  have hto := z.astimezone_range (86400 * toDay)
  simp only [localMidnight]
  rcases eq_or_lt_of_le h with rfl | hlt
  · omega
  · omega

/-- The buckets of the answer. -/
def answer (z : Zone) (rows : List InferenceRow) (bucket : String) (fromDay toDay : ℤ) :
    List Bucket :=
  (emptyBuckets (z.astimezone (86400 * fromDay)) (localMidnight z toDay + 86400)
    (bucketStep bucket)).map (addRows z bucket (fetched z rows fromDay toDay))

theorem summary_eq_ok {z : Zone} {rows : List InferenceRow} {dateFrom dateTo : DateQuery}
    {bucket : String} {out : SummaryOut} (hbucket : bucket = "hour" ∨ bucket = "day")
    (horder : dateFrom.day ≤ dateTo.day) :
    summary z rows dateFrom.value dateTo.value bucket = .ok out ↔
      Answers z rows (bucketStep bucket) dateFrom.day dateTo.day ∧
        out = ⟨bucket, answer z rows bucket dateFrom.day dateTo.day⟩ := by
  have hknown : ¬ (bucket ≠ "hour" ∧ bucket ≠ "day") := by
    rcases hbucket with rfl | rfl <;> decide
  have hnaive : DateFilter.naiveBound dateFrom.day false = 86400 * dateFrom.day := by
    simp [DateFilter.naiveBound]
  have hless : ¬ ((z.astimezone (86400 * dateTo.day)).add 86400).instant ≤
      (z.astimezone (86400 * dateFrom.day)).instant :=
    not_le.mpr (localMidnight_lt z horder)
  rw [summary, if_neg hknown]
  simp only [bind_eq_ok, normalizeDateQuery_eq_ok, parseDay_eq_ok, checkedAstimezone_eq_ok,
    checkedAdd_eq_ok, and_assoc, exists_and_left, exists_eq_left, if_neg hless]
  have hfirst : (z.astimezone (86400 * dateFrom.day)).instant = localMidnight z dateFrom.day := rfl
  have hlast : ((z.astimezone (86400 * dateTo.day)).add 86400).instant =
      localMidnight z dateTo.day + 86400 := rfl
  simp only [localDateBoundUtc_eq_ok, makeBuckets_eq_ok, foldlM_countRow, and_assoc,
    exists_and_left, exists_eq_left, hfirst, hlast, Except.ok.injEq]
  rw [@eq_comm _ out]
  constructor
  · rintro ⟨hfromYear, hfirst, htoYear, hlast, hnext, -, -, -, hbound, hsteps, hrows, hout⟩
    refine ⟨⟨⟨hfromYear, htoYear⟩, hfirst, hlast, hnext, hbound, hsteps, fun r hr hfetch => ?_⟩,
      hout⟩
    exact hrows r (List.mem_filter.mpr ⟨hr, hfetch⟩)
  · rintro ⟨h, rfl⟩
    refine ⟨h.years.1, h.first, h.years.2, h.last, h.nextDay, h.years.1,
      by rw [hnaive]; exact h.first.converts, h.years.2, h.bound, h.steps, fun r hr => ?_, rfl⟩
    obtain ⟨hmem, hfetch⟩ := List.mem_filter.mp hr
    exact h.rows r hmem hfetch

/-- Bucket `k` of an answer. -/
theorem bucket_get {z : Zone} {rows : List InferenceRow} {bucket : String} {lo : Aware}
    {hi step : ℤ} {k : ℕ} {b : Bucket}
    (h : ((emptyBuckets lo hi step).map (addRows z bucket rows))[k]? = some b) :
    k < bucketCount lo.instant hi step ∧ b.bucketStart = (lo.add (k * step)).isoformat ∧
      b.total = rows.countP fun r =>
        decide ((lo.add (k * step)).isoformat = rowKey z bucket r) := by
  rw [emptyBuckets, List.getElem?_map, List.getElem?_map, Option.map_map,
    Option.map_eq_some_iff] at h
  obtain ⟨j, hj, rfl⟩ := h
  obtain ⟨hlt, hget⟩ := List.getElem?_eq_some_iff.mp hj
  rw [List.length_range] at hlt
  rw [List.getElem_range] at hget
  subst hget
  obtain ⟨hstart, htotal⟩ := addRows_spec z bucket rows ⟨(lo.add (k * step)).isoformat, [], 0⟩
  refine ⟨hlt, hstart, htotal.trans ?_⟩
  exact Nat.zero_add _

theorem buckets_length (z : Zone) (rows : List InferenceRow) (bucket : String) (lo : Aware)
    (hi step : ℤ) : ((emptyBuckets lo hi step).map (addRows z bucket rows)).length =
      bucketCount lo.instant hi step := by
  rw [List.length_map, emptyBuckets, List.length_map, List.length_range]

/-- Which rows a bucket counts: those of its time whose offset is that of the first bucket, if
    they are fetched and the first bucket begins with a unit. -/
theorem total_eq_iff {z : Zone} {rows : List InferenceRow} {bucket : String} {fromDay toDay : ℤ}
    (hbucket : bucket = "hour" ∨ bucket = "day") (k : ℕ) :
    ((fetched z rows fromDay toDay).countP fun r =>
        decide (((z.astimezone (86400 * fromDay)).add (k * bucketStep bucket)).isoformat =
          rowKey z bucket r)) =
      rows.countP (within (localMidnight z fromDay + k * bucketStep bucket)
        (localMidnight z fromDay + (k + 1) * bucketStep bucket)) ↔
    ∀ r ∈ rows, within (localMidnight z fromDay + k * bucketStep bucket)
        (localMidnight z fromDay + (k + 1) * bucketStep bucket) r = true →
      z.offset r.createdAt = z.offset (localMidnight z fromDay) ∧
        fetches (boundText z fromDay false) (boundText z toDay true) r = true ∧
        z.localtime (localMidnight z fromDay) % bucketStep bucket = 0 := by
  have hstep := bucketStep_cases bucket
  have hkey : ∀ r : InferenceRow,
      ((z.astimezone (86400 * fromDay)).add (k * bucketStep bucket)).isoformat =
          rowKey z bucket r ↔
        z.offset r.createdAt = z.offset (localMidnight z fromDay) ∧
          localMidnight z fromDay + k * bucketStep bucket =
            r.createdAt - z.localtime r.createdAt % bucketStep bucket := fun r => by
    rw [rowKey_eq z hbucket]
    exact key_eq_iff z (localMidnight z fromDay) (bucketStep bucket) k r
  rw [fetched, List.countP_filter, countP_eq_iff]
  · refine forall₂_congr fun r _ => imp_congr_right fun hwithin => ?_
    rw [Bool.and_eq_true, decide_eq_true_eq, hkey]
    constructor
    · rintro ⟨⟨hoffset, hunit⟩, hfetch⟩
      exact ⟨hoffset, hfetch, (key_iff_of_within hstep hoffset hwithin).mp hunit⟩
    · rintro ⟨hoffset, hfetch, hunit⟩
      exact ⟨⟨hoffset, (key_iff_of_within hstep hoffset hwithin).mpr hunit⟩, hfetch⟩
  · intro r _ hr
    rw [Bool.and_eq_true, decide_eq_true_eq, hkey] at hr
    exact within_of_key hstep hr.1.2

/-- The buckets conserve the rows exactly when no offset change gets in the way. -/
theorem conserved_iff {z : Zone} {rows : List InferenceRow} {bucket : String} {fromDay toDay : ℤ}
    (hbucket : bucket = "hour" ∨ bucket = "day") (horder : fromDay ≤ toDay)
    (hlabels : ∀ r ∈ rows, r.texts.Nodup) :
    Conserved z rows (bucketStep bucket) fromDay toDay (answer z rows bucket fromDay toDay) ↔
      OneOffset z rows (bucketStep bucket) fromDay toDay := by
  have hstep := bucketStep_cases bucket
  have htiles := tiles_iff (localMidnight z (toDay + 1)) hstep (localMidnight_lt z horder)
  have hlength : (answer z rows bucket fromDay toDay).length = bucketCount
      (localMidnight z fromDay) (localMidnight z toDay + 86400) (bucketStep bucket) :=
    buckets_length z (fetched z rows fromDay toDay) bucket (z.astimezone (86400 * fromDay))
      (localMidnight z toDay + 86400) (bucketStep bucket)
  constructor
  · intro h
    have htile := h.tiles
    rw [hlength] at htile
    obtain ⟨hwhole, hlast⟩ := htiles.mp htile
    refine ⟨hwhole, hlast, fun r hr hwithin => ?_⟩
    rw [← htile] at hwithin
    obtain ⟨k, hk, hin⟩ := exists_step hstep hwithin
    rw [← hlength] at hk
    have hget := List.getElem?_eq_getElem hk
    obtain ⟨-, -, htotal⟩ := bucket_get hget
    exact (total_eq_iff hbucket k).mp (htotal.symm.trans (h.totals k _ hget)) r hr hin
  · intro h
    have htile := htiles.mpr ⟨h.whole, h.lastDay⟩
    have htotals : ∀ (k : ℕ) b, (answer z rows bucket fromDay toDay)[k]? = some b →
        b.total = rows.countP (within (localMidnight z fromDay + k * bucketStep bucket)
          (localMidnight z fromDay + (k + 1) * bucketStep bucket)) := by
      intro k b hb
      obtain ⟨hk, -, htotal⟩ := bucket_get hb
      refine htotal.trans ((total_eq_iff hbucket k).mpr fun r hr hin => h.rows r hr ?_)
      rw [← htile]
      exact within_range hstep hk hin
    refine ⟨fun k b hb => (bucket_get hb).2.1, by rw [hlength]; exact htile, htotals, ?_, ?_⟩
    · rw [← htile, ← sum_countP_within rows _ _ (by omega)]
      refine congrArg List.sum (List.ext_getElem ?_ fun k hk hk' => ?_)
      · rw [List.length_map, hlength, List.length_map, List.length_range]
      · refine (List.getElem_map _).trans (Eq.trans ?_ (List.getElem_map _).symm)
        rw [List.getElem_range]
        exact htotals k _ (List.getElem?_eq_getElem (by simpa using hk))
    · intro b hb label
      obtain ⟨b', hb', rfl⟩ := List.mem_map.mp hb
      refine addRows_labels (fun r hr => hlabels r (List.mem_filter.mp hr).1) (fun label => ?_)
        label
      obtain ⟨k, -, rfl⟩ := List.mem_map.mp hb'
      exact Nat.le_refl 0

/-- The summary of a range is answered and conserves its rows exactly when nothing leaves the years
    of a datetime and no offset change gets in the way. -/
theorem summary_conserved_iff (z : Zone) (rows : List InferenceRow) (dateFrom dateTo : DateQuery)
    (bucket : String) (hbucket : bucket = "hour" ∨ bucket = "day")
    (horder : dateFrom.day ≤ dateTo.day) (hlabels : ∀ r ∈ rows, r.texts.Nodup) :
    (∃ buckets, summary z rows dateFrom.value dateTo.value bucket = .ok ⟨bucket, buckets⟩ ∧
        Conserved z rows (bucketStep bucket) dateFrom.day dateTo.day buckets) ↔
      Answers z rows (bucketStep bucket) dateFrom.day dateTo.day ∧
        OneOffset z rows (bucketStep bucket) dateFrom.day dateTo.day := by
  simp only [summary_eq_ok hbucket horder, SummaryOut.mk.injEq, true_and]
  rw [← conserved_iff hbucket horder hlabels]
  constructor
  · rintro ⟨_, ⟨hanswers, rfl⟩, hconserved⟩
    exact ⟨hanswers, hconserved⟩
  · rintro ⟨hanswers, hconserved⟩
    exact ⟨_, ⟨hanswers, rfl⟩, hconserved⟩

/-- Summer time ends at three o'clock on 1970-01-02. -/
def summerEnd : Zone := .setBack 90000 7200 3600 Zone.one_hour_back Zone.two_hours_in_range

theorem afternoon_year : 1 ≤ utcYear 136800 ∧ utcYear 136800 ≤ 9999 := by decide

/-- A row of the afternoon of that day. -/
def afternoon : List InferenceRow := [⟨136800, afternoon_year, some [some "cat", some "crib"]⟩]

theorem january_second : strptimeDate "1970-01-02".toList = some 1 := by decide

def januarySecond : DateQuery := ⟨"1970-01-02", 1, january_second⟩

theorem summary_conserved_iff_summerEnd :
    (∃ buckets, summary summerEnd afternoon "1970-01-02" "1970-01-02" "hour" =
        .ok ⟨"hour", buckets⟩ ∧ Conserved summerEnd afternoon (bucketStep "hour") 1 1 buckets) ↔
      Answers summerEnd afternoon (bucketStep "hour") 1 1 ∧
        OneOffset summerEnd afternoon (bucketStep "hour") 1 1 :=
  summary_conserved_iff summerEnd afternoon januarySecond januarySecond "hour" (.inl rfl)
    (le_refl _) (by decide)

/-- The row is in the range and in no bucket, and there are only 24 buckets for 25 hours. -/
theorem afternoon_dropped :
    strptimeDate "1970-01-02".toList = some 1 ∧ (∀ r ∈ afternoon, r.texts.Nodup) ∧
      ∃ buckets, summary summerEnd afternoon "1970-01-02" "1970-01-02" "hour" =
          .ok ⟨"hour", buckets⟩ ∧
        buckets.length = 24 ∧ (buckets.map Bucket.total).sum = 0 ∧
        ¬ Conserved summerEnd afternoon 3600 1 1 buckets := by
  refine ⟨january_second, by decide, ?_⟩
  have hrun : (summary summerEnd afternoon "1970-01-02" "1970-01-02" "hour").map (fun out =>
      (out.bucket, out.buckets.length, (out.buckets.map Bucket.total).sum)) =
        .ok ("hour", 24, 0) := by
    decide
  have hrow : afternoon.countP (within (localMidnight summerEnd 1) (localMidnight summerEnd 2)) =
      1 := by
    decide
  cases hout : summary summerEnd afternoon "1970-01-02" "1970-01-02" "hour" with
  | error e =>
      rw [hout] at hrun
      cases hrun
  | ok out =>
      rw [hout] at hrun
      obtain ⟨name, buckets⟩ := out
      simp only [Except.map, Except.ok.injEq, Prod.mk.injEq] at hrun
      obtain ⟨rfl, hlength, hsum⟩ := hrun
      refine ⟨buckets, rfl, hlength, hsum, fun h => ?_⟩
      have hconserved := h.sum
      rw [hsum] at hconserved
      exact absurd (hconserved.trans hrow) (by decide)

end Babycat.Recorder
