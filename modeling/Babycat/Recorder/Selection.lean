/-
  Babycat.Recorder.Selection

  Segment files by name, and which of them a clip is cut from (`rollover.py`).

  A segment ends where the next one starts; the last one is bounded by the
  retention.  The selection is the block of the directory that overlaps the
  window.  The purge decides by the start of a segment alone, so that it takes
  a long segment away while it still overlaps a window that may be asked for.
-/

import Babycat.Recorder.Segments
import Babycat.Time.MeasuredSpans
import Babycat.Time.Zone
import Mathlib.Data.List.Sort
import Mathlib.Data.String.Basic

namespace Babycat.Recorder

open Babycat.Time

-- ============================================================================
-- Names
-- ============================================================================

/-- `SEGMENT_SUFFIX`. -/
def segmentSuffix : List Char := ['.', 't', 's']

/-- The name `segment_path_for_time` gives in the segment directory. -/
def segmentPathForTime (z : Zone) (startedAt : ℚ) : String :=
  String.ofList
    ((DateTime.ofSeconds (z.localtime ⌊startedAt⌋)).compact ++ segmentSuffix)

def parseSegmentStart (z : Zone) (name : String) : Option ℤ :=
  if segmentSuffix <:+ name.toList then
    let stem := name.toList.take (name.toList.length - segmentSuffix.length)
    (strptime stem).map fun parsed => z.mktime parsed.toSeconds
  else none

structure DirEntry where
  name : String
  isFile : Bool
  deriving DecidableEq

/-- Paths of one directory compare as their names do, by code points. -/
def nameLe (a b : String) : Prop := a.toList ≤ b.toList

instance : DecidableRel nameLe := fun a b => inferInstanceAs (Decidable (a.toList ≤ b.toList))

def listSegments (dir : List DirEntry) : List String :=
  ((dir.filter fun e => decide (segmentSuffix <:+ e.name.toList) && e.isFile).map
    DirEntry.name).insertionSort nameLe

-- ============================================================================
-- Selection and purge
-- ============================================================================

structure Segment where
  name : String
  startedAt : ℤ
  deriving DecidableEq

/-- The segments whose names can be parsed, in name order. -/
def entries (z : Zone) (dir : List DirEntry) : List Segment :=
  (listSegments dir).filterMap fun path => (parseSegmentStart z path).map fun start => ⟨path, start⟩

def Segment.start (s : Segment) : ℚ := s.startedAt

/-- The end of the last segment at `now`. -/
def lastEnd (span : ClipSpan) (now : ℚ) (s : Segment) : ℚ :=
  min now (s.start + segmentRetention span)

def selectSegmentsForWindow (z : Zone) (span : ClipSpan) (now : ℚ) (dir : List DirEntry)
    (windowStart windowEnd : ℚ) : List String :=
  (overlapping Segment.start (lastEnd span now) windowStart windowEnd (entries z dir)).map
    Segment.name

/-- `path.unlink()`. -/
def unlinkPath (dir : List DirEntry) (path : String) : List DirEntry :=
  dir.filter fun e => e.name != path

/-- One round of the loop of `purge_old_segments`; `stuck` are the paths that `unlink` raises for. -/
def purgePath (z : Zone) (stuck : String → Bool) (retainSince : ℚ) (acc : List DirEntry × ℕ)
    (path : String) : List DirEntry × ℕ :=
  match parseSegmentStart z path with
  | none => acc
  | some startedAt =>
      if retainSince ≤ startedAt then acc
      else if stuck path then acc
      else (unlinkPath acc.1 path, acc.2 + 1)

/-- The directory and how many segments were removed. -/
def purgeOldSegments (z : Zone) (stuck : String → Bool) (dir : List DirEntry) (retainSince : ℚ) :
    List DirEntry × ℕ :=
  (listSegments dir).foldl (purgePath z stuck retainSince) (dir, 0)

-- ============================================================================
-- Exact selection
-- ============================================================================

/-- The measured end of segment `i`. -/
def measuredEnd (span : ClipSpan) (now : ℚ) (segments : List Segment) (i : ℕ) : ℚ :=
  match segments[i]? with
  | some s => endOf Segment.start (lastEnd span now) s segments[i + 1]?
  | none => now

theorem measuredEnd_eq (span : ClipSpan) (now : ℚ) {segments : List Segment} {i : ℕ}
    (hi : i < segments.length) :
    measuredEnd span now segments i =
      endOf Segment.start (lastEnd span now) segments[i] segments[i + 1]? := by
  rw [measuredEnd, List.getElem?_eq_getElem hi]

theorem segmentRetention_ge_two (span : ClipSpan) : (2 : ℚ) ≤ segmentRetention span := by
  have hpre := span.pre_nonneg
  have hpost := span.post_nonneg
  have hceil := Int.le_ceil (span.pre + span.post + 2 * segmentTime)
  rw [← segmentRetention] at hceil
  simp only [segmentTime] at hceil
  linarith

/-- No segment ends later than the retention after its start, if none starts later. -/
theorem measuredEnd_le {span : ClipSpan} {now bound : ℚ} {segments : List Segment}
    (h : ∀ s ∈ segments, s.start ≤ bound - segmentRetention span) {i : ℕ}
    (hi : i < segments.length) : measuredEnd span now segments i ≤ bound := by
  rw [measuredEnd_eq span now hi]
  cases hnext : segments[i + 1]? with
  | none =>
      have hstart := h _ (List.getElem_mem hi)
      refine le_trans (min_le_right _ _) ?_
      linarith
  | some next =>
      have hstart := h next (List.mem_of_getElem? hnext)
      have hretention := segmentRetention_ge_two span
      show next.start ≤ bound
      linarith

/-- The selection is the block of the segments that start before the window ends and end after it
    starts, and it is empty when all have outlived the retention. -/
theorem select_exact (z : Zone) (span : ClipSpan) (now : ℚ) (dir : List DirEntry)
    (windowStart windowEnd : ℚ) (hincreasing : Increasing Segment.start (entries z dir)) :
    ∃ block, selectSegmentsForWindow z span now dir windowStart windowEnd =
        block.map Segment.name ∧
      block <:+: entries z dir ∧
      (∀ i, (hi : i < (entries z dir).length) →
        ((entries z dir)[i] ∈ block ↔ (entries z dir)[i].start < windowEnd ∧
          windowStart < measuredEnd span now (entries z dir) i)) ∧
      ((∀ s ∈ entries z dir, s.start ≤ windowStart - segmentRetention span) → block = []) := by
  have hmem : ∀ i, (hi : i < (entries z dir).length) →
      ((entries z dir)[i] ∈ overlapping Segment.start (lastEnd span now) windowStart windowEnd
          (entries z dir) ↔
        (entries z dir)[i].start < windowEnd ∧
          windowStart < measuredEnd span now (entries z dir) i) := by
    intro i hi
    rw [measuredEnd_eq span now hi]
    exact getElem_mem_overlapping hincreasing i hi
  refine ⟨_, rfl, overlapping_infix hincreasing, hmem, fun hold => ?_⟩
  refine List.eq_nil_iff_forall_not_mem.mpr fun s hs => ?_
  obtain ⟨i, hi, rfl⟩ := List.getElem_of_mem ((overlapping_sublist _).mem hs)
  have hends : measuredEnd span now (entries z dir) i ≤ windowStart := measuredEnd_le hold hi
  exact not_lt.mpr hends ((hmem i hi).mp hs).2

def utc : Zone := .fixed 0 (by decide)

theorem five_nonneg : (0 : ℚ) ≤ 5 := by decide

def tenSeconds : ClipSpan := ⟨5, 5, five_nonneg, five_nonneg⟩

/-- Two fragments of a camera that needs four seconds for a keyframe interval. -/
def slowCamera : List DirEntry := [⟨"19700101_000131.ts", true⟩, ⟨"19700101_000127.ts", true⟩]

/-- The window begins in the first fragment. -/
theorem select_exact_slow :
    ∃ block, selectSegmentsForWindow utc tenSeconds 100 slowCamera 90 95 =
        block.map Segment.name ∧
      block <:+: entries utc slowCamera ∧
      (∀ i, (hi : i < (entries utc slowCamera).length) →
        ((entries utc slowCamera)[i] ∈ block ↔ (entries utc slowCamera)[i].start < 95 ∧
          90 < measuredEnd tenSeconds 100 (entries utc slowCamera) i)) ∧
      ((∀ s ∈ entries utc slowCamera, s.start ≤ 90 - segmentRetention tenSeconds) → block = []) :=
  select_exact utc tenSeconds 100 slowCamera 90 95 (by decide)

-- ============================================================================
-- What a purge takes away
-- ============================================================================

/-- Whether a purge removes a path. -/
def removable (z : Zone) (stuck : String → Bool) (retainSince : ℚ) (path : String) : Bool :=
  match parseSegmentStart z path with
  | none => false
  | some startedAt => decide ((startedAt : ℚ) < retainSince) && !stuck path

theorem purgePath_eq (z : Zone) (stuck : String → Bool) (retainSince : ℚ)
    (acc : List DirEntry × ℕ) (path : String) :
    purgePath z stuck retainSince acc path =
      if removable z stuck retainSince path then (unlinkPath acc.1 path, acc.2 + 1) else acc := by
  rw [purgePath, removable]
  cases parseSegmentStart z path with
  | none => rfl
  | some startedAt =>
      show (if retainSince ≤ startedAt then acc else _) = _
      by_cases hfresh : retainSince ≤ startedAt
      · rw [if_pos hfresh, if_neg (by simp [not_lt.mpr hfresh])]
      · rw [if_neg hfresh]
        by_cases hstuck : stuck path = true
        · rw [if_pos hstuck, if_neg (by simp [hstuck])]
        · rw [if_neg hstuck, if_pos (by simp [hstuck, not_le.mp hfresh])]

theorem foldl_purgePath (z : Zone) (stuck : String → Bool) (retainSince : ℚ)
    (paths : List String) (acc : List DirEntry × ℕ) :
    (paths.foldl (purgePath z stuck retainSince) acc).1 =
      acc.1.filter fun e => !(removable z stuck retainSince e.name && paths.contains e.name) := by
  induction paths generalizing acc with
  | nil => simp
  | cons path paths ih =>
      rw [List.foldl_cons, ih, purgePath_eq]
      by_cases hgone : removable z stuck retainSince path = true
      · rw [if_pos hgone, unlinkPath, List.filter_filter]
        refine List.filter_congr fun e _ => ?_
        by_cases he : e.name = path
        · simp [he, hgone]
        · simp [he]
      · rw [if_neg hgone]
        refine List.filter_congr fun e _ => ?_
        by_cases he : e.name = path
        · simp [he, hgone]
        · simp [he]

theorem nameLe_trans {a b c : String} (hab : nameLe a b) (hbc : nameLe b c) : nameLe a c :=
  le_trans hab hbc

instance : IsTrans String nameLe := ⟨fun _ _ _ => nameLe_trans⟩

instance : Std.Total nameLe := ⟨fun a b => le_total a.toList b.toList⟩

theorem nameLe_antisymm {a b : String} (hab : nameLe a b) (hba : nameLe b a) : a = b :=
  String.toList_injective (le_antisymm hab hba)

/-- Two lists of the same names in name order. -/
theorem eq_of_perm_sorted {l l' : List String} (h : l.Perm l') (hl : l.Pairwise nameLe)
    (hl' : l'.Pairwise nameLe) : l = l' :=
  h.eq_of_pairwise (fun _ _ _ _ => nameLe_antisymm) hl hl'

theorem listSegments_filter (p : String → Bool) (dir : List DirEntry) :
    listSegments (dir.filter fun e => p e.name) = (listSegments dir).filter p := by
  refine eq_of_perm_sorted ?_ (List.pairwise_insertionSort _ _)
    ((List.pairwise_insertionSort _ _).sublist List.filter_sublist)
  refine (List.perm_insertionSort _ _).trans ?_
  refine List.Perm.trans ?_ ((List.perm_insertionSort _ _).filter p).symm
  rw [List.filter_map, List.filter_filter, List.filter_filter]
  refine List.Perm.of_eq (congrArg _ (List.filter_congr fun e _ => ?_))
  simp [Bool.and_comm]

theorem filterMap_filter_of {α β : Type} {f : α → Option β} {p : α → Bool} {q : β → Bool}
    (l : List α) (h : ∀ a b, f a = some b → p a = q b) :
    (l.filter p).filterMap f = (l.filterMap f).filter q := by
  rw [List.filterMap_filter, List.filter_filterMap]
  refine List.filterMap_congr fun a _ => ?_
  cases hf : f a with
  | none => simp
  | some b => simp [h a b hf, Option.filter]

/-- A purge keeps what is not old and what cannot be unlinked. -/
def retained (stuck : String → Bool) (retainSince : ℚ) (s : Segment) : Bool :=
  decide (retainSince ≤ s.start) || stuck s.name

theorem entries_purge (z : Zone) (stuck : String → Bool) (dir : List DirEntry) (retainSince : ℚ) :
    entries z (purgeOldSegments z stuck dir retainSince).1 =
      (entries z dir).filter (retained stuck retainSince) := by
  have hdir : listSegments (purgeOldSegments z stuck dir retainSince).1 =
      (listSegments dir).filter fun path => !removable z stuck retainSince path := by
    rw [purgeOldSegments, foldl_purgePath, listSegments_filter (fun path =>
      !(removable z stuck retainSince path && (listSegments dir).contains path))]
    refine List.filter_congr fun path hpath => ?_
    simp [hpath]
  rw [entries, hdir, entries]
  refine filterMap_filter_of _ fun path s hs => ?_
  obtain ⟨startedAt, hparse, rfl⟩ := Option.map_eq_some_iff.mp hs
  simp only [removable, hparse, retained, Segment.start, Bool.not_and, Bool.not_not]
  congr 1
  by_cases hold : (startedAt : ℚ) < retainSince
  · simp [hold, not_le.mpr hold]
  · simp [hold, not_lt.mp hold]

theorem parse_of_mem_entries {z : Zone} {dir : List DirEntry} {s : Segment}
    (h : s ∈ entries z dir) : parseSegmentStart z s.name = some s.startedAt := by
  obtain ⟨path, -, hs⟩ := List.mem_filterMap.mp h
  obtain ⟨startedAt, hparse, rfl⟩ := Option.map_eq_some_iff.mp hs
  exact hparse

/-- A segment is known by its name. -/
theorem names_inj {z : Zone} {dir : List DirEntry} {l l' : List Segment}
    (hl : ∀ s ∈ l, s ∈ entries z dir) (hl' : ∀ s ∈ l', s ∈ entries z dir)
    (h : l.map Segment.name = l'.map Segment.name) : l = l' := by
  induction l generalizing l' with
  | nil =>
      cases l' with
      | nil => rfl
      | cons b l' => cases h
  | cons a l ih =>
      cases l' with
      | nil => cases h
      | cons b l' =>
          obtain ⟨hname, hrest⟩ := List.cons.inj h
          have ha := parse_of_mem_entries (hl a List.mem_cons_self)
          have hb := parse_of_mem_entries (hl' b List.mem_cons_self)
          have hstart : a.startedAt = b.startedAt := by
            rw [hname, hb] at ha
            exact (Option.some.inj ha).symm
          have hab : a = b := by
            cases a
            cases b
            simp_all
          rw [hab, ih (fun s hs => hl s (List.mem_cons_of_mem a hs))
            (fun s hs => hl' s (List.mem_cons_of_mem b hs)) hrest]

/-- The selection before and after a purge, by the segments. -/
theorem select_purge_eq_iff {z : Zone} {span : ClipSpan} {now : ℚ} {dir : List DirEntry}
    {stuck : String → Bool} {retainSince windowStart windowEnd : ℚ} :
    selectSegmentsForWindow z span now (purgeOldSegments z stuck dir retainSince).1
          windowStart windowEnd =
        selectSegmentsForWindow z span now dir windowStart windowEnd ↔
      overlapping Segment.start (lastEnd span now) windowStart windowEnd
          ((entries z dir).filter (retained stuck retainSince)) =
        overlapping Segment.start (lastEnd span now) windowStart windowEnd (entries z dir) := by
  rw [selectSegmentsForWindow, selectSegmentsForWindow, entries_purge]
  have hkept : ∀ s ∈ overlapping Segment.start (lastEnd span now) windowStart windowEnd
      ((entries z dir).filter (retained stuck retainSince)), s ∈ entries z dir := fun s hs =>
    (List.mem_filter.mp ((overlapping_sublist _).mem hs)).1
  have hall : ∀ s ∈ overlapping Segment.start (lastEnd span now) windowStart windowEnd
      (entries z dir), s ∈ entries z dir := fun s hs => (overlapping_sublist _).mem hs
  exact ⟨names_inj hkept hall, congrArg _⟩

theorem lastEnd_mono (span : ClipSpan) (now : ℚ) {s t : Segment} (h : s.start ≤ t.start) :
    lastEnd span now s ≤ lastEnd span now t :=
  min_le_min_left now (by linarith)

/-- A purge leaves the selection for a window that starts two segments after the retention as it
    is, unless it removes a segment that was started before the retention, with none behind it
    started before it as well, and that reaches into the window. -/
theorem purge_select_iff (z : Zone) (span : ClipSpan) (now : ℚ) (dir : List DirEntry)
    (stuck : String → Bool) (windowStart windowEnd : ℚ)
    (hincreasing : Increasing Segment.start (entries z dir))
    (hwindow : now - segmentRetention span + 2 * segmentTime ≤ windowStart)
    (hend : windowStart ≤ windowEnd) :
    selectSegmentsForWindow z span now
          (purgeOldSegments z stuck dir (now - segmentRetention span)).1 windowStart windowEnd =
        selectSegmentsForWindow z span now dir windowStart windowEnd ↔
      ∀ i s, (entries z dir)[i]? = some s → s.start < now - segmentRetention span →
        (∀ next, (entries z dir)[i + 1]? = some next → now - segmentRetention span ≤ next.start) →
        stuck s.name = true ∨ measuredEnd span now (entries z dir) i ≤ windowStart := by
  have hbound : now - segmentRetention span < windowStart := by
    simp only [segmentTime] at hwindow
    linarith
  rw [select_purge_eq_iff]
  generalize hR : now - segmentRetention span = retainSince at *
  rcases exists_boundary hincreasing retainSince with hall | ⟨old, last, fresh, heq, hlast, hfresh⟩
  · -- nothing is old
    refine iff_of_true ?_ fun i s hi hs => ?_
    · rw [List.filter_eq_self.mpr fun s hs => by simp [retained, hall s hs]]
    · exact absurd (hall s (List.mem_of_getElem? hi)) (not_le.mpr hs)
  · rw [heq] at hincreasing ⊢
    have hfreshKept : fresh.filter (retained stuck retainSince) = fresh :=
      List.filter_eq_self.mpr fun s hs => by simp [retained, hfresh s hs]
    have hlastKept : retained stuck retainSince last = true ↔ stuck last.name = true := by
      simp [retained, not_le.mpr hlast]
    have hends : ∀ a ∈ old, lastEnd span now a ≤ lastEnd span now last := fun a ha =>
      lastEnd_mono span now (le_of_lt ((List.pairwise_append.mp hincreasing).2.2 a ha last
        List.mem_cons_self))
    have hsplit : (old ++ last :: fresh).filter (retained stuck retainSince) =
        (old ++ [last]).filter (retained stuck retainSince) ++ fresh := by
      rw [← hfreshKept, ← List.filter_append, hfreshKept, List.append_assoc, List.cons_append,
        List.nil_append]
    have hlastEnd : measuredEnd span now (old ++ last :: fresh) old.length =
        endOf Segment.start (lastEnd span now) last fresh.head? := by
      rw [measuredEnd_eq span now (by simp), List.head?_eq_getElem?]
      congr 1
      · simp
      · rw [List.getElem?_append_right (by omega), show old.length + 1 - old.length = 0 + 1 by omega,
          List.getElem?_cons_succ]
    rw [hsplit, overlapping_drop_old hincreasing (le_of_lt (lt_trans hlast hbound))
      (lt_of_lt_of_le (lt_trans hlast hbound) hend) hends, hlastKept, ← hlastEnd]
    constructor
    · intro h i s hi hs hnext
      obtain ⟨rfl, rfl⟩ := boundary_unique hincreasing hlast hfresh hi hs hnext
      exact h
    · intro h
      refine h old.length last (by simp) hlast fun next hnext => ?_
      rw [List.getElem?_append_right (by omega), show old.length + 1 - old.length = 0 + 1 by omega,
        List.getElem?_cons_succ] at hnext
      exact hfresh next (List.mem_of_getElem? hnext)

theorem purge_select_iff_slow :
    selectSegmentsForWindow utc tenSeconds 100
          (purgeOldSegments utc (fun _ => false) slowCamera
            ((100 : ℚ) - segmentRetention tenSeconds)).1 90 95 =
        selectSegmentsForWindow utc tenSeconds 100 slowCamera 90 95 ↔
      ∀ i s, (entries utc slowCamera)[i]? = some s →
        s.start < (100 : ℚ) - segmentRetention tenSeconds →
        (∀ next, (entries utc slowCamera)[i + 1]? = some next →
          (100 : ℚ) - segmentRetention tenSeconds ≤ next.start) →
        false = true ∨ measuredEnd tenSeconds 100 (entries utc slowCamera) i ≤ 90 :=
  purge_select_iff utc tenSeconds 100 slowCamera (fun _ => false) 90 95 (by decide)
    (by with_unfolding_all decide) (by with_unfolding_all decide)

/-- The fragment of 87 to 91 is gone for the window from 90 on. -/
theorem purge_takes_overlapping :
    Increasing Segment.start (entries utc slowCamera) ∧
      (100 : ℚ) - segmentRetention tenSeconds + 2 * segmentTime ≤ 90 ∧
      selectSegmentsForWindow utc tenSeconds 100
          (purgeOldSegments utc (fun _ => false) slowCamera
            (100 - segmentRetention tenSeconds)).1 90 95 ≠
        selectSegmentsForWindow utc tenSeconds 100 slowCamera 90 95 := by
  with_unfolding_all decide

end Babycat.Recorder
