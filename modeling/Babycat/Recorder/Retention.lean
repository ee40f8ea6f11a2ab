/-
  Babycat.Recorder.Retention

  The segments of a clip window and their retention (`finalize.py`, SDD §7.2).

  The window is anchored on the capture time of the last frame the VLM saw, and
  finalization selects and reads its segments only after the judgment, the
  wait for the end of the window and the capacity pruning.  The retention
  counts from the clock of the purge and contains no term for any of these:
  a segment is safe exactly until the second of its name plus the retention
  (`retention_covers_iff`).
-/

import Babycat.Recorder.Segments

namespace Babycat.Recorder

open Babycat.Conc

/-- The anchor of the clip window: the capture time of the last frame, or the judgment time
    when the notification carries none. -/
def clipAnchor (lastFrameTime : Option ℚ) (eventTime : ℚ) : ℚ :=
  match lastFrameTime with
  | some f => if f = 0 then eventTime else f
  | none => eventTime

/-- `wait_seconds`. -/
def waitSeconds (windowEnd now : ℚ) : ℚ := max 0 (windowEnd - now)

/-- The times of one finalization beside a recorder that has been recording without
    interruption since before its window. -/
structure Finalization (span : ClipSpan) (inferTimeout : ℚ) where
  recordingSince : ℚ
  /-- When the last frame that the VLM saw was captured. -/
  frame : ℚ
  /-- The event time: when the VLM had answered. -/
  judged : ℚ
  /-- When the finalization thread looks at the clock. -/
  started : ℚ
  /-- From the end of the wait to the selection: the capacity pruning. -/
  pruning : ℚ
  /-- From the selection until ffmpeg has read fragment `k`. -/
  reading : ℕ → ℚ
  frame_pos : 0 < frame
  recording : recordingSince ≤ frame - span.pre
  frame_judged : frame ≤ judged
  latency : judged ≤ frame + inferTimeout
  judged_started : judged ≤ started
  pruning_nonneg : 0 ≤ pruning
  reading_nonneg : ∀ k, 0 ≤ reading k

namespace Finalization

variable {span : ClipSpan} {inferTimeout : ℚ} (fin : Finalization span inferTimeout)

def windowStart : ℚ := clipAnchor (some fin.frame) fin.judged - span.pre

def windowEnd : ℚ := clipAnchor (some fin.frame) fin.judged + span.post

def selectAt : ℚ := fin.started + waitSeconds fin.windowEnd fin.started + fin.pruning

def readAt (k : ℕ) : ℚ := fin.selectAt + fin.reading k

/-- When fragment `k` was opened; its footage lasts until the next one is. -/
def openedAt (k : ℕ) : ℚ := Recorder.openedAt fin.recordingSince k

/-- The name of fragment `k`. -/
def segment (k : ℕ) : ℤ := segmentStart (fin.openedAt k)

/-- Some footage of fragment `k` lies in the clip window. -/
def Overlaps (k : ℕ) : Prop :=
  fin.openedAt k < fin.windowEnd ∧ fin.windowStart < fin.openedAt (k + 1)

/-- Whatever the recorder and its purges do: every segment of the window is on disk when the
    segments are selected and until ffmpeg has read it. -/
def Covered (leftovers : List ℤ) : Prop :=
  ∀ r, Steps (rollingStep span) free (Rolling.start fin.recordingSince leftovers) r →
    ∀ k, fin.Overlaps k → fin.selectAt ≤ r.now → r.now ≤ fin.readAt k → fin.segment k ∈ r.dir

/-! ## The times of a finalization -/

theorem anchor_eq : clipAnchor (some fin.frame) fin.judged = fin.frame := by
  simp only [clipAnchor]
  rw [if_neg (ne_of_gt fin.frame_pos)]

theorem started_le_selectAt : fin.started ≤ fin.selectAt := by
  have hwait : 0 ≤ waitSeconds fin.windowEnd fin.started := le_max_left _ _
  have hprune := fin.pruning_nonneg
  simp only [selectAt]
  linarith

theorem windowEnd_le_selectAt : fin.windowEnd ≤ fin.selectAt := by
  have hwait : fin.windowEnd - fin.started ≤ waitSeconds fin.windowEnd fin.started :=
    le_max_right _ _
  have hprune := fin.pruning_nonneg
  simp only [selectAt]
  linarith

theorem selectAt_le_readAt (k : ℕ) : fin.selectAt ≤ fin.readAt k := by
  have hread := fin.reading_nonneg k
  simp only [readAt]
  linarith

theorem recordingSince_le_selectAt : fin.recordingSince ≤ fin.selectAt := by
  have hrec := fin.recording
  have hpre := span.pre_nonneg
  have hjudged := fin.frame_judged
  have hstarted := fin.judged_started
  have hselect := fin.started_le_selectAt
  linarith

/-! ## When the retention is enough -/

/-- A segment that is read within its retention is on disk for as long. -/
theorem covered_of_inTime {leftovers : List ℤ}
    (h : ∀ k, fin.Overlaps k → fin.readAt k ≤ fin.segment k + segmentRetention span) :
    fin.Covered leftovers := by
  intro r hr k hover hselect hread
  have hopen : fin.openedAt k < r.now :=
    lt_of_lt_of_le hover.1 (le_trans fin.windowEnd_le_selectAt hselect)
  exact fragment_retained hr hopen (le_trans hread (h k hover))

/-- A segment that is read after its retention can be purged before. -/
theorem inTime_of_covered {leftovers : List ℤ} (h : fin.Covered leftovers) (k : ℕ)
    (hover : fin.Overlaps k) : fin.readAt k ≤ fin.segment k + segmentRetention span := by
  by_contra hlate
  have hafter : fin.recordingSince ≤ fin.readAt k :=
    le_trans fin.recordingSince_le_selectAt (fin.selectAt_le_readAt k)
  obtain ⟨r, hr, hnow, hdir⟩ := reach_purged span fin.recordingSince leftovers hafter
  have hmem := h r hr k hover (by rw [hnow]; exact fin.selectAt_le_readAt k) (le_of_eq hnow)
  have hold := hdir _ hmem
  exact hlate (by linarith)

/-- The segments of the clip window survive every schedule of the purges exactly when each of
    them is read by the second of its name plus the retention. -/
theorem retention_covers_iff (leftovers : List ℤ) :
    fin.Covered leftovers ↔
      ∀ k, fin.Overlaps k → fin.readAt k ≤ fin.segment k + segmentRetention span :=
  ⟨fun h k hover => fin.inTime_of_covered h k hover, fin.covered_of_inTime⟩

/-! ## What that leaves for the inference -/

/-- The fragment that was being recorded when the window starts. -/
def firstFragment : ℕ := ⌊fin.windowStart - fin.recordingSince⌋₊

theorem firstFragment_opened : fin.openedAt fin.firstFragment ≤ fin.windowStart ∧
    fin.windowStart < fin.openedAt (fin.firstFragment + 1) := by
  have hstart : 0 ≤ fin.windowStart - fin.recordingSince := by
    have hrec := fin.recording
    rw [windowStart, fin.anchor_eq]
    linarith
  have hfloor := Nat.floor_le hstart
  have hnext := Nat.lt_floor_add_one (fin.windowStart - fin.recordingSince)
  have hopened : fin.openedAt fin.firstFragment =
      fin.recordingSince + ⌊fin.windowStart - fin.recordingSince⌋₊ := by
    simp [openedAt, Recorder.openedAt, firstFragment, segmentTime]
  have hopened' : fin.openedAt (fin.firstFragment + 1) =
      fin.recordingSince + (⌊fin.windowStart - fin.recordingSince⌋₊ + 1) := by
    simp [openedAt, Recorder.openedAt, firstFragment, segmentTime]
  constructor
  · rw [hopened]; linarith
  · rw [hopened']; linarith

/-- The retention of every segment of the window outlasts the window itself. -/
theorem windowEnd_lt_retention {k : ℕ} (hover : fin.Overlaps k) :
    fin.windowEnd < fin.segment k + segmentRetention span := by
  have hname : fin.openedAt k < fin.segment k + 1 := Int.lt_floor_add_one _
  have hceil : span.pre + span.post + 2 * segmentTime ≤ segmentRetention span := Int.le_ceil _
  have hnext := hover.2
  rw [openedAt, openedAt_succ] at hnext
  simp only [windowStart, windowEnd, segmentTime, openedAt] at *
  linarith

/-- A judgment three segments after the end of the window comes too late for its first
    segment, whatever the configuration. -/
theorem late_judgment_uncovered (leftovers : List ℤ) (hspan : 0 < span.pre + span.post)
    (hlate : fin.windowEnd + 3 * segmentTime ≤ fin.judged) : ¬ fin.Covered leftovers := by
  intro hcov
  obtain ⟨hopened, hnext⟩ := fin.firstFragment_opened
  have hwindow : fin.windowStart < fin.windowEnd := by
    simp only [windowStart, windowEnd]
    linarith
  have hread := fin.inTime_of_covered hcov fin.firstFragment ⟨lt_of_le_of_lt hopened hwindow, hnext⟩
  have hname : (fin.segment fin.firstFragment : ℚ) ≤ fin.openedAt fin.firstFragment :=
    Int.floor_le _
  have hceil : (segmentRetention span : ℚ) < span.pre + span.post + 2 * segmentTime + 1 :=
    Int.ceil_lt_add_one _
  have hselect := fin.selectAt_le_readAt fin.firstFragment
  have hstarted := fin.started_le_selectAt
  have hjudged := fin.judged_started
  simp only [windowStart, windowEnd, segmentTime] at *
  linarith

end Finalization

/-! ## The shipped window -/

def sampleSpan : ClipSpan := ⟨2, 5, by decide, by decide⟩

/-- A frame captured at 100 s is judged after `latency` seconds. -/
def sampleFinalization (latency : ℚ) (h0 : 0 ≤ latency) (h1 : latency ≤ 120) :
    Finalization sampleSpan 120 where
  recordingSince := 90
  frame := 100
  judged := 100 + latency
  started := 100 + latency
  pruning := 0
  reading _ := 0
  frame_pos := by norm_num
  recording := by norm_num [sampleSpan]
  frame_judged := by linarith
  latency := by linarith
  judged_started := le_refl _
  pruning_nonneg := le_refl _
  reading_nonneg _ := le_refl _

/-- With the shipped two and five seconds, an inference of twenty seconds loses footage of its
    clip window. -/
theorem slow_inference_uncovered :
    ¬ ∀ (span : ClipSpan) (inferTimeout : ℚ) (fin : Finalization span inferTimeout)
      (leftovers : List ℤ), fin.Covered leftovers := by
  intro h
  refine (sampleFinalization 20 (by norm_num) (by norm_num)).late_judgment_uncovered [] ?_ ?_
    (h _ _ _ _)
  · norm_num [sampleSpan]
  · norm_num [sampleFinalization, sampleSpan, Finalization.windowEnd, clipAnchor, segmentTime]

end Babycat.Recorder
