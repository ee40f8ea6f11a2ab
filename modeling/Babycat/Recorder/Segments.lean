/-
  Babycat.Recorder.Segments

  The rolling segment buffer (`segments.py`, `rollover.py`).

  A running recorder opens a fragment every `SEGMENT_TIME` and names it by the
  second of its open time; next to it the watch loop purges what is older than
  the retention.  A purge reads the clock, lists the directory and unlinks file
  by file, and time passes and fragments open in between.
-/

import Babycat.Conc.Steps
import Mathlib.Algebra.Order.Field.Rat
import Mathlib.Data.Rat.Floor
import Mathlib.Tactic.Linarith

namespace Babycat.Recorder

open Babycat.Conc

/-- `TRIGGER_PRE_EVENT_SEC` and `TRIGGER_POST_EVENT_SEC`. -/
structure ClipSpan where
  pre : ℚ
  post : ℚ
  pre_nonneg : 0 ≤ pre
  post_nonneg : 0 ≤ post

/-- `SEGMENT_TIME`. -/
def segmentTime : ℚ := 1

/-- `SEGMENT_RETENTION`. -/
def segmentRetention (span : ClipSpan) : ℤ := ⌈span.pre + span.post + 2 * segmentTime⌉

/-- What `parse_segment_start` makes of the name `segment_path_for_time` gave: the second in
    which the fragment was opened, outside of a repeated hour (`parse_eq_segmentStart`).  A segment
    file is known by it. -/
def segmentStart (openedAt : ℚ) : ℤ := ⌊openedAt⌋

/-- Where the watch loop stands in `purge_old_segments`. -/
inductive PurgePc
  | watch
  | list (retainSince : ℚ)
  | unlink (retainSince : ℚ) (paths : List ℤ)
  deriving DecidableEq

structure Rolling where
  now : ℚ
  /-- The segment directory, by name. -/
  dir : List ℤ
  /-- When splitmuxsink opens the next fragment. -/
  nextOpen : ℚ
  purge : PurgePc
  deriving DecidableEq

inductive RollingEvent
  | tick (d : ℚ)
  | openFragment
  | purge
  /-- The unlink of the next old segment fails and leaves it. -/
  | unlinkError
  deriving DecidableEq

/-- `path.unlink()`. -/
def unlinkSegment (dir : List ℤ) (start : ℤ) : List ℤ := dir.filter (· != start)

def purgeNext (span : ClipSpan) (r : Rolling) (failed : Bool) : Rolling :=
  match r.purge with
  | .watch => { r with purge := .list (r.now - segmentRetention span) }
  | .list since => { r with purge := .unlink since r.dir }
  | .unlink _ [] => { r with purge := .watch }
  | .unlink since (start :: paths) =>
      if since ≤ start ∨ failed then { r with purge := .unlink since paths }
      else { r with dir := unlinkSegment r.dir start, purge := .unlink since paths }

/-- One step of an uninterrupted recorder: the clock does not pass the next fragment. -/
def rollingStep (span : ClipSpan) (r : Rolling) : RollingEvent → Option Rolling
  -- the next fragment is opened on time
  | .tick d => if 0 ≤ d ∧ r.now + d ≤ r.nextOpen then some { r with now := r.now + d } else none
  | .openFragment =>
      if r.now = r.nextOpen then
        some { r with
          dir := unlinkSegment r.dir (segmentStart r.now) ++ [segmentStart r.now]
          nextOpen := r.now + segmentTime }
      else none
  | .purge => some (purgeNext span r false)
  | .unlinkError => some (purgeNext span r true)

/-- A recorder that starts over the leftovers of an earlier one. -/
def Rolling.start (since : ℚ) (leftovers : List ℤ) : Rolling := ⟨since, leftovers, since, .watch⟩

/-- When fragment `k` of a recorder that records since `since` is opened. -/
def openedAt (since : ℚ) (k : ℕ) : ℚ := since + k * segmentTime

@[simp] theorem mem_unlinkSegment {dir : List ℤ} {start s : ℤ} :
    s ∈ unlinkSegment dir start ↔ s ∈ dir ∧ s ≠ start := by
  simp [unlinkSegment]

theorem openedAt_succ (since : ℚ) (k : ℕ) :
    openedAt since (k + 1) = openedAt since k + segmentTime := by
  simp only [openedAt, Nat.cast_succ]
  ring

theorem openedAt_lt_iff (since : ℚ) (j k : ℕ) : openedAt since j < openedAt since k ↔ j < k := by
  simp [openedAt, segmentTime]

/-! ## What a purge removes -/

section Purge

variable {span : ClipSpan} {r r' : Rolling}

/-- A purge in progress works with a clock reading of the past. -/
def PurgePc.pastOf (span : ClipSpan) (now : ℚ) : PurgePc → Prop
  | .watch => True
  | .list since | .unlink since _ => since ≤ now - segmentRetention span

/-- A purging step leaves the clock and the recorder alone and removes only what has outlived
    the retention. -/
theorem purgeNext_spec (hpast : r.purge.pastOf span r.now) (failed : Bool) :
    (purgeNext span r failed).now = r.now ∧
    (purgeNext span r failed).nextOpen = r.nextOpen ∧
    (purgeNext span r failed).purge.pastOf span r.now ∧
    ∀ s ∈ r.dir, r.now ≤ s + segmentRetention span → s ∈ (purgeNext span r failed).dir := by
  simp only [purgeNext]
  split
  · exact ⟨rfl, rfl, le_refl _, fun s hs _ => hs⟩
  · rename_i since hp
    rw [hp] at hpast
    exact ⟨rfl, rfl, hpast, fun s hs _ => hs⟩
  · exact ⟨rfl, rfl, trivial, fun s hs _ => hs⟩
  · rename_i since start paths hp
    rw [hp] at hpast
    have hbound : since ≤ r.now - segmentRetention span := hpast
    split
    · exact ⟨rfl, rfl, hpast, fun s hs _ => hs⟩
    · rename_i hold
      refine ⟨rfl, rfl, hpast, fun s hs hnow => mem_unlinkSegment.mpr ⟨hs, ?_⟩⟩
      rintro rfl
      have hlt : (s : ℚ) < since := by
        by_contra hge
        exact hold (.inl (not_lt.mp hge))
      linarith

end Purge

/-! ## What is on disk -/

/-- Every fragment opened so far is on disk as long as the retention lasts. -/
structure RetainInv (span : ClipSpan) (since : ℚ) (r : Rolling) : Prop where
  nextOpen : ∃ n : ℕ, r.nextOpen = openedAt since n ∧ ∀ k < n,
    r.now ≤ segmentStart (openedAt since k) + segmentRetention span →
      segmentStart (openedAt since k) ∈ r.dir
  clock : r.now ≤ r.nextOpen
  purge : r.purge.pastOf span r.now

theorem PurgePc.pastOf_mono {span : ClipSpan} {now now' : ℚ} {pc : PurgePc} (h : now ≤ now')
    (hp : pc.pastOf span now) : pc.pastOf span now' := by
  cases pc with
  | watch => trivial
  | list since | unlink since paths =>
      have hbound : since ≤ now - segmentRetention span := hp
      show since ≤ now' - segmentRetention span
      linarith

theorem retainInv_start (span : ClipSpan) (since : ℚ) (leftovers : List ℤ) :
    RetainInv span since (Rolling.start since leftovers) where
  nextOpen := ⟨0, by simp [Rolling.start, openedAt], fun k hk => absurd hk (Nat.not_lt_zero k)⟩
  clock := le_refl _
  purge := trivial

theorem retainInv_step (span : ClipSpan) (since : ℚ) (r : Rolling) (e : RollingEvent)
    (r' : Rolling) (h : RetainInv span since r) (_ : free r e)
    (hs : rollingStep span r e = some r') : RetainInv span since r' := by
  obtain ⟨n, hn, hdir⟩ := h.nextOpen
  cases e with
  | tick d =>
      simp only [rollingStep] at hs
      split at hs
      · rename_i hd
        cases hs
        have hlater : r.now ≤ r.now + d := by linarith [hd.1]
        refine ⟨⟨n, hn, fun k hk hnow => hdir k hk (le_trans hlater hnow)⟩, hd.2, ?_⟩
        exact PurgePc.pastOf_mono hlater h.purge
      · cases hs
  | openFragment =>
      simp only [rollingStep] at hs
      split at hs
      · rename_i hnow
        cases hs
        refine ⟨⟨n + 1, ?_, fun k hk hle => ?_⟩, ?_, h.purge⟩
        · show r.now + segmentTime = openedAt since (n + 1)
          rw [hnow, hn, openedAt_succ]
        · by_cases hkn : segmentStart (openedAt since k) = segmentStart r.now
          · rw [hkn]
            exact List.mem_append_right _ (List.mem_singleton_self _)
          · have hlt : k < n := by
              rcases Nat.lt_succ_iff_lt_or_eq.mp hk with hlt | rfl
              · exact hlt
              · exact absurd (by rw [hnow, hn]) hkn
            exact List.mem_append_left _ (mem_unlinkSegment.mpr ⟨hdir k hlt hle, hkn⟩)
        · show r.now ≤ r.now + segmentTime
          simp [segmentTime]
      · cases hs
  | purge | unlinkError =>
      cases hs
      obtain ⟨hnow, hopen, hpast, hkeep⟩ := purgeNext_spec h.purge _
      refine ⟨⟨n, hopen.trans hn, fun k hk hle => ?_⟩, ?_, ?_⟩
      · rw [hnow] at hle
        exact hkeep _ (hdir k hk hle) hle
      · rw [hnow, hopen]; exact h.clock
      · rw [hnow]; exact hpast

/-- A fragment is on disk from the moment after its open to the end of its retention. -/
theorem fragment_retained {span : ClipSpan} {since : ℚ} {leftovers : List ℤ} {r : Rolling}
    (h : Steps (rollingStep span) free (Rolling.start since leftovers) r) {k : ℕ}
    (hopen : openedAt since k < r.now)
    (hnow : r.now ≤ segmentStart (openedAt since k) + segmentRetention span) :
    segmentStart (openedAt since k) ∈ r.dir := by
  have hinv := h.invariant (retainInv_step span since) (retainInv_start span since leftovers)
  obtain ⟨n, hn, hdir⟩ := hinv.nextOpen
  refine hdir k ?_ hnow
  have hlt : openedAt since k < openedAt since n := by
    rw [← hn]
    exact lt_of_lt_of_le hopen hinv.clock
  exact (openedAt_lt_iff since k n).mp hlt

/-! ## Every purge schedule is possible -/

section Schedules

variable (span : ClipSpan) (since : ℚ) (leftovers : List ℤ)

/-- A fragment opens and time passes. -/
theorem open_then_tick {r : Rolling} (hopen : r.now = r.nextOpen) {d : ℚ} (h0 : 0 ≤ d)
    (h1 : d ≤ segmentTime) :
    ∃ r', Steps (rollingStep span) free r r' ∧ r'.now = r.now + d ∧
      r'.nextOpen = r.now + segmentTime ∧ r'.purge = r.purge := by
  have hfrag : rollingStep span r .openFragment = some { r with
      dir := unlinkSegment r.dir (segmentStart r.now) ++ [segmentStart r.now]
      nextOpen := r.now + segmentTime } := by
    simp only [rollingStep]
    rw [if_pos hopen]
  have htick : rollingStep span { r with
      dir := unlinkSegment r.dir (segmentStart r.now) ++ [segmentStart r.now]
      nextOpen := r.now + segmentTime } (.tick d) = some { r with
      now := r.now + d
      dir := unlinkSegment r.dir (segmentStart r.now) ++ [segmentStart r.now]
      nextOpen := r.now + segmentTime } := by
    have hpass : r.now + d ≤ r.now + segmentTime := by linarith
    simp only [rollingStep]
    rw [if_pos ⟨h0, hpass⟩]
  exact ⟨_, (Steps.single trivial hfrag).trans (Steps.single trivial htick), rfl, rfl, rfl⟩

/-- The recorder reaches the open of every fragment. -/
theorem reach_open (n : ℕ) :
    ∃ r, Steps (rollingStep span) free (Rolling.start since leftovers) r ∧
      r.now = openedAt since n ∧ r.nextOpen = openedAt since n ∧ r.purge = .watch := by
  induction n with
  | zero => exact ⟨_, Steps.refl, by simp [Rolling.start, openedAt],
      by simp [Rolling.start, openedAt], rfl⟩
  | succ n ih =>
      obtain ⟨r, hr, hnow, hopen, hp⟩ := ih
      obtain ⟨r', hr', hnow', hopen', hp'⟩ :=
        open_then_tick span (hnow.trans hopen.symm) (by simp [segmentTime]) le_rfl
      refine ⟨r', hr.trans hr', ?_, ?_, hp'.trans hp⟩
      · rw [openedAt_succ, ← hnow, hnow']
      · rw [openedAt_succ, ← hnow, hopen']

/-- The recorder reaches every time. -/
theorem reach_time {time : ℚ} (h : since ≤ time) :
    ∃ r, Steps (rollingStep span) free (Rolling.start since leftovers) r ∧ r.now = time ∧
      r.purge = .watch := by
  obtain ⟨r, hr, hnow, hopen, hp⟩ := reach_open span since leftovers ⌊time - since⌋₊
  have hlow : 0 ≤ time - r.now := by
    have hfloor := Nat.floor_le (sub_nonneg.mpr h)
    rw [hnow, openedAt, segmentTime]
    linarith
  have hhigh : time - r.now ≤ segmentTime := by
    have hfloor := Nat.lt_floor_add_one (time - since)
    rw [hnow, openedAt, segmentTime]
    linarith
  obtain ⟨r', hr', hnow', -, hp'⟩ :=
    open_then_tick span (hnow.trans hopen.symm) hlow hhigh
  refine ⟨r', hr.trans hr', ?_, hp'.trans hp⟩
  rw [hnow']
  ring

/-- The unlinking loop removes every old segment of its list. -/
theorem unlink_all {retainSince : ℚ} (paths : List ℤ) (r : Rolling)
    (hp : r.purge = .unlink retainSince paths) :
    ∃ r', Steps (rollingStep span) free r r' ∧ r'.now = r.now ∧
      ∀ s ∈ r'.dir, s ∈ r.dir ∧ (s ∈ paths → retainSince ≤ s) := by
  induction paths generalizing r with
  | nil => exact ⟨r, Steps.refl, rfl, fun s hs => ⟨hs, fun h => absurd h List.not_mem_nil⟩⟩
  | cons start paths ih =>
      by_cases hold : retainSince ≤ start
      · have hstep : rollingStep span r .purge =
            some { r with purge := .unlink retainSince paths } := by
          simp only [rollingStep, purgeNext, hp]
          rw [if_pos (.inl hold)]
        obtain ⟨r', hr', hnow, hdir⟩ := ih { r with purge := .unlink retainSince paths } rfl
        refine ⟨r', (Steps.single trivial hstep).trans hr', hnow, fun s hs => ?_⟩
        refine ⟨(hdir s hs).1, fun hmem => ?_⟩
        rcases List.mem_cons.mp hmem with rfl | hmem
        · exact hold
        · exact (hdir s hs).2 hmem
      · have hstep : rollingStep span r .purge = some { r with
            dir := unlinkSegment r.dir start, purge := .unlink retainSince paths } := by
          simp only [rollingStep, purgeNext, hp]
          rw [if_neg (by simp [hold])]
        obtain ⟨r', hr', hnow, hdir⟩ := ih { r with
          dir := unlinkSegment r.dir start, purge := .unlink retainSince paths } rfl
        refine ⟨r', (Steps.single trivial hstep).trans hr', hnow, fun s hs => ?_⟩
        obtain ⟨hmem, hrest⟩ := hdir s hs
        obtain ⟨hin, hne⟩ := mem_unlinkSegment.mp hmem
        refine ⟨hin, fun hpath => ?_⟩
        rcases List.mem_cons.mp hpath with rfl | hpath
        · exact absurd rfl hne
        · exact hrest hpath

/-- Some schedule purges at any time all that has outlived the retention by then. -/
theorem reach_purged {time : ℚ} (h : since ≤ time) :
    ∃ r, Steps (rollingStep span) free (Rolling.start since leftovers) r ∧ r.now = time ∧
      ∀ s ∈ r.dir, time - segmentRetention span ≤ s := by
  obtain ⟨r, hr, hnow, hp⟩ := reach_time span since leftovers h
  have hclock : rollingStep span r .purge =
      some { r with purge := .list (r.now - segmentRetention span) } := by
    simp only [rollingStep, purgeNext, hp]
  have hlist : rollingStep span { r with purge := .list (r.now - segmentRetention span) } .purge =
      some { r with purge := .unlink (r.now - segmentRetention span) r.dir } := by
    simp only [rollingStep, purgeNext]
  obtain ⟨r', hr', hnow', hdir⟩ := unlink_all span r.dir
    { r with purge := .unlink (r.now - segmentRetention span) r.dir } rfl
  refine ⟨r', ((hr.trans (Steps.single trivial hclock)).trans
    (Steps.single trivial hlist)).trans hr', hnow'.trans hnow, fun s hs => ?_⟩
  obtain ⟨hin, hold⟩ := hdir s hs
  rw [← hnow]
  exact hold hin

end Schedules

end Babycat.Recorder
