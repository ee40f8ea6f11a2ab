/-
  Babycat.Recorder.InferenceHistory

  The inference history over whole runs of the recorder (`post_inference` of
  `main.py`, `insert_inference` and `_maybe_prune_inferences` of `events_db.py`;
  FR-053).

  A post appends a row and, at most once an hour, deletes the rows whose time is
  before the retention window.  The handler does both without giving up the
  event loop, so posts come one after another; a write may fail, and the process
  may be killed between the two.

  `posted`, `swept`, `lastPost` and `failed` are bookkeeping the code does not
  have.
-/

import Babycat.Conc.Steps
import Babycat.Recorder.LabelFilter
import Babycat.Time.DateTexts
import Mathlib.Data.Rat.Floor
import Mathlib.Tactic.Linarith

namespace Babycat.Recorder

open Babycat.Conc Babycat.Time

-- ============================================================================
-- The request
-- ============================================================================

structure HistoryConfig where
  /-- `INFERENCE_RETENTION_DAYS`. -/
  retentionDays : ℤ
  /-- `datetime.fromtimestamp(x, tz=timezone.utc)` to the second; `none` is an exception. -/
  fromTimestamp : PyFloat → Option ℤ
  /-- `str` of a value. -/
  str : Json → String

inductive PostError
  /-- 400, "vlm_text required" -/
  | textRequired
  /-- 500: the time is out of range. -/
  | badTime
  /-- 500: the number does not fit the column. -/
  | tooLarge
  deriving DecidableEq

/-- The values of a row, and the second that its `created_at` names. -/
structure PostedInference where
  second : ℤ
  vlmText : String
  labels : Json
  preset : String
  model : String
  elapsedMs : Option ℤ

/-- The moment of the judgment; without a number it is now. -/
def judgedSecond (cfg : HistoryConfig) (now : ℚ) : Json → Option ℤ
  | .int n => cfg.fromTimestamp (.finite n)
  | .float x => cfg.fromTimestamp x
  -- a bool is an int
  | .bool b => cfg.fromTimestamp (.finite (if b then 1 else 0))
  | _ => some ⌊now⌋

/-- `elapsed if isinstance(elapsed, int) else None` -/
def elapsedOf : Json → Option ℤ
  | .int n => some n
  | .bool b => some (if b then 1 else 0)
  | _ => none

/-- `str(value or default)` -/
def textOr (cfg : HistoryConfig) (default : String) (value : Json) : String :=
  if value.truthy then cfg.str value else default

/-- What `post_inference` makes of a body. -/
def postInference (cfg : HistoryConfig) (now : ℚ) (p : Payload) :
    Except PostError PostedInference :=
  match p.get "vlm_text" with
  | .str vlmText =>
      match judgedSecond cfg now (p.get "judged_at") with
      | none => .error .badTime
      | some second =>
          let elapsedMs := elapsedOf (p.get "inference_elapsed_ms")
          if elapsedMs.all fun n => decide (-2 ^ 63 ≤ n ∧ n < 2 ^ 63) then
            .ok ⟨second, vlmText, p.get "labels", textOr cfg "default" (p.get "preset"),
              textOr cfg "" (p.get "model"), elapsedMs⟩
          else .error .tooLarge
  | _ => .error .textRequired

-- ============================================================================
-- The table
-- ============================================================================

/-- `%Y-%m-%dT%H:%M:%SZ` of a second. -/
def secondText (n : ℤ) : String := String.ofList (DateTime.ofSeconds n).iso

/-- `DELETE FROM inferences WHERE created_at < ?` -/
def InferenceTable.prune (table : InferenceTable) (cutoff : String) : InferenceTable where
  rows := table.rows.filter fun r => !decide (r.createdAt.toList < cutoff.toList)
  increasing := table.increasing.filter _

/-- The last second before the retention window. -/
def cutoff (cfg : HistoryConfig) (now : ℚ) : ℤ := ⌊now - cfg.retentionDays * 86400⌋

structure InferenceHistory where
  table : InferenceTable
  /-- The largest id that was ever given (`AUTOINCREMENT`). -/
  seq : ℕ
  below : ∀ r ∈ table.rows, r.id ≤ seq
  /-- `_last_prune_at`. -/
  lastPrune : ℚ
  now : ℚ
  /-- All rows ever inserted, with the second each one names. -/
  posted : List (ℤ × InferenceEntry)
  /-- The last delete that went through: when, and the largest id then. -/
  swept : Option (ℚ × ℕ)
  /-- When the process last answered a post. -/
  lastPost : Option ℚ
  /-- The last delete failed. -/
  failed : Bool

namespace InferenceHistory

variable (s : InferenceHistory)

/-- The row of a post. -/
def entry (r : PostedInference) : InferenceEntry :=
  ⟨s.seq + 1, secondText r.second, r.vlmText, labelsOf r.labels, r.preset, r.model, r.elapsedMs⟩

/-- `insert_inference` up to its commit. -/
def insert (r : PostedInference) : InferenceHistory :=
  { s with
    table := s.table.post (s.seq + 1) (secondText r.second) r.vlmText r.labels r.preset r.model
      r.elapsedMs fun e he => Nat.lt_succ_of_le (s.below e he)
    seq := s.seq + 1
    below := by
      intro e he
      rcases List.mem_append.mp he with he | he
      · exact Nat.le_succ_of_le (s.below e he)
      · rw [List.mem_singleton.mp he]
    posted := s.posted ++ [(r.second, s.entry r)] }

/-- `_maybe_prune_inferences`; when the delete fails the hour counts all the same. -/
def maybePrune (cfg : HistoryConfig) (fails : Bool) : InferenceHistory :=
  if s.now - s.lastPrune < 3600 then s
  else if fails then { s with lastPrune := s.now, failed := true }
  else { s with
    lastPrune := s.now
    table := s.table.prune (secondText (cutoff cfg s.now))
    below := fun r hr => s.below r (List.mem_filter.mp hr).1
    swept := some (s.now, s.seq)
    failed := false }

/-- A new process. -/
def restarted : InferenceHistory := { s with lastPrune := 0, lastPost := none, failed := false }

end InferenceHistory

/-- How the writes of a post end. -/
inductive PostWrites
  | committed
  | insertFails
  | deleteFails
  /-- The process is killed after the first commit. -/
  | killed
  deriving DecidableEq

inductive HistoryEvent
  | post (p : Payload) (w : PostWrites)
  | restart
  | tick (d : ℚ)

def historyStep (cfg : HistoryConfig) (s : InferenceHistory) :
    HistoryEvent → Option InferenceHistory
  | .post p w =>
      match postInference cfg s.now p with
      | .error _ => some s
      | .ok r =>
          match w with
          | .insertFails => some s
          | .killed => some (s.insert r).restarted
          -- the row is in, and the answer is a 500
          | .deleteFails => some ((s.insert r).maybePrune cfg true)
          | .committed => some { (s.insert r).maybePrune cfg false with lastPost := some s.now }
  | .restart => some s.restarted
  | .tick d => if 0 ≤ d then some { s with now := s.now + d } else none

theorem increasing_nil : ([] : List InferenceEntry).Pairwise fun r s => r.id < s.id := .nil

/-- An empty history at some time. -/
def InferenceHistory.empty (now : ℚ) : InferenceHistory :=
  ⟨⟨[], increasing_nil⟩, 0, List.forall_mem_nil _, 0, now, [], none, none, false⟩

/-- The years that the texts are compared in have four digits. -/
def fourDigits (cfg : HistoryConfig) (s : InferenceHistory) : HistoryEvent → Bool
  | .post p _ =>
      decide (FourDigits (utcYear (cutoff cfg s.now))) &&
        match postInference cfg s.now p with
        | .ok r => decide (FourDigits (utcYear r.second))
        | .error _ => true
  | _ => true

def FourDigitYears (cfg : HistoryConfig) (s : InferenceHistory) (e : HistoryEvent) : Prop :=
  fourDigits cfg s e = true

instance (cfg : HistoryConfig) (s : InferenceHistory) (e : HistoryEvent) :
    Decidable (FourDigitYears cfg s e) := inferInstanceAs (Decidable (_ = true))

-- ============================================================================
-- The retention window
-- ============================================================================

/-- What holds of a history whose clock has passed the first hour of 1970. -/
structure HistoryInv (cfg : HistoryConfig) (s : InferenceHistory) : Prop where
  clock : 3600 ≤ s.now
  year : ∀ q ∈ s.posted, FourDigits (utcYear q.1) ∧ q.2.createdAt = secondText q.1
  ids : s.posted.Pairwise fun q q' => q.2.id < q'.2.id
  seq : ∀ q ∈ s.posted, q.2.id ≤ s.seq
  rows : s.table.rows.Sublist (s.posted.map Prod.snd)
  kept : ∀ q ∈ s.posted, cutoff cfg s.now ≤ q.1 → q.2 ∈ s.table.rows
  /-- What the last delete left. -/
  swept : ∀ at_ n, s.swept = some (at_, n) → at_ ≤ s.now ∧ n ≤ s.seq ∧
    ∀ q ∈ s.posted, q.2 ∈ s.table.rows → q.2.id ≤ n → cutoff cfg at_ ≤ q.1
  /-- The hour counts from the last delete. -/
  hour : s.failed = false → s.lastPrune = 0 ∨ ∃ n, s.swept = some (s.lastPrune, n)
  fresh : ∀ t, s.lastPost = some t → t ≤ s.now ∧
    (s.failed = false → ∃ at_ n, s.swept = some (at_, n) ∧ t < at_ + 3600)

section Window

variable {cfg : HistoryConfig} {s s' : InferenceHistory} {r : PostedInference}

theorem cutoff_mono {t u : ℚ} (h : t ≤ u) : cutoff cfg t ≤ cutoff cfg u := by
  refine Int.floor_le_floor ?_
  linarith

/-- In years of four digits the texts compare as the seconds. -/
theorem secondText_lt {m n : ℤ} (hm : FourDigits (utcYear m)) (hn : FourDigits (utcYear n)) :
    (secondText m).toList < (secondText n).toList ↔ m < n := by
  rw [secondText, secondText, String.toList_ofList, String.toList_ofList]
  exact DateTime.iso_lt_iff hm hn

theorem mem_prune {n : ℤ} {e : InferenceEntry} {m : ℤ} (he : e.createdAt = secondText m)
    (hm : FourDigits (utcYear m)) (hn : FourDigits (utcYear n)) :
    e ∈ (s.table.prune (secondText n)).rows ↔ e ∈ s.table.rows ∧ n ≤ m := by
  have horder := secondText_lt hm hn
  rw [← he] at horder
  simp only [InferenceTable.prune, List.mem_filter, Bool.not_eq_true', decide_eq_false_iff_not,
    horder, not_lt]

theorem HistoryInv.insert (h : HistoryInv cfg s) (hr : FourDigits (utcYear r.second)) :
    HistoryInv cfg (s.insert r) where
  clock := h.clock
  year q hq := by
    rcases List.mem_append.mp hq with hq | hq
    · exact h.year q hq
    · rw [List.mem_singleton.mp hq]
      exact ⟨hr, rfl⟩
  ids := by
    refine List.pairwise_append.mpr ⟨h.ids, List.pairwise_singleton _ _, fun q hq q' hq' => ?_⟩
    rw [List.mem_singleton.mp hq']
    exact Nat.lt_succ_of_le (h.seq q hq)
  seq q hq := by
    rcases List.mem_append.mp hq with hq | hq
    · exact Nat.le_succ_of_le (h.seq q hq)
    · rw [List.mem_singleton.mp hq]
      exact le_refl _
  rows := by
    show (s.table.rows ++ [s.entry r]).Sublist ((s.posted ++ [(r.second, s.entry r)]).map Prod.snd)
    rw [List.map_append]
    exact h.rows.append (List.Sublist.refl _)
  kept q hq hcut := by
    rcases List.mem_append.mp hq with hq | hq
    · exact List.mem_append_left _ (h.kept q hq hcut)
    · rw [List.mem_singleton.mp hq]
      exact List.mem_append_right _ List.mem_cons_self
  swept at_ n hswept := by
    obtain ⟨hle, hseq, hold⟩ := h.swept at_ n hswept
    refine ⟨hle, Nat.le_succ_of_le hseq, fun q hq hrow hid => ?_⟩
    rcases List.mem_append.mp hq with hq | hq
    · rcases List.mem_append.mp hrow with hrow | hrow
      · exact hold q hq hrow hid
      · have hnew := h.seq q hq
        rw [List.mem_singleton.mp hrow] at hnew
        exact absurd hnew (Nat.not_succ_le_self _)
    · rw [List.mem_singleton.mp hq] at hid
      have hlt : s.seq + 1 ≤ n := hid
      omega
  hour := h.hour
  fresh := h.fresh

theorem HistoryInv.maybePrune (h : HistoryInv cfg s) {fails : Bool}
    (hcut : FourDigits (utcYear (cutoff cfg s.now))) : HistoryInv cfg (s.maybePrune cfg fails) := by
  unfold InferenceHistory.maybePrune
  split
  · exact h
  · split
    · exact ⟨h.clock, h.year, h.ids, h.seq, h.rows, h.kept, h.swept, by rintro ⟨⟩,
        fun t ht => ⟨(h.fresh t ht).1, by rintro ⟨⟩⟩⟩
    · have hmem : ∀ q ∈ s.posted, q.2 ∈ (s.table.prune (secondText (cutoff cfg s.now))).rows ↔
          q.2 ∈ s.table.rows ∧ cutoff cfg s.now ≤ q.1 := fun q hq =>
        mem_prune (h.year q hq).2 (h.year q hq).1 hcut
      refine ⟨h.clock, h.year, h.ids, h.seq, List.filter_sublist.trans h.rows, fun q hq hwithin => ?_,
        ?_, fun _ => .inr ⟨s.seq, rfl⟩, fun t ht => ⟨(h.fresh t ht).1, fun _ => ?_⟩⟩
      · exact (hmem q hq).mpr ⟨h.kept q hq hwithin, hwithin⟩
      · intro at_ n hswept
        obtain ⟨rfl, rfl⟩ := Prod.mk.inj (Option.some.inj hswept)
        exact ⟨le_refl _, le_refl _, fun q hq hrow _ => ((hmem q hq).mp hrow).2⟩
      · have hle := (h.fresh t ht).1
        exact ⟨s.now, s.seq, rfl, by linarith⟩

theorem HistoryInv.restarted (h : HistoryInv cfg s) : HistoryInv cfg s.restarted :=
  ⟨h.clock, h.year, h.ids, h.seq, h.rows, h.kept, h.swept, fun _ => .inl rfl,
    fun t ht => by cases ht⟩

theorem HistoryInv.tick (h : HistoryInv cfg s) {d : ℚ} (hd : 0 ≤ d) :
    HistoryInv cfg { s with now := s.now + d } where
  clock := h.clock.trans (le_add_of_nonneg_right hd)
  year := h.year
  ids := h.ids
  seq := h.seq
  rows := h.rows
  kept q hq hcut := h.kept q hq ((cutoff_mono (le_add_of_nonneg_right hd)).trans hcut)
  swept at_ n hswept := by
    obtain ⟨hle, hrest⟩ := h.swept at_ n hswept
    exact ⟨hle.trans (le_add_of_nonneg_right hd), hrest⟩
  hour := h.hour
  fresh t ht := ⟨(h.fresh t ht).1.trans (le_add_of_nonneg_right hd), (h.fresh t ht).2⟩

/-- The answer to a post: its delete went through, or the last one did less than an hour ago. -/
theorem HistoryInv.answered (h : HistoryInv cfg (s.maybePrune cfg false)) :
    HistoryInv cfg { s.maybePrune cfg false with lastPost := some s.now } := by
  have hnow : (s.maybePrune cfg false).now = s.now := by
    unfold InferenceHistory.maybePrune
    split <;> rfl
  refine ⟨h.clock, h.year, h.ids, h.seq, h.rows, h.kept, h.swept, h.hour, ?_⟩
  rintro t ⟨⟩
  refine ⟨hnow.ge, fun hfailed => ?_⟩
  have hlate : s.now < (s.maybePrune cfg false).lastPrune + 3600 := by
    unfold InferenceHistory.maybePrune
    split
    · linarith
    · show s.now < s.now + 3600
      linarith
  rcases h.hour hfailed with hnever | ⟨n, hswept⟩
  · have hclock := h.clock
    rw [hnow] at hclock
    rw [hnever] at hlate
    linarith
  · exact ⟨_, n, hswept, hlate⟩

theorem HistoryInv.step {e : HistoryEvent} (h : HistoryInv cfg s) (hG : FourDigitYears cfg s e)
    (hs : historyStep cfg s e = some s') : HistoryInv cfg s' := by
  cases e with
  | restart =>
      cases hs
      exact h.restarted
  | tick d =>
      simp only [historyStep] at hs
      split at hs
      · rename_i hd
        cases hs
        exact h.tick hd
      · cases hs
  | post p w =>
      obtain ⟨hcut, hsecond⟩ := Bool.and_eq_true_iff.mp hG
      simp only [historyStep] at hs
      split at hs
      · cases hs
        exact h
      · rename_i r hr
        rw [hr] at hsecond
        have hinserted := h.insert (of_decide_eq_true hsecond)
        have hcut' : FourDigits (utcYear (cutoff cfg (s.insert r).now)) := of_decide_eq_true hcut
        cases w with
        | insertFails =>
            cases hs
            exact h
        | killed =>
            cases hs
            exact hinserted.restarted
        | deleteFails =>
            cases hs
            exact hinserted.maybePrune hcut'
        | committed =>
            cases hs
            exact (hinserted.maybePrune hcut').answered

end Window

theorem historyInv_empty {cfg : HistoryConfig} {now : ℚ} (h : 3600 ≤ now) :
    HistoryInv cfg (.empty now) where
  clock := h
  year q hq := by cases hq
  ids := .nil
  seq q hq := by cases hq
  rows := .slnil
  kept q hq := by cases hq
  swept at_ n hswept := by cases hswept
  hour _ := .inl rfl
  fresh t ht := by cases ht

/-- In every run, with posts in any order of their times, restarts, kills between the two commits
    and failing writes: the table has only rows that were posted, as they were, with ids that
    rise; it has every one whose time is within the retention window; and when a post was answered
    and the last delete did not fail, what was there at that delete, less than an hour before the
    answer, is within the window of an hour before the answer. -/
theorem inferences_retained (cfg : HistoryConfig) (now : ℚ) (hnow : 3600 ≤ now)
    (s : InferenceHistory)
    (hr : Steps (historyStep cfg) (FourDigitYears cfg) (.empty now) s) :
    (s.table.rows.Sublist (s.posted.map Prod.snd) ∧
      s.posted.Pairwise fun q q' => q.2.id < q'.2.id) ∧
    (∀ q ∈ s.posted, cutoff cfg s.now ≤ q.1 → q.2 ∈ s.table.rows) ∧
    ∀ t, s.lastPost = some t → s.failed = false → ∃ at_ n, s.swept = some (at_, n) ∧
      t < at_ + 3600 ∧
      ∀ q ∈ s.posted, q.2 ∈ s.table.rows → q.2.id ≤ n → cutoff cfg (t - 3600) ≤ q.1 := by
  have hinv : HistoryInv cfg s :=
    hr.invariant (fun _ _ _ hk hG hs => hk.step hG hs) (historyInv_empty hnow)
  refine ⟨⟨hinv.rows, hinv.ids⟩, hinv.kept, fun t ht hfailed => ?_⟩
  obtain ⟨at_, n, hswept, hlate⟩ := (hinv.fresh t ht).2 hfailed
  refine ⟨at_, n, hswept, hlate, fun q hq hrow hid => ?_⟩
  have hwithin := (hinv.swept at_ n hswept).2.2 q hq hrow hid
  exact (cutoff_mono (by linarith)).trans hwithin

-- ============================================================================
-- Executions
-- ============================================================================

def oneDay : HistoryConfig where
  retentionDays := 1
  fromTimestamp
    | .finite q => some ⌊q⌋
    | _ => none
  str _ := ""

/-- A report of a judgment at a time. -/
def report (t : ℤ) : Payload := [("judged_at", .int t), ("vlm_text", .str "a person")]

/-- A row of a week ago, one of now, and one of two hours later. -/
def weekOld : List HistoryEvent :=
  [.post (report 1766620800) .committed, .post (report 1767225600) .committed, .tick 7200,
    .post (report 1767232800) .committed]

abbrev afterWeekOld : InferenceHistory :=
  exec (guardedStep (historyStep oneDay) (FourDigitYears oneDay)) (.empty 1767225600) weekOld

theorem inferences_retained_weekOld :
    afterWeekOld.posted.map (fun q => (q.2.id, q.1)) =
      [(1, 1766620800), (2, 1767225600), (3, 1767232800)] ∧
    afterWeekOld.table.rows.map InferenceEntry.id = [2, 3] ∧
    afterWeekOld.lastPost = some 1767232800 ∧
    ∃ at_ n, afterWeekOld.swept = some (at_, n) ∧ (1767232800 : ℚ) < at_ + 3600 := by
  have hlast : afterWeekOld.lastPost = some 1767232800 := by with_unfolding_all rfl
  have hall := inferences_retained oneDay 1767225600 (by norm_num) afterWeekOld
    (Steps.execGuarded (by with_unfolding_all rfl))
  obtain ⟨at_, n, hswept, hlate, -⟩ := hall.2.2 _ hlast (by with_unfolding_all rfl)
  exact ⟨by with_unfolding_all rfl, by with_unfolding_all rfl, hlast, at_, n, hswept, hlate⟩

end Babycat.Recorder
