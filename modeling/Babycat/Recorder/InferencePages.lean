/-
  Babycat.Recorder.InferencePages

  Reading the inference history page by page while the recorder runs
  (`list_inferences`, FR-056).

  As long as the reports come in the order of their times, the rows of the table
  are what was posted from some point on (`Aligned`): a post adds one at the end
  and a delete moves the point.  A reader that takes the pages in turn, each
  statement at a later moment of the run, therefore meets every row that stays.
  The total of a page is older than its rows, so the reader goes on to a page
  that comes back short, or one whose total is still right.
-/

import Babycat.Conc.Paging
import Babycat.Recorder.InferenceHistory
import Mathlib.Tactic.IntervalCases

namespace Babycat.Recorder

open Babycat.Conc Babycat.Time

/-- A post is not older than what was posted before. -/
def reportInOrder (cfg : HistoryConfig) (s : InferenceHistory) : HistoryEvent → Bool
  | .post p _ =>
      match postInference cfg s.now p with
      | .ok r => s.posted.all fun q => decide (q.1 ≤ r.second)
      | .error _ => true
  | _ => true

def InOrderYears (cfg : HistoryConfig) (s : InferenceHistory) (e : HistoryEvent) : Prop :=
  fourDigits cfg s e = true ∧ reportInOrder cfg s e = true

instance (cfg : HistoryConfig) (s : InferenceHistory) (e : HistoryEvent) :
    Decidable (InOrderYears cfg s e) := inferInstanceAs (Decidable (_ ∧ _))

namespace InferenceHistory

/-- All rows ever inserted. -/
def log (s : InferenceHistory) : List InferenceEntry := s.posted.map Prod.snd

/-- How many of them are deleted. -/
def gone (s : InferenceHistory) : ℕ := s.posted.length - s.table.rows.length

end InferenceHistory

/-- The rows are what was posted from some point on, in the order of its times. -/
structure Aligned (s : InferenceHistory) : Prop where
  sorted : s.posted.Pairwise fun q q' => q.1 ≤ q'.1
  size : s.table.rows.length ≤ s.posted.length
  rows : s.table.rows = s.log.drop s.gone

-- ============================================================================
-- One step
-- ============================================================================

section Step

variable {cfg : HistoryConfig} {s s' : InferenceHistory} {r : PostedInference}

/-- What a test keeps of a list on which it does not fail again. -/
theorem filter_eq_drop {α : Type*} {p : α → Bool} {l : List α}
    (h : l.Pairwise fun x y => p x = true → p y = true) : ∃ k, l.filter p = l.drop k := by
  induction l with
  | nil => exact ⟨0, rfl⟩
  | cons x l ih =>
      obtain ⟨hx, hl⟩ := List.pairwise_cons.mp h
      cases hp : p x with
      | true =>
          refine ⟨0, List.filter_eq_self.mpr fun y hy => ?_⟩
          rcases List.mem_cons.mp hy with rfl | hy
          · exact hp
          · exact hx y hy hp
      | false =>
          obtain ⟨k, hk⟩ := ih hl
          refine ⟨k + 1, ?_⟩
          rw [List.filter_cons_of_neg (by rw [hp]; exact Bool.false_ne_true), hk,
            List.drop_succ_cons]

theorem log_length : s.log.length = s.posted.length := List.length_map ..

/-- The point of a list that ends with the rows. -/
theorem Aligned.of_drop {k : ℕ} (hsorted : s.posted.Pairwise fun q q' => q.1 ≤ q'.1)
    (h : s.table.rows = s.log.drop k) : Aligned s := by
  have hlength : s.table.rows.length = s.posted.length - k := by
    rw [h, List.length_drop, log_length]
  refine ⟨hsorted, by omega, ?_⟩
  rcases Nat.lt_or_ge k s.posted.length with hlt | hge
  · rw [InferenceHistory.gone, hlength, Nat.sub_sub_self (Nat.le_of_lt hlt)]
    exact h
  · have hall : s.gone = s.posted.length := by
      rw [InferenceHistory.gone, hlength, Nat.sub_eq_zero_of_le hge, Nat.sub_zero]
    rw [hall, h, List.drop_eq_nil_of_le (by rw [log_length]; exact hge),
      List.drop_eq_nil_of_le (by rw [log_length])]

theorem Aligned.insert (h : Aligned s) (hr : ∀ q ∈ s.posted, q.1 ≤ r.second) :
    Aligned (s.insert r) := by
  have hlog : (s.insert r).log = s.log ++ [s.entry r] := by
    rw [InferenceHistory.log, InferenceHistory.insert, List.map_append]
    rfl
  have hle : s.gone ≤ s.log.length := by
    rw [log_length, InferenceHistory.gone]
    exact Nat.sub_le _ _
  refine .of_drop (k := s.gone) ?_ ?_
  · refine List.pairwise_append.mpr ⟨h.sorted, List.pairwise_singleton _ _, fun q hq q' hq' => ?_⟩
    rw [List.mem_singleton.mp hq']
    exact hr q hq
  · rw [hlog, List.drop_append_of_le_length hle, ← h.rows]
    rfl

/-- In the order of the times a delete takes rows from the beginning. -/
theorem Aligned.maybePrune {fails : Bool} (h : Aligned s) (hinv : HistoryInv cfg s)
    (hcut : FourDigits (utcYear (cutoff cfg s.now))) : Aligned (s.maybePrune cfg fails) := by
  unfold InferenceHistory.maybePrune
  split
  · exact h
  · split
    · exact ⟨h.sorted, h.size, h.rows⟩
    · have hkeep : ∀ q ∈ s.posted, (!decide (q.2.createdAt.toList <
          (secondText (cutoff cfg s.now)).toList)) = true ↔ cutoff cfg s.now ≤ q.1 := by
        intro q hq
        rw [(hinv.year q hq).2, Bool.not_eq_true', decide_eq_false_iff_not,
          secondText_lt (hinv.year q hq).1 hcut, not_lt]
      have hmono : s.log.Pairwise fun e e' =>
          (!decide (e.createdAt.toList < (secondText (cutoff cfg s.now)).toList)) = true →
            (!decide (e'.createdAt.toList < (secondText (cutoff cfg s.now)).toList)) = true := by
        refine List.pairwise_map.mpr (h.sorted.imp_of_mem fun hq hq' hle hkept => ?_)
        exact (hkeep _ hq').mpr (((hkeep _ hq).mp hkept).trans hle)
      obtain ⟨k, hk⟩ := filter_eq_drop (hmono.sublist (List.drop_sublist s.gone s.log))
      refine .of_drop (k := s.gone + k) h.sorted ?_
      show s.table.rows.filter _ = s.log.drop (s.gone + k)
      rw [h.rows, hk, List.drop_drop]

/-- The log only grows, and nothing that was deleted comes back. -/
def Onward (s s' : InferenceHistory) : Prop :=
  s.posted <+: s'.posted ∧ s.gone ≤ s'.gone

theorem onward_maybePrune {fails : Bool} : Onward s (s.maybePrune cfg fails) := by
  unfold InferenceHistory.maybePrune
  split
  · exact ⟨List.prefix_refl _, le_refl _⟩
  · split
    · exact ⟨List.prefix_refl _, le_refl _⟩
    · refine ⟨List.prefix_refl _, Nat.sub_le_sub_left ?_ _⟩
      exact List.length_filter_le _ _

theorem onward_insert : Onward s (s.insert r) := by
  refine ⟨List.prefix_append _ _, ?_⟩
  show s.posted.length - s.table.rows.length ≤
    (s.posted ++ [(r.second, s.entry r)]).length - (s.table.rows ++ [s.entry r]).length
  rw [List.length_append, List.length_append, List.length_singleton, List.length_singleton,
    Nat.add_sub_add_right]

theorem Onward.trans {s'' : InferenceHistory} (h : Onward s s') (h' : Onward s' s'') :
    Onward s s'' := ⟨h.1.trans h'.1, h.2.trans h'.2⟩

theorem onward_step {e : HistoryEvent} (hs : historyStep cfg s e = some s') : Onward s s' := by
  have hrefl : ∀ s : InferenceHistory, Onward s s := fun s => ⟨List.prefix_refl _, le_refl _⟩
  cases e with
  | restart =>
      cases hs
      exact hrefl s
  | tick d =>
      simp only [historyStep] at hs
      split at hs
      · cases hs
        exact hrefl s
      · cases hs
  | post p w =>
      simp only [historyStep] at hs
      split at hs
      · cases hs
        exact hrefl s
      · rename_i r _
        have hinsert : Onward s (s.insert r) := onward_insert
        cases w with
        | insertFails =>
            cases hs
            exact hrefl s
        | killed =>
            cases hs
            exact hinsert
        | deleteFails =>
            cases hs
            exact hinsert.trans onward_maybePrune
        | committed =>
            cases hs
            exact hinsert.trans onward_maybePrune

theorem Aligned.step {e : HistoryEvent} (h : Aligned s) (hinv : HistoryInv cfg s)
    (hG : InOrderYears cfg s e) (hs : historyStep cfg s e = some s') : Aligned s' := by
  cases e with
  | restart =>
      cases hs
      exact ⟨h.sorted, h.size, h.rows⟩
  | tick d =>
      simp only [historyStep] at hs
      split at hs
      · cases hs
        exact ⟨h.sorted, h.size, h.rows⟩
      · cases hs
  | post p w =>
      obtain ⟨hcut, hsecond⟩ := Bool.and_eq_true_iff.mp hG.1
      have horder := hG.2
      simp only [historyStep] at hs
      split at hs
      · cases hs
        exact h
      · rename_i r hr
        simp only [reportInOrder, hr, List.all_eq_true, decide_eq_true_eq] at horder
        rw [hr] at hsecond
        have hinserted := h.insert horder
        have hinv' := hinv.insert (of_decide_eq_true hsecond)
        have hcut' : FourDigits (utcYear (cutoff cfg (s.insert r).now)) := of_decide_eq_true hcut
        cases w with
        | insertFails =>
            cases hs
            exact h
        | killed =>
            cases hs
            exact ⟨hinserted.sorted, hinserted.size, hinserted.rows⟩
        | deleteFails =>
            cases hs
            exact hinserted.maybePrune hinv' hcut'
        | committed =>
            cases hs
            have hpruned : Aligned ((s.insert r).maybePrune cfg false) :=
              hinserted.maybePrune hinv' hcut'
            exact ⟨hpruned.sorted, hpruned.size, hpruned.rows⟩

end Step

-- ============================================================================
-- Whole runs
-- ============================================================================

section Runs

variable {cfg : HistoryConfig} {now : ℚ} {s s' : InferenceHistory}

theorem aligned_run (hnow : 3600 ≤ now)
    (hr : Steps (historyStep cfg) (InOrderYears cfg) (.empty now) s) :
    HistoryInv cfg s ∧ Aligned s := by
  refine hr.invariant (K := fun s => HistoryInv cfg s ∧ Aligned s) ?_
    ⟨historyInv_empty hnow, .nil, le_refl _, rfl⟩
  intro a e b hk hG hs
  exact ⟨hk.1.step hG.1 hs, hk.2.step hk.1 hG hs⟩

theorem onward_run (hr : Steps (historyStep cfg) (InOrderYears cfg) s s') : Onward s s' :=
  hr.relation (fun _ => ⟨List.prefix_refl _, le_refl _⟩) (fun _ _ _ h h' => h.trans h')
    fun _ _ _ _ hs => onward_step hs

theorem HistoryInv.log_nodup (h : HistoryInv cfg s) : s.log.Nodup := by
  refine List.pairwise_map.mpr (h.ids.imp fun {q q'} hlt heq => ?_)
  have hid : q.2.id < q'.2.id := hlt
  rw [heq] at hid
  exact lt_irrefl _ hid

/-- Between two moments of a run the rows slide along what is posted. -/
theorem slid_of_onward (h : Aligned s) (h' : Aligned s') (hnodup : s'.log.Nodup)
    (ho : Onward s s') : Slid s.table.rows s'.table.rows := by
  obtain ⟨new, hposted⟩ := ho.1
  have hlog : s'.log = s.log ++ new.map Prod.snd := by
    rw [InferenceHistory.log, InferenceHistory.log, ← hposted, List.map_append]
  rw [h.rows, h'.rows, hlog]
  rw [hlog] at hnodup
  rcases Nat.lt_or_ge s.log.length s'.gone with hfar | hnear
  · -- everything that was there has gone
    refine ⟨s.log.drop s.gone, [], (s.log ++ new.map Prod.snd).drop s'.gone,
      (List.append_nil _).symm, (List.nil_append _).symm, ?_⟩
    have hcome : (s.log ++ new.map Prod.snd).drop s'.gone =
        (new.map Prod.snd).drop (s'.gone - s.log.length) := by
      rw [List.drop_append, List.drop_eq_nil_of_le (Nat.le_of_lt hfar), List.nil_append]
    rw [hcome, List.append_nil]
    exact hnodup.sublist ((List.drop_sublist _ _).append (List.drop_sublist _ _))
  · exact slid_drop ho.2 hnear hnodup

/-- What is in the table now and at a later moment was never gone between. -/
theorem present_between {m : InferenceHistory} {x : InferenceEntry} (h : Aligned m)
    (h' : Aligned s') (hnodup : s'.log.Nodup) (ho : Onward m s') (hlog : x ∈ m.log)
    (hx : x ∈ s'.table.rows) : x ∈ m.table.rows := by
  obtain ⟨new, hposted⟩ := ho.1
  have hsplit : s'.log = m.log ++ new.map Prod.snd := by
    rw [InferenceHistory.log, InferenceHistory.log, ← hposted, List.map_append]
  rw [hsplit] at hnodup
  rw [h'.rows, hsplit, List.drop_append] at hx
  rcases List.mem_append.mp hx with hold | hnew
  · rw [h.rows]
    have hdrop : m.log.drop s'.gone = (m.log.drop m.gone).drop (s'.gone - m.gone) := by
      rw [List.drop_drop, Nat.add_sub_cancel' ho.2]
    rw [hdrop] at hold
    exact List.mem_of_mem_drop hold
  · exact absurd (List.mem_of_mem_drop hnew) (List.disjoint_of_nodup_append hnodup hlog)

/-- The rows that a request is about. -/
def InferenceEntry.wanted (label : Option (List Char)) (row : InferenceEntry) : Bool :=
  (label.getD []).isEmpty || row.hit (label.getD [])

theorem select_wanted {table : InferenceTable} {label : Option (List Char)}
    {rows : List InferenceEntry} (h : table.select (label.getD []) = .ok rows) :
    rows = table.rows.filter (InferenceEntry.wanted label) := by
  unfold InferenceEntry.wanted
  cases hlabel : label.getD [] with
  | nil =>
      rw [hlabel] at h
      cases h
      exact (List.filter_eq_self.mpr fun _ _ => rfl).symm
  | cons c cs =>
      rw [hlabel] at h
      simp only [InferenceTable.select] at h
      split at h
      · cases h
      · cases h
        rfl

/-- A page is one of the rows that the request is about when it is selected, and the total counts
    them as they were before. -/
theorem listBetween_ok {counted selected : InferenceTable} {label : Option (List Char)}
    {limit offset : ℕ} {list : InferenceList}
    (h : listBetween counted selected label limit offset = .ok list) :
    list.inferences = newest (selected.rows.filter (InferenceEntry.wanted label)) limit offset ∧
      list.total = (counted.rows.filter (InferenceEntry.wanted label)).length := by
  unfold listBetween at h
  cases hall : counted.select (label.getD []) with
  | error e =>
      rw [hall] at h
      cases h
  | ok all =>
      cases hrows : selected.select (label.getD []) with
      | error e =>
          rw [hall, hrows] at h
          cases h
      | ok rows =>
          rw [hall, hrows] at h
          cases h
          rw [← select_wanted hall, ← select_wanted hrows]
          exact ⟨rfl, rfl⟩

/-- A page that is not full is the last one. -/
theorem length_le_of_short {rows : List InferenceEntry} {limit offset : ℕ}
    (h : (newest rows limit offset).length < limit) : rows.length ≤ offset + limit := by
  rw [newest, List.length_take, List.length_drop, List.length_reverse] at h
  omega

/-- Rows that nothing was added to are no more than before. -/
theorem length_le_of_posted {p : InferenceEntry → Bool} (h : Aligned s) (h' : Aligned s')
    (ho : Onward s s') (hposted : s'.posted = s.posted) :
    (s'.table.rows.filter p).length ≤ (s.table.rows.filter p).length := by
  have hlog : s'.log = s.log := congrArg (List.map Prod.snd) hposted
  have hdrop : s'.table.rows = s.table.rows.drop (s'.gone - s.gone) := by
    rw [h'.rows, h.rows, hlog, List.drop_drop, Nat.add_sub_cancel' ho.2]
  rw [hdrop]
  exact ((List.drop_sublist _ _).filter p).length_le

end Runs

/-- Where the reports come in the order of their times, a reader that takes the pages of a request
    in turn, each of the two statements of a page at a later moment of the run, up to one that comes
    back short, or one that reaches the total when no report has come in between its statements,
    gets every matching row that was there when the first page was selected and still is when the
    last one is, however many rows come in and are deleted between. -/
theorem every_row_read (cfg : HistoryConfig) (now : ℚ) (hnow : 3600 ≤ now)
    (counted selected : ℕ → InferenceHistory)
    (hfirst : Steps (historyStep cfg) (InOrderYears cfg) (.empty now) (counted 0))
    (hpage : ∀ j, Steps (historyStep cfg) (InOrderYears cfg) (counted j) (selected j))
    (hnext : ∀ j, Steps (historyStep cfg) (InOrderYears cfg) (selected j) (counted (j + 1)))
    (label : Option (List Char)) (limit last : ℕ) (hlimit : 0 < limit)
    (lists : ℕ → InferenceList)
    (hlists : ∀ j ≤ last, listBetween (counted j).table (selected j).table label limit (j * limit) =
      .ok (lists j))
    (hlast : (lists last).inferences.length < limit ∨
      (lists last).total ≤ (last + 1) * limit ∧ (selected last).posted = (counted last).posted)
    (row : InferenceEntry) (hwanted : row.wanted label = true)
    (hrow : row ∈ (selected 0).table.rows) (hstill : row ∈ (selected last).table.rows) :
    ∃ j ≤ last, row ∈ (lists j).inferences := by
  have hbetween : ∀ j k, j ≤ k →
      Steps (historyStep cfg) (InOrderYears cfg) (selected j) (selected k) := by
    intro j k hjk
    induction hjk with
    | refl => exact Steps.refl
    | step _ ih => exact ih.trans ((hnext _).trans (hpage _))
  have hreach : ∀ j, Steps (historyStep cfg) (InOrderYears cfg) (.empty now) (selected j) :=
    fun j => (hfirst.trans (hpage 0)).trans (hbetween 0 j (Nat.zero_le j))
  have hinv : ∀ j, HistoryInv cfg (selected j) ∧ Aligned (selected j) := fun j =>
    aligned_run hnow (hreach j)
  have hpresent : ∀ j ≤ last, row ∈ (selected j).table.rows := by
    intro j hj
    have hlog : row ∈ (selected j).log := by
      have hmem : row ∈ (selected 0).log := (hinv 0).1.rows.subset hrow
      obtain ⟨new, hposted⟩ := (onward_run (hbetween 0 j (Nat.zero_le j))).1
      rw [InferenceHistory.log, ← hposted, List.map_append]
      exact List.mem_append_left _ hmem
    exact present_between (hinv j).2 (hinv last).2 (hinv last).1.log_nodup
      (onward_run (hbetween j last hj)) hlog hstill
  have hslid : ∀ j < last, Slid ((selected j).table.rows.filter (InferenceEntry.wanted label))
      ((selected (j + 1)).table.rows.filter (InferenceEntry.wanted label)) := fun j _ =>
    (slid_of_onward (hinv j).2 (hinv (j + 1)).2 (hinv (j + 1)).1.log_nodup
      (onward_run ((hnext j).trans (hpage (j + 1))))).filter _
  obtain ⟨hinferences, htotal⟩ := listBetween_ok (hlists last (le_refl last))
  have hend : ((selected last).table.rows.filter (InferenceEntry.wanted label)).length ≤
      (last + 1) * limit := by
    rcases hlast with hshort | ⟨hreached, hposted⟩
    · rw [hinferences] at hshort
      rw [Nat.succ_mul]
      exact length_le_of_short hshort
    · rw [htotal] at hreached
      have hcounted : Aligned (counted last) := by
        cases last with
        | zero => exact (aligned_run hnow hfirst).2
        | succ last => exact (aligned_run hnow ((hreach last).trans (hnext last))).2
      exact (length_le_of_posted hcounted (hinv last).2 (onward_run (hpage last)) hposted).trans
        hreached
  obtain ⟨j, hj, hmem⟩ := walk_meets hlimit hslid
    (fun j hj => List.mem_filter.mpr ⟨hpresent j hj, hwanted⟩) hend
  refine ⟨j, hj, ?_⟩
  rw [(listBetween_ok (hlists j hj)).1]
  exact hmem

-- ============================================================================
-- Executions
-- ============================================================================

/-- Two reports; a third comes in between the two statements of the first page of one row. -/
abbrev readFrom : InferenceHistory :=
  exec (guardedStep (historyStep oneDay) (InOrderYears oneDay)) (.empty 1767225600)
    [.post (report 1767225600) .committed, .post (report 1767225601) .committed]

abbrev readOn : InferenceHistory :=
  exec (guardedStep (historyStep oneDay) (InOrderYears oneDay)) readFrom
    [.post (report 1767225602) .committed]

def sampleEntry (id : ℕ) (createdAt : String) : InferenceEntry :=
  ⟨id, createdAt, "a person", [], "default", "", none⟩

/-- What the pages of the reader show; the total of the first one is that of before. -/
def readLists (j : ℕ) : InferenceList :=
  ⟨([[sampleEntry 3 "2026-01-01T00:00:02Z"], [sampleEntry 2 "2026-01-01T00:00:01Z"],
    [sampleEntry 1 "2026-01-01T00:00:00Z"]][j]?).getD [], if j = 0 then 2 else 3⟩

/-- The reader does not stop at the total of the first page, and meets the first row on the
    third. -/
theorem every_row_read_later :
    ∃ j ≤ 2, sampleEntry 1 "2026-01-01T00:00:00Z" ∈ (readLists j).inferences := by
  have hfirst : Steps (historyStep oneDay) (InOrderYears oneDay) (.empty 1767225600) readFrom :=
    Steps.execGuarded (by with_unfolding_all rfl)
  have hon : Steps (historyStep oneDay) (InOrderYears oneDay) readFrom readOn :=
    Steps.execGuarded (by with_unfolding_all rfl)
  have hpage : ∀ j : ℕ, Steps (historyStep oneDay) (InOrderYears oneDay)
      (if j = 0 then readFrom else readOn) readOn := by
    intro j
    split
    · exact hon
    · exact Steps.refl
  have hrows : readOn.table.rows = [sampleEntry 1 "2026-01-01T00:00:00Z",
      sampleEntry 2 "2026-01-01T00:00:01Z", sampleEntry 3 "2026-01-01T00:00:02Z"] := by
    with_unfolding_all rfl
  refine every_row_read oneDay 1767225600 (by norm_num)
    (fun j => if j = 0 then readFrom else readOn) (fun _ => readOn) hfirst hpage
    (fun j => by rw [if_neg (Nat.succ_ne_zero j)]; exact Steps.refl) none 1 2 (by decide) readLists
    (fun j hj => ?_) (.inr ⟨by decide, rfl⟩) (sampleEntry 1 "2026-01-01T00:00:00Z") rfl ?_ ?_
  · interval_cases j <;> with_unfolding_all rfl
  · show _ ∈ readOn.table.rows
    rw [hrows]
    exact List.mem_cons_self
  · show _ ∈ readOn.table.rows
    rw [hrows]
    exact List.mem_cons_self

end Babycat.Recorder
