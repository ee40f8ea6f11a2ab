/-
  Babycat.Analyzer.PresetRanges

  Time-ranged presets and the one that applies (`settings.py`, `_parse_hhmm`
  and `resolve_preset`, FR-055).

  A `Preset` is what cleaning leaves: its times are read, and what it holds is
  stripped.  The code skips a range with equal ends, which the docstring and
  FR-055 take for the whole day.
-/

import Babycat.Analyzer.Settings
import Babycat.Analyzer.Vocabulary

namespace Babycat.Settings

open Babycat.Text

-- ============================================================================
-- Times of day
-- ============================================================================

/-- What `time.localtime` says of the time of day. -/
structure LocalTime where
  hour : Fin 24
  min : Fin 60

/-- `t.tm_hour * 60 + t.tm_min` -/
def LocalTime.minutes (t : LocalTime) : ℤ := t.hour.val * 60 + t.min.val

-- ============================================================================
-- Presets
-- ============================================================================

/-- A preset that `clean_presets` keeps. -/
@[ext] structure Preset (T : CaseTables) where
  id : PyStr
  start : PyStr
  stop : PyStr
  prompt : Option PyStr
  labels : Option (Vocabulary T)
  id_clean : Clean id
  start_time : (parseHhmm start).isSome = true
  stop_time : (parseHhmm stop).isSome = true
  prompt_clean : ∀ s ∈ prompt, Clean s

section Resolve

variable {T : CaseTables}

def Preset.begins (p : Preset T) : ℤ := (parseHhmm p.start).get p.start_time

def Preset.ends (p : Preset T) : ℤ := (parseHhmm p.stop).get p.stop_time

/-- `resolve_preset` -/
def resolvePreset : List (Preset T) → LocalTime → Option (Preset T)
  | [], _ => none
  | p :: presets, t =>
      -- a range with equal ends matches nothing
      if p.begins = p.ends then resolvePreset presets t
      else
        let hit :=
          if p.begins < p.ends then decide (p.begins ≤ t.minutes) && decide (t.minutes < p.ends)
          else decide (t.minutes ≥ p.begins) || decide (t.minutes < p.ends)
        if hit then some p else resolvePreset presets t

/-! ## What FR-055 says -/

/-- The range of the preset contains the minute: `[start, end)`, over midnight when it starts when
    or after it ends. -/
def Preset.Contains (p : Preset T) (minute : ℤ) : Prop :=
  if p.begins < p.ends then p.begins ≤ minute ∧ minute < p.ends
  else p.begins ≤ minute ∨ minute < p.ends

/-- The first preset whose range contains the minute, if there is one. -/
def FirstContaining (presets : List (Preset T)) (minute : ℤ) : Option (Preset T) → Prop
  | none => ∀ p ∈ presets, ¬ p.Contains minute
  | some p => ∃ before after, presets = before ++ p :: after ∧ p.Contains minute ∧
      ∀ q ∈ before, ¬ q.Contains minute

/-- Every preset with equal ends stands behind one with different ends that contains the minute. -/
def EqualEndsBehind (presets : List (Preset T)) (minute : ℤ) : Prop :=
  ∀ before p after, presets = before ++ p :: after → p.begins = p.ends →
    ∃ q ∈ before, q.begins ≠ q.ends ∧ q.Contains minute

variable {p q : Preset T} {presets : List (Preset T)} {t : LocalTime} {minute : ℤ}

theorem contains_of_equal (h : p.begins = p.ends) (minute : ℤ) : p.Contains minute := by
  rw [Preset.Contains, h, if_neg (lt_irrefl _)]
  exact le_or_gt p.ends minute

theorem resolvePreset_skip (h : p.begins = p.ends) :
    resolvePreset (p :: presets) t = resolvePreset presets t := by
  rw [resolvePreset, if_pos h]

theorem resolvePreset_hit (h : p.begins ≠ p.ends) (hc : p.Contains t.minutes) :
    resolvePreset (p :: presets) t = some p := by
  rw [Preset.Contains] at hc
  rw [resolvePreset, if_neg h]
  by_cases hlt : p.begins < p.ends
  · rw [if_pos hlt] at hc
    simp [hlt, hc]
  · rw [if_neg hlt] at hc
    simp [hlt, hc]

theorem resolvePreset_miss (hc : ¬ p.Contains t.minutes) :
    resolvePreset (p :: presets) t = resolvePreset presets t := by
  have h : p.begins ≠ p.ends := fun heq => hc (contains_of_equal heq _)
  rw [Preset.Contains] at hc
  rw [resolvePreset, if_neg h]
  by_cases hlt : p.begins < p.ends
  · rw [if_pos hlt, not_and] at hc
    simp only [hlt, if_true, Bool.and_eq_true, decide_eq_true_iff]
    rw [if_neg fun h => hc h.1 h.2]
  · rw [if_neg hlt, not_or] at hc
    simp [hlt, hc]

/-- What is resolved is a preset of the list with different ends. -/
theorem resolvePreset_ends (h : resolvePreset presets t = some p) : p.begins ≠ p.ends := by
  induction presets with
  | nil => cases h
  | cons q presets ih =>
    by_cases heq : q.begins = q.ends
    · exact ih (resolvePreset_skip heq ▸ h)
    · by_cases hc : q.Contains t.minutes
      · rw [resolvePreset_hit heq hc] at h
        cases h
        exact heq
      · exact ih (resolvePreset_miss hc ▸ h)

theorem firstContaining_cons (hc : ¬ p.Contains minute) (r : Option (Preset T)) :
    FirstContaining (p :: presets) minute r ↔ FirstContaining presets minute r := by
  cases r with
  | none =>
    constructor
    · exact fun h q hq => h q (List.mem_cons_of_mem p hq)
    · intro h q hq
      rcases List.mem_cons.mp hq with rfl | hq
      · exact hc
      · exact h q hq
  | some r =>
    constructor
    · rintro ⟨before, after, heq, hr, hbefore⟩
      cases before with
      | nil =>
        obtain ⟨rfl, -⟩ := List.cons.inj heq
        exact absurd hr hc
      | cons b before =>
        obtain ⟨-, rfl⟩ := List.cons.inj heq
        exact ⟨before, after, rfl, hr, fun q hq => hbefore q (List.mem_cons_of_mem b hq)⟩
    · rintro ⟨before, after, rfl, hr, hbefore⟩
      refine ⟨p :: before, after, rfl, hr, fun q hq => ?_⟩
      rcases List.mem_cons.mp hq with rfl | hq
      · exact hc
      · exact hbefore q hq

theorem equalEndsBehind_cons (hc : ¬ p.Contains minute) :
    EqualEndsBehind (p :: presets) minute ↔ EqualEndsBehind presets minute := by
  have hp : p.begins ≠ p.ends := fun heq => hc (contains_of_equal heq _)
  constructor
  · rintro h before e after rfl he
    obtain ⟨q, hq, hne, hqc⟩ := h (p :: before) e after rfl he
    rcases List.mem_cons.mp hq with rfl | hq
    · exact absurd hqc hc
    · exact ⟨q, hq, hne, hqc⟩
  · intro h before e after heq he
    cases before with
    | nil =>
      obtain ⟨rfl, -⟩ := List.cons.inj heq
      exact absurd he hp
    | cons b before =>
      obtain ⟨-, hrest⟩ := List.cons.inj heq
      obtain ⟨q, hq, hqc⟩ := h before e after hrest he
      exact ⟨q, List.mem_cons_of_mem b hq, hqc⟩

/-- The first containing preset is resolved exactly when no range with equal ends comes first. -/
theorem firstContaining_iff (presets : List (Preset T)) (t : LocalTime) :
    FirstContaining presets t.minutes (resolvePreset presets t) ↔
      EqualEndsBehind presets t.minutes := by
  induction presets with
  | nil =>
    refine iff_of_true (fun p hp => by cases hp) fun before p after heq => ?_
    exact absurd heq.symm (by simp)
  | cons p presets ih =>
    by_cases hc : p.Contains t.minutes
    · by_cases heq : p.begins = p.ends
      · refine iff_of_false (fun hfirst => ?_) fun hbehind => ?_
        · cases hr : resolvePreset (p :: presets) t with
          | none =>
            rw [hr] at hfirst
            exact hfirst p List.mem_cons_self hc
          | some r =>
            rw [hr] at hfirst
            obtain ⟨before, after, hsplit, -, hbefore⟩ := hfirst
            cases before with
            | nil =>
              obtain ⟨rfl, -⟩ := List.cons.inj hsplit
              exact resolvePreset_ends hr heq
            | cons b before =>
              obtain ⟨rfl, -⟩ := List.cons.inj hsplit
              exact hbefore p List.mem_cons_self hc
        · obtain ⟨q, hq, -⟩ := hbehind [] p presets rfl heq
          cases hq
      · rw [resolvePreset_hit heq hc]
        refine iff_of_true ⟨[], presets, rfl, hc, fun q hq => by cases hq⟩ ?_
        intro before e after hsplit he
        cases before with
        | nil =>
          obtain ⟨rfl, -⟩ := List.cons.inj hsplit
          exact absurd he heq
        | cons b before =>
          obtain ⟨rfl, -⟩ := List.cons.inj hsplit
          exact ⟨p, List.mem_cons_self, heq, hc⟩
    · rw [resolvePreset_miss hc, firstContaining_cons hc, equalEndsBehind_cons hc]
      exact ih

/-- Complementary ranges: one of them contains the minute. -/
theorem contains_complement (hpq : p.begins = q.ends) (hqp : p.ends = q.begins)
    (hne : p.begins ≠ p.ends) (minute : ℤ) : p.Contains minute ↔ ¬ q.Contains minute := by
  rw [Preset.Contains, Preset.Contains, ← hpq, ← hqp]
  by_cases hlt : p.begins < p.ends
  · rw [if_pos hlt, if_neg (not_lt.mpr hlt.le)]
    omega
  · rw [if_neg hlt, if_pos (lt_of_le_of_ne (not_lt.mp hlt) (Ne.symm hne))]
    omega

/-- A preset with different ends alone is resolved in the minutes of its range. -/
theorem resolvePreset_alone (hne : p.begins ≠ p.ends) :
    (resolvePreset [p] t).isSome = true ↔ p.Contains t.minutes := by
  by_cases hc : p.Contains t.minutes
  · rw [resolvePreset_hit hne hc]
    exact iff_of_true rfl hc
  · rw [resolvePreset_miss hc]
    exact iff_of_false Bool.false_ne_true hc

/-- `resolve_preset` resolves the first preset that contains the minute exactly when every preset
    with equal ends stands behind one with different ends that does; and of two complementary
    ranges, one is resolved in every minute. -/
theorem resolvePreset_iff (presets : List (Preset T)) (t : LocalTime) :
    (FirstContaining presets t.minutes (resolvePreset presets t) ↔
      EqualEndsBehind presets t.minutes) ∧
    ∀ p q : Preset T, p.begins = q.ends → p.ends = q.begins → p.begins ≠ p.ends →
      ((resolvePreset [p] t).isSome = true ↔ ¬ (resolvePreset [q] t).isSome = true) := by
  refine ⟨firstContaining_iff presets t, fun p q hpq hqp hne => ?_⟩
  rw [resolvePreset_alone hne, resolvePreset_alone (by rw [← hqp, ← hpq]; exact hne.symm)]
  exact contains_complement hpq hqp hne t.minutes

end Resolve

/-! ## Presets over midnight -/

/-- A preset without prompt and labels. -/
def rangePreset (id start stop : String) (hid : Clean (pyStr id))
    (hstart : (parseHhmm (pyStr start)).isSome = true)
    (hstop : (parseHhmm (pyStr stop)).isSome = true) : Preset asciiCases where
  id := pyStr id
  start := pyStr start
  stop := pyStr stop
  prompt := none
  labels := none
  id_clean := hid
  start_time := hstart
  stop_time := hstop
  prompt_clean := fun _ h => by cases h

def night : Preset asciiCases :=
  rangePreset "night" "22:00" "06:00" (by decide) (by decide) (by decide)

def day : Preset asciiCases :=
  rangePreset "day" "06:00" "22:00" (by decide) (by decide) (by decide)

def allDay : Preset asciiCases :=
  rangePreset "always" "08:00" "08:00" (by decide) (by decide) (by decide)

/-- Half past eleven in the evening is in the range over midnight. -/
theorem resolvePreset_iff_night :
    FirstContaining [night, day] (LocalTime.minutes ⟨23, 30⟩)
        (resolvePreset [night, day] ⟨23, 30⟩) ∧
      ((resolvePreset [night] ⟨23, 30⟩).isSome = true ↔
        ¬ (resolvePreset [day] ⟨23, 30⟩).isSome = true) := by
  obtain ⟨hfirst, hpair⟩ := resolvePreset_iff [night, day] ⟨23, 30⟩
  refine ⟨hfirst.mpr ?_, hpair night day (by decide) (by decide) (by decide)⟩
  intro before p after heq hends
  have hmem : p ∈ [night, day] := heq ▸ List.mem_append_right before List.mem_cons_self
  simp only [List.mem_cons, List.not_mem_nil, or_false] at hmem
  rcases hmem with rfl | rfl <;> exact absurd hends (by decide)

/-- A preset from 08:00 to 08:00 contains every minute and is resolved in none. -/
theorem resolvePreset_equal_ends :
    resolvePreset [allDay] ⟨12, 0⟩ = none ∧
      ¬ FirstContaining [allDay] (LocalTime.minutes ⟨12, 0⟩) (resolvePreset [allDay] ⟨12, 0⟩) := by
  have hends : allDay.begins = allDay.ends := rfl
  have hnone : resolvePreset [allDay] ⟨12, 0⟩ = none := resolvePreset_skip hends
  refine ⟨hnone, fun hfirst => ?_⟩
  rw [hnone] at hfirst
  exact hfirst allDay List.mem_cons_self (contains_of_equal hends _)

-- ============================================================================
-- The presets of a snapshot
-- ============================================================================

/-- A preset with the range of a preset of a snapshot. -/
def SameRange {T : CaseTables} (old : Analyzer.Preset) (p : Preset T) : Prop :=
  p.start = old.start ∧ p.stop = old.stop

theorem hit_iff_contains {T : CaseTables} {old : Analyzer.Preset} {p : Preset T}
    (h : SameRange old p) (t : LocalTime) :
    old.hit t.minutes = true ↔ p.begins ≠ p.ends ∧ p.Contains t.minutes := by
  obtain ⟨hstart, hstop⟩ := h
  have hbegins : parseHhmm old.start = some p.begins := by
    rw [← hstart, Preset.begins, Option.some_get]
  have hends : parseHhmm old.stop = some p.ends := by
    rw [← hstop, Preset.ends, Option.some_get]
  rw [Analyzer.Preset.hit, hbegins, hends, Preset.Contains]
  by_cases heq : p.begins = p.ends
  · simp [heq]
  · by_cases hlt : p.begins < p.ends
    · simp [heq, hlt]
    · simp [heq, hlt]

/-- The presets of a snapshot resolve as the presets of the settings do. -/
theorem resolvePreset_snapshot {T : CaseTables} {olds : List Analyzer.Preset}
    {presets : List (Preset T)} (h : List.Forall₂ SameRange olds presets) (t : LocalTime) :
    Option.Rel SameRange (Analyzer.resolvePreset olds t.minutes) (resolvePreset presets t) := by
  induction h with
  | nil => exact .none
  | @cons old p olds presets hrange _ ih =>
    have hiff := hit_iff_contains hrange t
    by_cases hhit : p.begins ≠ p.ends ∧ p.Contains t.minutes
    · rw [resolvePreset_hit hhit.1 hhit.2, Analyzer.resolvePreset, List.find?_cons,
        hiff.mpr hhit]
      exact .some hrange
    · have hold : old.hit t.minutes = false := by
        rw [Bool.eq_false_iff]
        exact fun hyes => hhit (hiff.mp hyes)
      have hnew : resolvePreset (p :: presets) t = resolvePreset presets t := by
        by_cases heq : p.begins = p.ends
        · exact resolvePreset_skip heq
        · exact resolvePreset_miss fun hc => hhit ⟨heq, hc⟩
      rw [hnew, Analyzer.resolvePreset, List.find?_cons, hold]
      exact ih

end Babycat.Settings
