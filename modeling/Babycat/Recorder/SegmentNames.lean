/-
  Babycat.Recorder.SegmentNames

  What the name of a segment says (`segment_path_for_time`,
  `parse_segment_start`) and what a clip window gets of the footage.

  A name is the local second of the open time without its offset: it is read
  back when `mktime` picks that second of all that have its wall-clock time, and
  names sort as wall-clock times do.  The end of a segment is read from the name
  of the next one and so comes up to a second early, which can cost a window the
  fragment that it begins in.
-/

import Babycat.Recorder.Selection

namespace Babycat.Recorder

open Babycat.Time

-- ============================================================================
-- A name is read back
-- ============================================================================

/-- The year of the local time at second `n`. -/
def localYear (z : Zone) (n : ℤ) : ℤ := (DateTime.ofSeconds (z.localtime n)).date.year

theorem toList_segmentPathForTime (z : Zone) (t : ℚ) :
    (segmentPathForTime z t).toList =
      (DateTime.ofSeconds (z.localtime ⌊t⌋)).compact ++ segmentSuffix := by
  rw [segmentPathForTime, String.toList_ofList]

theorem parse_segmentPathForTime (z : Zone) (t : ℚ) :
    parseSegmentStart z (segmentPathForTime z t) =
      (strptime (DateTime.ofSeconds (z.localtime ⌊t⌋)).compact).map fun parsed =>
        z.mktime parsed.toSeconds := by
  rw [parseSegmentStart, toList_segmentPathForTime, if_pos (List.suffix_append _ _)]
  simp only [List.length_append, Nat.add_sub_cancel, List.take_left]

theorem parse_fourDigits {z : Zone} {t : ℚ} (h0 : 0 ≤ t) (hyear : localYear z ⌊t⌋ ≤ 9999) :
    parseSegmentStart z (segmentPathForTime z t) = some (z.mktime (z.localtime ⌊t⌋)) := by
  have hfour := (z.fourDigits_iff (Int.floor_nonneg.mpr h0)).mpr hyear
  have hread := congrArg (Option.map z.mktime) (strptime_compact hfour)
  rw [Option.map_map] at hread
  rw [parse_segmentPathForTime]
  exact hread

theorem parse_longYear {z : Zone} {t : ℚ} (hyear : 9999 < localYear z ⌊t⌋) :
    parseSegmentStart z (segmentPathForTime z t) = none := by
  rw [parse_segmentPathForTime, strptime_long hyear, Option.map_none]

theorem parse_eq_floor_iff (z : Zone) {t : ℚ} (h0 : 0 ≤ t) :
    parseSegmentStart z (segmentPathForTime z t) = some ⌊t⌋ ↔
      z.Picks ⌊t⌋ ∧ localYear z ⌊t⌋ ≤ 9999 := by
  rcases le_or_gt (localYear z ⌊t⌋) 9999 with hyear | hyear
  · rw [parse_fourDigits h0 hyear, Option.some.injEq, and_iff_left hyear]
    exact Iff.rfl
  · rw [parse_longYear hyear]
    exact iff_of_false (fun h => by cases h) fun h => not_le.mpr hyear h.2

/-- Where `mktime` picks the second, the name is read as what the segment is known by. -/
theorem parse_eq_segmentStart {z : Zone} {t : ℚ} (h0 : 0 ≤ t) (hpick : z.Picks ⌊t⌋)
    (hyear : localYear z ⌊t⌋ ≤ 9999) :
    parseSegmentStart z (segmentPathForTime z t) = some (segmentStart t) :=
  (parse_eq_floor_iff z h0).mpr ⟨hpick, hyear⟩

-- ============================================================================
-- Names in the order of time
-- ============================================================================

/-- The order of a sorted listing. -/
def nameLt (a b : String) : Prop := a.toList < b.toList

theorem nameLt_iff (a b : String) : nameLt a b ↔ a ≠ b ∧ nameLe a b := by
  rw [nameLt, nameLe, lt_iff_le_and_ne, ne_eq, ne_eq, String.toList_inj, and_comm]

/-- Within four-digit years names sort as wall-clock times do. -/
theorem segmentPath_lt_iff {z : Zone} {t u : ℚ} (ht : 0 ≤ t) (hu : 0 ≤ u)
    (hty : localYear z ⌊t⌋ ≤ 9999) (huy : localYear z ⌊u⌋ ≤ 9999) :
    nameLt (segmentPathForTime z t) (segmentPathForTime z u) ↔
      z.localtime ⌊t⌋ < z.localtime ⌊u⌋ := by
  have htf := (z.fourDigits_iff (Int.floor_nonneg.mpr ht)).mpr hty
  have huf := (z.fourDigits_iff (Int.floor_nonneg.mpr hu)).mpr huy
  rw [← DateTime.compact_lt_iff htf huf, nameLt, toList_segmentPathForTime,
    toList_segmentPathForTime]
  have hlength : (DateTime.ofSeconds (z.localtime ⌊t⌋)).compact.length =
      (DateTime.ofSeconds (z.localtime ⌊u⌋)).compact.length := by
    rw [DateTime.compact_length htf, DateTime.compact_length huf]
  refine ⟨fun h => ?_, fun h => append_lt_append hlength h _ _⟩
  rcases lt_trichotomy (DateTime.ofSeconds (z.localtime ⌊t⌋)).compact
    (DateTime.ofSeconds (z.localtime ⌊u⌋)).compact with hlt | heq | hgt
  · exact hlt
  · rw [heq] at h
    exact absurd h (lt_irrefl _)
  · exact absurd h (lt_asymm (append_lt_append hlength.symm hgt _ _))

/-- A later wall-clock time has no earlier year. -/
theorem localYear_mono {z : Zone} {m n : ℤ} (h : z.localtime m < z.localtime n) :
    localYear z m ≤ localYear z n := by
  rcases DateTime.ofSeconds_before h with hdate | ⟨hdate, -⟩
  · rcases hdate with hyear | ⟨hyear, -⟩
    · exact le_of_lt hyear
    · exact le_of_eq hyear
  · exact le_of_eq (congrArg Date.year hdate)

/-- A name is read back as the second of the open time when `mktime` picks that second for its
    wall-clock time.  The names of two times a second apart are read back, differ and sort in time
    order when this holds for both and the wall clock of the later one is ahead. -/
theorem segment_names_decode_iff (z : Zone) :
    (∀ t : ℚ, 0 ≤ t →
      (parseSegmentStart z (segmentPathForTime z t) = some ⌊t⌋ ↔
        z.Picks ⌊t⌋ ∧ localYear z ⌊t⌋ ≤ 9999)) ∧
    ∀ t u : ℚ, 0 ≤ t → t + 1 ≤ u →
      (parseSegmentStart z (segmentPathForTime z t) = some ⌊t⌋ ∧
          parseSegmentStart z (segmentPathForTime z u) = some ⌊u⌋ ∧
          segmentPathForTime z t ≠ segmentPathForTime z u ∧
          nameLe (segmentPathForTime z t) (segmentPathForTime z u) ↔
        z.Picks ⌊t⌋ ∧ z.Picks ⌊u⌋ ∧ z.localtime ⌊t⌋ < z.localtime ⌊u⌋ ∧
          localYear z ⌊u⌋ ≤ 9999) := by
  refine ⟨fun t h0 => parse_eq_floor_iff z h0, fun t u ht hgap => ?_⟩
  have hu : 0 ≤ u := by linarith
  rw [parse_eq_floor_iff z ht, parse_eq_floor_iff z hu, ← nameLt_iff]
  constructor
  · rintro ⟨⟨htp, hty⟩, ⟨hup, huy⟩, hlt⟩
    exact ⟨htp, hup, (segmentPath_lt_iff ht hu hty huy).mp hlt, huy⟩
  · rintro ⟨htp, hup, hlt, huy⟩
    have hty := le_trans (localYear_mono hlt) huy
    exact ⟨⟨htp, hty⟩, ⟨hup, huy⟩, (segmentPath_lt_iff ht hu hty huy).mpr hlt⟩

/-- A clock that goes back an hour. -/
def autumn : Zone := .setBack 7200 7200 3600 Zone.one_hour_back Zone.two_hours_in_range

theorem segment_names_decode_autumn :
    (parseSegmentStart autumn (segmentPathForTime autumn 7000) = some ⌊(7000 : ℚ)⌋ ↔
        autumn.Picks ⌊(7000 : ℚ)⌋ ∧ localYear autumn ⌊(7000 : ℚ)⌋ ≤ 9999) ∧
      (parseSegmentStart autumn (segmentPathForTime autumn 7000) = some ⌊(7000 : ℚ)⌋ ∧
          parseSegmentStart autumn (segmentPathForTime autumn 7001) = some ⌊(7001 : ℚ)⌋ ∧
          segmentPathForTime autumn 7000 ≠ segmentPathForTime autumn 7001 ∧
          nameLe (segmentPathForTime autumn 7000) (segmentPathForTime autumn 7001) ↔
        autumn.Picks ⌊(7000 : ℚ)⌋ ∧ autumn.Picks ⌊(7001 : ℚ)⌋ ∧
          autumn.localtime ⌊(7000 : ℚ)⌋ < autumn.localtime ⌊(7001 : ℚ)⌋ ∧
          localYear autumn ⌊(7001 : ℚ)⌋ ≤ 9999) :=
  ⟨(segment_names_decode_iff autumn).1 7000 (by decide),
    (segment_names_decode_iff autumn).2 7000 7001 (by with_unfolding_all decide)
    (by with_unfolding_all decide)⟩

/-- In the repeated hour a name is read as that of the first pass, an hour early, and two
    fragments get one name. -/
theorem repeated_hour_misread :
    parseSegmentStart autumn (segmentPathForTime autumn 8000) = some 4400 ∧
      segmentPathForTime autumn 4400 = segmentPathForTime autumn 8000 ∧
      ¬ nameLe (segmentPathForTime autumn 7000) (segmentPathForTime autumn 7300) := by
  decide

-- ============================================================================
-- The footage of a window
-- ============================================================================

/-- The fragment opened at `t` records at `x`: no other one was opened in between. -/
def recordsAt (opens : List ℚ) (t x : ℚ) : Prop := t ≤ x ∧ ∀ u ∈ opens, t < u → x ≤ u

instance (opens : List ℚ) (t x : ℚ) : Decidable (recordsAt opens t x) :=
  inferInstanceAs (Decidable (_ ∧ _))

/-- A directory that holds one file for every fragment. -/
def SegmentDir (z : Zone) (opens : List ℚ) (dir : List DirEntry) : Prop :=
  dir.Perm (opens.map fun t => ⟨segmentPathForTime z t, true⟩)

/-- The segment of the fragment opened at `t`. -/
def segmentOf (z : Zone) (t : ℚ) : Segment := ⟨segmentPathForTime z t, ⌊t⌋⟩

/-- The fragments whose names can be read. -/
def readable (z : Zone) (opens : List ℚ) : List ℚ :=
  opens.filter fun t => decide (localYear z ⌊t⌋ ≤ 9999)

theorem floor_lt_floor {t u : ℚ} (h : t + 1 ≤ u) : t < ⌊u⌋ ∧ ⌊t⌋ < ⌊u⌋ := by
  have hfloor : ⌊t + 1⌋ ≤ ⌊u⌋ := Int.floor_le_floor h
  rw [Int.floor_add_one] at hfloor
  refine ⟨?_, by omega⟩
  have hcast : ((⌊t⌋ + 1 : ℤ) : ℚ) ≤ ⌊u⌋ := by exact_mod_cast hfloor
  have hlt := Int.lt_floor_add_one t
  push_cast at hcast
  linarith

section Coverage

variable {z : Zone} {span : ClipSpan} {opens : List ℚ} {dir : List DirEntry}

theorem parse_open (hzone : StrictMono z.localtime) {t : ℚ} (h0 : 0 ≤ t) :
    parseSegmentStart z (segmentPathForTime z t) =
      if localYear z ⌊t⌋ ≤ 9999 then some ⌊t⌋ else none := by
  split
  · rename_i hyear
    exact (parse_eq_floor_iff z h0).mpr ⟨Zone.picks_of_strictMono hzone _, hyear⟩
  · rename_i hyear
    exact parse_longYear (not_le.mp hyear)

theorem listSegments_perm (hdir : SegmentDir z opens dir) :
    (listSegments dir).Perm (opens.map (segmentPathForTime z)) := by
  refine (List.perm_insertionSort _ _).trans ?_
  have hall : ∀ e ∈ dir, (decide (segmentSuffix <:+ e.name.toList) && e.isFile) = true := by
    intro e he
    obtain ⟨t, -, rfl⟩ := List.mem_map.mp (hdir.mem_iff.mp he)
    rw [toList_segmentPathForTime, decide_eq_true (List.suffix_append _ _)]
    rfl
  rw [List.filter_eq_self.mpr hall]
  have hnames := hdir.map DirEntry.name
  rwa [List.map_map] at hnames

theorem filterMap_opens (hzone : StrictMono z.localtime) (hpos : ∀ t ∈ opens, 0 ≤ t) :
    (opens.map (segmentPathForTime z)).filterMap
        (fun path => (parseSegmentStart z path).map fun start => (⟨path, start⟩ : Segment)) =
      (readable z opens).map (segmentOf z) := by
  induction opens with
  | nil => rfl
  | cons t opens ih =>
      have hrest := ih fun u hu => hpos u (List.mem_cons_of_mem t hu)
      rw [List.map_cons, List.filterMap_cons, parse_open hzone (hpos t List.mem_cons_self), hrest,
        readable, readable]
      by_cases hyear : localYear z ⌊t⌋ ≤ 9999
      · rw [if_pos hyear, List.filter_cons_of_pos (by simpa using hyear), List.map_cons]
        rfl
      · rw [if_neg hyear, List.filter_cons_of_neg (by simpa using hyear)]
        rfl

/-- The segments are the fragments in the order in which they were opened. -/
theorem entries_of_segmentDir (hzone : StrictMono z.localtime) (hpos : ∀ t ∈ opens, 0 ≤ t)
    (hgap : opens.Pairwise fun t u => t + 1 ≤ u) (hdir : SegmentDir z opens dir) :
    entries z dir = (readable z opens).map (segmentOf z) := by
  have hperm : (entries z dir).Perm ((readable z opens).map (segmentOf z)) := by
    rw [← filterMap_opens hzone hpos]
    exact (listSegments_perm hdir).filterMap _
  have hanti : ∀ s s', s ∈ entries z dir → s' ∈ (readable z opens).map (segmentOf z) →
      nameLe s.name s'.name → nameLe s'.name s.name → s = s' := by
    intro s s' hs hs' hle hge
    have hname := nameLe_antisymm hle hge
    have hstart := parse_of_mem_entries hs
    rw [hname, parse_of_mem_entries (hperm.mem_iff.mpr hs')] at hstart
    cases s
    cases s'
    simp_all
  refine List.Perm.eq_of_pairwise hanti ?_ ?_ hperm
  · refine List.Pairwise.filterMap _ (fun path path' hle s hs s' hs' => ?_)
      (List.pairwise_insertionSort nameLe _)
    obtain ⟨_, -, rfl⟩ := Option.map_eq_some_iff.mp hs
    obtain ⟨_, -, rfl⟩ := Option.map_eq_some_iff.mp hs'
    exact hle
  · refine List.pairwise_map.mpr ((hgap.sublist List.filter_sublist).imp_of_mem ?_)
    intro t u ht hu htu
    obtain ⟨htmem, hty⟩ := List.mem_filter.mp ht
    obtain ⟨humem, huy⟩ := List.mem_filter.mp hu
    have hlt := (segmentPath_lt_iff (hpos t htmem) (hpos u humem) (of_decide_eq_true hty)
      (of_decide_eq_true huy)).mpr (hzone (floor_lt_floor htu).2)
    exact le_of_lt hlt

theorem entries_increasing (hzone : StrictMono z.localtime) (hpos : ∀ t ∈ opens, 0 ≤ t)
    (hgap : opens.Pairwise fun t u => t + 1 ≤ u) (hdir : SegmentDir z opens dir) :
    Increasing Segment.start (entries z dir) := by
  rw [entries_of_segmentDir hzone hpos hgap hdir]
  refine List.pairwise_map.mpr ((hgap.sublist List.filter_sublist).imp fun htu => ?_)
  exact Int.cast_lt.mpr (floor_lt_floor htu).2

/-- By the names of the directory the fragment opened at `t` ends after `low`. -/
def endsAfter (z : Zone) (span : ClipSpan) (now : ℚ) (opens : List ℚ) (t low : ℚ) : Prop :=
  (∀ u ∈ readable z opens, t < u → low < ⌊u⌋) ∧
    ((∀ u ∈ readable z opens, ¬ t < u) → low < min now (⌊t⌋ + segmentRetention span))

theorem mem_readable {t : ℚ} : t ∈ readable z opens ↔ t ∈ opens ∧ localYear z ⌊t⌋ ≤ 9999 := by
  simp [readable]

theorem gap_of_lt (hgap : opens.Pairwise fun t u => t + 1 ≤ u) {t u : ℚ} (ht : t ∈ opens)
    (hu : u ∈ opens) (h : t < u) : t + 1 ≤ u := by
  induction opens with
  | nil => cases ht
  | cons a l ih =>
      obtain ⟨hfirst, hrest⟩ := List.pairwise_cons.mp hgap
      rcases List.mem_cons.mp ht with rfl | htl <;> rcases List.mem_cons.mp hu with rfl | hul
      · exact absurd h (lt_irrefl _)
      · exact hfirst u hul
      · have hback := hfirst t htl
        linarith
      · exact ih hrest htl hul

theorem floor_lt_iff (hgap : opens.Pairwise fun t u => t + 1 ≤ u) {t u : ℚ} (ht : t ∈ opens)
    (hu : u ∈ opens) : (segmentOf z t).start < (segmentOf z u).start ↔ t < u := by
  rw [Segment.start, Segment.start, Int.cast_lt]
  refine ⟨fun hlt => lt_of_not_ge fun hge => not_lt.mpr (Int.floor_le_floor hge) hlt, fun hlt => ?_⟩
  exact (floor_lt_floor (gap_of_lt hgap ht hu hlt)).2

/-- Which fragments a window gets. -/
theorem mem_select_iff (hzone : StrictMono z.localtime) (hpos : ∀ t ∈ opens, 0 ≤ t)
    (hgap : opens.Pairwise fun t u => t + 1 ≤ u) (hdir : SegmentDir z opens dir) {now : ℚ}
    {windowStart windowEnd t : ℚ} (ht : t ∈ opens) :
    segmentPathForTime z t ∈ selectSegmentsForWindow z span now dir windowStart windowEnd ↔
      localYear z ⌊t⌋ ≤ 9999 ∧ ⌊t⌋ < windowEnd ∧ endsAfter z span now opens t windowStart := by
  have heq := entries_of_segmentDir hzone hpos hgap hdir
  have hinc := entries_increasing hzone hpos hgap hdir
  rw [heq] at hinc
  have hmem : t ∈ readable z opens →
      (segmentOf z t ∈ overlapping Segment.start (lastEnd span now) windowStart windowEnd
          ((readable z opens).map (segmentOf z)) ↔
        ⌊t⌋ < windowEnd ∧ endsAfter z span now opens t windowStart) := by
    intro htr
    have hlt : ∀ u ∈ readable z opens, ((segmentOf z t).start < (segmentOf z u).start ↔ t < u) :=
      fun u hu => floor_lt_iff hgap ht (mem_readable.mp hu).1
    rw [mem_overlapping_iff hinc (List.mem_map_of_mem htr), List.forall_mem_map,
      List.forall_mem_map, endsAfter]
    refine and_congr Iff.rfl (and_congr ?_ ?_)
    · exact forall₂_congr fun u hu => imp_congr (hlt u hu) Iff.rfl
    · refine imp_congr (forall₂_congr fun u hu => not_congr (hlt u hu)) Iff.rfl
  rw [selectSegmentsForWindow, heq]
  constructor
  · intro h
    obtain ⟨s, hs, hname⟩ := List.mem_map.mp h
    obtain ⟨u, hu, rfl⟩ := List.mem_map.mp ((overlapping_sublist _).mem hs)
    have hparse := parse_open hzone (hpos t ht)
    rw [← hname] at hparse
    obtain ⟨huo, huy⟩ := mem_readable.mp hu
    have hself : parseSegmentStart z (segmentOf z u).name = some ⌊u⌋ := by
      rw [segmentOf, parse_open hzone (hpos u huo), if_pos huy]
    have hyear : localYear z ⌊t⌋ ≤ 9999 := by
      by_contra hlong
      rw [if_neg hlong, hself] at hparse
      cases hparse
    rw [if_pos hyear, hself, Option.some.injEq] at hparse
    have hsame : segmentOf z u = segmentOf z t := by
      rw [segmentOf, segmentOf, ← hname, hparse]
      rfl
    rw [hsame] at hs
    exact ⟨hyear, (hmem (mem_readable.mpr ⟨ht, hyear⟩)).mp hs⟩
  · rintro ⟨hyear, hkept⟩
    exact List.mem_map_of_mem ((hmem (mem_readable.mpr ⟨ht, hyear⟩)).mpr hkept)

/-- A fragment that was opened in the window, or before it without a successor up to there, is
    selected. -/
theorem endsAfter_of_lt (hgap : opens.Pairwise fun t u => t + 1 ≤ u) {now t low : ℚ}
    (ht : t ∈ opens) (hlow : low ≤ t) (hnow : low < now) : endsAfter z span now opens t low := by
  refine ⟨fun u hu hlt => ?_, fun _ => lt_min hnow ?_⟩
  · exact lt_of_le_of_lt hlow (floor_lt_floor (gap_of_lt hgap ht (mem_readable.mp hu).1 hlt)).1
  · have hfloor := Int.lt_floor_add_one t
    have hretention := segmentRetention_ge_two span
    linarith

/-- The fragments returned for a window hold all of its footage exactly when one that records at
    its start ends after it by the names, and none whose name cannot be read was opened before its
    end. -/
theorem coverage_iff (hzone : StrictMono z.localtime) (hpos : ∀ t ∈ opens, 0 ≤ t)
    (hgap : opens.Pairwise fun t u => t + 1 ≤ u) (hdir : SegmentDir z opens dir) {now : ℚ}
    {windowStart windowEnd : ℚ} (hwindow : windowStart ≤ windowEnd) (hnow : windowEnd ≤ now) :
    (∀ x, windowStart ≤ x → x ≤ windowEnd → ∃ t ∈ opens, recordsAt opens t x ∧
        segmentPathForTime z t ∈ selectSegmentsForWindow z span now dir windowStart windowEnd) ↔
      (∃ t ∈ opens, recordsAt opens t windowStart ∧ localYear z ⌊t⌋ ≤ 9999 ∧
          ⌊t⌋ < windowEnd ∧ endsAfter z span now opens t windowStart) ∧
        ∀ u ∈ opens, 9999 < localYear z ⌊u⌋ → windowEnd ≤ u := by
  have hselect : ∀ t ∈ opens, (segmentPathForTime z t ∈
      selectSegmentsForWindow z span now dir windowStart windowEnd ↔ _) := fun t ht =>
    mem_select_iff hzone hpos hgap hdir ht
  constructor
  · intro hcovered
    refine ⟨?_, fun u hu hlong => ?_⟩
    · obtain ⟨t, ht, hrecords, hsel⟩ := hcovered windowStart (le_refl _) hwindow
      exact ⟨t, ht, hrecords, (hselect t ht).mp hsel⟩
    · obtain ⟨t, ht, hrecords, hsel⟩ := hcovered windowEnd hwindow (le_refl _)
      have hyear := ((hselect t ht).mp hsel).1
      refine hrecords.2 u hu (lt_of_not_ge fun hge => ?_)
      have hle : localYear z ⌊u⌋ ≤ localYear z ⌊t⌋ := by
        rcases lt_or_eq_of_le (Int.floor_le_floor hge) with hlt | heq
        · exact localYear_mono (hzone hlt)
        · rw [heq]
      omega
  · rintro ⟨⟨t, ht, hrecords, hyear, hstart, hends⟩, hlong⟩ x hlow hhigh
    rcases eq_or_lt_of_le hlow with rfl | hlow
    · exact ⟨t, ht, hrecords, (hselect t ht).mpr ⟨hyear, hstart, hends⟩⟩
    · -- the latest fragment opened before `x`
      have hinc : Increasing (fun t : ℚ => t) opens := hgap.imp fun h => by linarith
      rcases exists_boundary hinc x with hall | ⟨old, last, fresh, heq, hlast, hfresh⟩
      · exact absurd (hall t ht) (not_le.mpr (lt_of_le_of_lt hrecords.1 hlow))
      · have hlastMem : last ∈ opens := heq ▸ List.mem_append_right old List.mem_cons_self
        have hat : recordsAt opens last x := by
          refine ⟨le_of_lt hlast, fun u hu hlt => ?_⟩
          rw [heq] at hu hinc
          rcases List.mem_append.mp hu with hold | hu
          · exact absurd hlt (lt_asymm ((List.pairwise_append.mp hinc).2.2 u hold last
              List.mem_cons_self))
          · rcases List.mem_cons.mp hu with rfl | hu
            · exact absurd hlt (lt_irrefl _)
            · exact hfresh u hu
        have hlastEnd : last < windowEnd := lt_of_lt_of_le hlast hhigh
        refine ⟨last, hlastMem, hat, (hselect last hlastMem).mpr ⟨?_, ?_, ?_⟩⟩
        · exact not_lt.mp fun h => not_lt.mpr (hlong last hlastMem h) hlastEnd
        · exact lt_of_le_of_lt (Int.floor_le last) hlastEnd
        · rcases lt_trichotomy last t with hlt | rfl | hgt
          · exact absurd (hat.2 t ht hlt) (not_le.mpr (lt_of_le_of_lt hrecords.1 hlow))
          · exact hends
          · exact endsAfter_of_lt hgap hlastMem (hrecords.2 last hlastMem hgt)
              (lt_of_lt_of_le hlow (le_trans hhigh hnow))

end Coverage

/-- Three fragments, the second one opened late in its second. -/
def threeOpens : List ℚ := [0, 19 / 10, 3]

def threeFragments : List DirEntry :=
  threeOpens.map fun t => ⟨segmentPathForTime utc t, true⟩

theorem coverage_iff_three :
    (∀ x : ℚ, 5 / 2 ≤ x → x ≤ 14 / 5 → ∃ t ∈ threeOpens, recordsAt threeOpens t x ∧
        segmentPathForTime utc t ∈
          selectSegmentsForWindow utc tenSeconds 4 threeFragments (5 / 2) (14 / 5)) ↔
      (∃ t ∈ threeOpens, recordsAt threeOpens t (5 / 2) ∧ localYear utc ⌊t⌋ ≤ 9999 ∧
          ⌊t⌋ < (14 / 5 : ℚ) ∧ endsAfter utc tenSeconds 4 threeOpens t (5 / 2)) ∧
        ∀ u ∈ threeOpens, 9999 < localYear utc ⌊u⌋ → (14 / 5 : ℚ) ≤ u :=
  coverage_iff (Zone.fixed_strictMono 0 (by decide)) (by with_unfolding_all decide)
  (by with_unfolding_all decide)
    (List.Perm.refl _) (by with_unfolding_all decide) (by with_unfolding_all decide)

/-- The window from 1.5 on does not get the fragment that records until 1.9: by the name of the
    next one it ends at 1. -/
theorem window_start_dropped :
    StrictMono utc.localtime ∧ SegmentDir utc threeOpens threeFragments ∧
      threeOpens.Pairwise (fun t u => t + 1 ≤ u) ∧
      selectSegmentsForWindow utc tenSeconds 4 threeFragments (3 / 2) (14 / 5) =
        ["19700101_000001.ts"] ∧
      ¬ ∃ t ∈ threeOpens, recordsAt threeOpens t (3 / 2) ∧ segmentPathForTime utc t ∈
        selectSegmentsForWindow utc tenSeconds 4 threeFragments (3 / 2) (14 / 5) :=
  ⟨Zone.fixed_strictMono 0 (by decide), List.Perm.refl _, by with_unfolding_all decide,
    by with_unfolding_all decide,
    by with_unfolding_all decide⟩

end Babycat.Recorder
