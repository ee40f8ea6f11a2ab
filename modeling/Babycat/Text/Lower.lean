/-
  Babycat.Text.Lower

  `str.lower` of Python 3.10 (the case mappings of Unicode 13).

  `lowerRuns` are the code points that have a lower-case form of one code
  point, in runs of equal distance; the dotted capital I has two.  A capital
  sigma at the end of a word becomes the final one, which depends on what is
  cased and what is ignored around it: two properties of Unicode that the
  results hold for whatever they are (`CaseTables`).
-/

import Babycat.Text.PyStr

namespace Babycat.Text

-- ============================================================================
-- Case mappings
-- ============================================================================

/-- `count` code points from `start` on in steps of `step`; their lower-case forms are those from
    `form` on. -/
structure CaseRun where
  start : ℕ
  count : ℕ
  step : ℕ
  form : ℕ

def lowerRuns : List CaseRun :=
  [⟨0x41, 26, 1, 0x61⟩, ⟨0xC0, 23, 1, 0xE0⟩, ⟨0xD8, 7, 1, 0xF8⟩, ⟨0x100, 24, 2, 0x101⟩,
   ⟨0x132, 3, 2, 0x133⟩, ⟨0x139, 8, 2, 0x13A⟩, ⟨0x14A, 23, 2, 0x14B⟩, ⟨0x178, 1, 1, 0xFF⟩,
   ⟨0x179, 3, 2, 0x17A⟩, ⟨0x181, 1, 1, 0x253⟩, ⟨0x182, 2, 2, 0x183⟩, ⟨0x186, 1, 1, 0x254⟩,
   ⟨0x187, 1, 1, 0x188⟩, ⟨0x189, 2, 1, 0x256⟩, ⟨0x18B, 1, 1, 0x18C⟩, ⟨0x18E, 1, 1, 0x1DD⟩,
   ⟨0x18F, 1, 1, 0x259⟩, ⟨0x190, 1, 1, 0x25B⟩, ⟨0x191, 1, 1, 0x192⟩, ⟨0x193, 1, 1, 0x260⟩,
   ⟨0x194, 1, 1, 0x263⟩, ⟨0x196, 1, 1, 0x269⟩, ⟨0x197, 1, 1, 0x268⟩, ⟨0x198, 1, 1, 0x199⟩,
   ⟨0x19C, 1, 1, 0x26F⟩, ⟨0x19D, 1, 1, 0x272⟩, ⟨0x19F, 1, 1, 0x275⟩, ⟨0x1A0, 3, 2, 0x1A1⟩,
   ⟨0x1A6, 1, 1, 0x280⟩, ⟨0x1A7, 1, 1, 0x1A8⟩, ⟨0x1A9, 1, 1, 0x283⟩, ⟨0x1AC, 1, 1, 0x1AD⟩,
   ⟨0x1AE, 1, 1, 0x288⟩, ⟨0x1AF, 1, 1, 0x1B0⟩, ⟨0x1B1, 2, 1, 0x28A⟩, ⟨0x1B3, 2, 2, 0x1B4⟩,
   ⟨0x1B7, 1, 1, 0x292⟩, ⟨0x1B8, 1, 1, 0x1B9⟩, ⟨0x1BC, 1, 1, 0x1BD⟩, ⟨0x1C4, 1, 1, 0x1C6⟩,
   ⟨0x1C5, 1, 1, 0x1C6⟩, ⟨0x1C7, 1, 1, 0x1C9⟩, ⟨0x1C8, 1, 1, 0x1C9⟩, ⟨0x1CA, 1, 1, 0x1CC⟩,
   ⟨0x1CB, 9, 2, 0x1CC⟩, ⟨0x1DE, 9, 2, 0x1DF⟩, ⟨0x1F1, 1, 1, 0x1F3⟩, ⟨0x1F2, 2, 2, 0x1F3⟩,
   ⟨0x1F6, 1, 1, 0x195⟩, ⟨0x1F7, 1, 1, 0x1BF⟩, ⟨0x1F8, 20, 2, 0x1F9⟩, ⟨0x220, 1, 1, 0x19E⟩,
   ⟨0x222, 9, 2, 0x223⟩, ⟨0x23A, 1, 1, 0x2C65⟩, ⟨0x23B, 1, 1, 0x23C⟩, ⟨0x23D, 1, 1, 0x19A⟩,
   ⟨0x23E, 1, 1, 0x2C66⟩, ⟨0x241, 1, 1, 0x242⟩, ⟨0x243, 1, 1, 0x180⟩, ⟨0x244, 1, 1, 0x289⟩,
   ⟨0x245, 1, 1, 0x28C⟩, ⟨0x246, 5, 2, 0x247⟩, ⟨0x370, 2, 2, 0x371⟩, ⟨0x376, 1, 1, 0x377⟩,
   ⟨0x37F, 1, 1, 0x3F3⟩, ⟨0x386, 1, 1, 0x3AC⟩, ⟨0x388, 3, 1, 0x3AD⟩, ⟨0x38C, 1, 1, 0x3CC⟩,
   ⟨0x38E, 2, 1, 0x3CD⟩, ⟨0x391, 17, 1, 0x3B1⟩, ⟨0x3A4, 8, 1, 0x3C4⟩, ⟨0x3CF, 1, 1, 0x3D7⟩,
   ⟨0x3D8, 12, 2, 0x3D9⟩, ⟨0x3F4, 1, 1, 0x3B8⟩, ⟨0x3F7, 1, 1, 0x3F8⟩, ⟨0x3F9, 1, 1, 0x3F2⟩,
   ⟨0x3FA, 1, 1, 0x3FB⟩, ⟨0x3FD, 3, 1, 0x37B⟩, ⟨0x400, 16, 1, 0x450⟩, ⟨0x410, 32, 1, 0x430⟩,
   ⟨0x460, 17, 2, 0x461⟩, ⟨0x48A, 27, 2, 0x48B⟩, ⟨0x4C0, 1, 1, 0x4CF⟩, ⟨0x4C1, 7, 2, 0x4C2⟩,
   ⟨0x4D0, 48, 2, 0x4D1⟩, ⟨0x531, 38, 1, 0x561⟩, ⟨0x10A0, 38, 1, 0x2D00⟩, ⟨0x10C7, 1, 1, 0x2D27⟩,
   ⟨0x10CD, 1, 1, 0x2D2D⟩, ⟨0x13A0, 80, 1, 0xAB70⟩, ⟨0x13F0, 6, 1, 0x13F8⟩, ⟨0x1C90, 43, 1, 0x10D0⟩,
   ⟨0x1CBD, 3, 1, 0x10FD⟩, ⟨0x1E00, 75, 2, 0x1E01⟩, ⟨0x1E9E, 1, 1, 0xDF⟩, ⟨0x1EA0, 48, 2, 0x1EA1⟩,
   ⟨0x1F08, 8, 1, 0x1F00⟩, ⟨0x1F18, 6, 1, 0x1F10⟩, ⟨0x1F28, 8, 1, 0x1F20⟩, ⟨0x1F38, 8, 1, 0x1F30⟩,
   ⟨0x1F48, 6, 1, 0x1F40⟩, ⟨0x1F59, 4, 2, 0x1F51⟩, ⟨0x1F68, 8, 1, 0x1F60⟩, ⟨0x1F88, 8, 1, 0x1F80⟩,
   ⟨0x1F98, 8, 1, 0x1F90⟩, ⟨0x1FA8, 8, 1, 0x1FA0⟩, ⟨0x1FB8, 2, 1, 0x1FB0⟩, ⟨0x1FBA, 2, 1, 0x1F70⟩,
   ⟨0x1FBC, 1, 1, 0x1FB3⟩, ⟨0x1FC8, 4, 1, 0x1F72⟩, ⟨0x1FCC, 1, 1, 0x1FC3⟩, ⟨0x1FD8, 2, 1, 0x1FD0⟩,
   ⟨0x1FDA, 2, 1, 0x1F76⟩, ⟨0x1FE8, 2, 1, 0x1FE0⟩, ⟨0x1FEA, 2, 1, 0x1F7A⟩, ⟨0x1FEC, 1, 1, 0x1FE5⟩,
   ⟨0x1FF8, 2, 1, 0x1F78⟩, ⟨0x1FFA, 2, 1, 0x1F7C⟩, ⟨0x1FFC, 1, 1, 0x1FF3⟩, ⟨0x2126, 1, 1, 0x3C9⟩,
   ⟨0x212A, 1, 1, 0x6B⟩, ⟨0x212B, 1, 1, 0xE5⟩, ⟨0x2132, 1, 1, 0x214E⟩, ⟨0x2160, 16, 1, 0x2170⟩,
   ⟨0x2183, 1, 1, 0x2184⟩, ⟨0x24B6, 26, 1, 0x24D0⟩, ⟨0x2C00, 47, 1, 0x2C30⟩, ⟨0x2C60, 1, 1, 0x2C61⟩,
   ⟨0x2C62, 1, 1, 0x26B⟩, ⟨0x2C63, 1, 1, 0x1D7D⟩, ⟨0x2C64, 1, 1, 0x27D⟩, ⟨0x2C67, 3, 2, 0x2C68⟩,
   ⟨0x2C6D, 1, 1, 0x251⟩, ⟨0x2C6E, 1, 1, 0x271⟩, ⟨0x2C6F, 1, 1, 0x250⟩, ⟨0x2C70, 1, 1, 0x252⟩,
   ⟨0x2C72, 1, 1, 0x2C73⟩, ⟨0x2C75, 1, 1, 0x2C76⟩, ⟨0x2C7E, 2, 1, 0x23F⟩, ⟨0x2C80, 50, 2, 0x2C81⟩,
   ⟨0x2CEB, 2, 2, 0x2CEC⟩, ⟨0x2CF2, 1, 1, 0x2CF3⟩, ⟨0xA640, 23, 2, 0xA641⟩, ⟨0xA680, 14, 2, 0xA681⟩,
   ⟨0xA722, 7, 2, 0xA723⟩, ⟨0xA732, 31, 2, 0xA733⟩, ⟨0xA779, 2, 2, 0xA77A⟩, ⟨0xA77D, 1, 1, 0x1D79⟩,
   ⟨0xA77E, 5, 2, 0xA77F⟩, ⟨0xA78B, 1, 1, 0xA78C⟩, ⟨0xA78D, 1, 1, 0x265⟩, ⟨0xA790, 2, 2, 0xA791⟩,
   ⟨0xA796, 10, 2, 0xA797⟩, ⟨0xA7AA, 1, 1, 0x266⟩, ⟨0xA7AB, 1, 1, 0x25C⟩, ⟨0xA7AC, 1, 1, 0x261⟩,
   ⟨0xA7AD, 1, 1, 0x26C⟩, ⟨0xA7AE, 1, 1, 0x26A⟩, ⟨0xA7B0, 1, 1, 0x29E⟩, ⟨0xA7B1, 1, 1, 0x287⟩,
   ⟨0xA7B2, 1, 1, 0x29D⟩, ⟨0xA7B3, 1, 1, 0xAB53⟩, ⟨0xA7B4, 6, 2, 0xA7B5⟩, ⟨0xA7C2, 1, 1, 0xA7C3⟩,
   ⟨0xA7C4, 1, 1, 0xA794⟩, ⟨0xA7C5, 1, 1, 0x282⟩, ⟨0xA7C6, 1, 1, 0x1D8E⟩, ⟨0xA7C7, 2, 2, 0xA7C8⟩,
   ⟨0xA7F5, 1, 1, 0xA7F6⟩, ⟨0xFF21, 26, 1, 0xFF41⟩, ⟨0x10400, 40, 1, 0x10428⟩,
   ⟨0x104B0, 36, 1, 0x104D8⟩, ⟨0x10C80, 51, 1, 0x10CC0⟩, ⟨0x118A0, 32, 1, 0x118C0⟩,
   ⟨0x16E40, 32, 1, 0x16E60⟩, ⟨0x1E900, 34, 1, 0x1E922⟩]

def CaseRun.has (run : CaseRun) (n : ℕ) : Bool :=
  run.start ≤ n && (n - run.start) % run.step == 0 && (n - run.start) / run.step < run.count

/-- The number of the lower-case form. -/
def lowerNumber (n : ℕ) : ℕ :=
  match lowerRuns.find? fun run => run.has n with
  | some run => run.form + (n - run.start)
  | none => n

def capitalSigma : CodePoint := codePoint 'Σ'

theorem mod_points (n : ℕ) : n % 0x110000 < 0x110000 := Nat.mod_lt n (by decide)

/-- A number as a code point. -/
def wrapPoint (n : ℕ) : CodePoint := ⟨n % 0x110000, mod_points n⟩

theorem wrapPoint_val (c : CodePoint) : wrapPoint c.val = c :=
  Fin.ext (Nat.mod_eq_of_lt c.isLt)

/-- `_PyUnicode_ToLowerFull`; the capital sigma is left to `lower`. -/
def lowerPoint (c : CodePoint) : PyStr :=
  if c = codePoint 'İ' then [codePoint 'i', codePoint '\u0307']
  else [wrapPoint (lowerNumber c.val)]

/-- The properties of code points that the sigma depends on. -/
structure CaseTables where
  cased : CodePoint → Bool
  caseIgnorable : CodePoint → Bool

/-- `handle_capital_sigma`, for what stands before it, from the nearest on, and behind it. -/
def finalSigma (T : CaseTables) (before after : PyStr) : Bool :=
  (match before.dropWhile T.caseIgnorable with
    | [] => false
    | c :: _ => T.cased c) &&
  (match after.dropWhile T.caseIgnorable with
    | [] => true
    | c :: _ => !T.cased c)

/-- `lower_ucs4` -/
def lowerAt (T : CaseTables) (before : PyStr) (c : CodePoint) (after : PyStr) : PyStr :=
  if c = capitalSigma then [codePoint (if finalSigma T before after then 'ς' else 'σ')]
  else lowerPoint c

/-- `str.lower` of the rest of a string. -/
def lowerFrom (T : CaseTables) (before : PyStr) : PyStr → PyStr
  | [] => []
  | c :: rest => lowerAt T before c rest ++ lowerFrom T (c :: before) rest

/-- `str.lower`. -/
def lower (T : CaseTables) (s : PyStr) : PyStr := lowerFrom T [] s

-- ============================================================================
-- The table
-- ============================================================================

/-- No form of `a` is in `b`: the runs are apart, or they alternate. -/
def CaseRun.apart (a b : CaseRun) : Bool :=
  a.form + (a.count - 1) * a.step < b.start || b.start + (b.count - 1) * b.step < a.form ||
    (b.step == 2 && (a.step == 2 || a.count == 1) && (a.form + b.start) % 2 == 1)

def CaseRun.last (run : CaseRun) : ℕ := run.start + (run.count - 1) * run.step

/-- Fifteen runs of the table at a time, with bounds of their code points. -/
def lowerBlocks : List (ℕ × ℕ × List CaseRun) :=
  (List.range 12).map fun i =>
    let runs := (lowerRuns.drop (15 * i)).take 15
    ((runs.head?.map CaseRun.start).getD 0, (runs.getLast?.map CaseRun.last).getD 0, runs)

theorem mem_lowerBlocks {b : CaseRun} (hb : b ∈ lowerRuns) :
    ∃ block ∈ lowerBlocks, b ∈ block.2.2 := by
  obtain ⟨n, hn, hget⟩ := List.mem_iff_getElem.mp hb
  have hlength : lowerRuns.length = 176 := rfl
  refine ⟨_, List.mem_map.mpr ⟨n / 15, List.mem_range.mpr (by omega), rfl⟩, ?_⟩
  have hdiv := Nat.div_add_mod n 15
  have hmod := Nat.mod_lt n (show 0 < 15 by decide)
  refine List.mem_iff_getElem?.mpr ⟨n % 15, ?_⟩
  rw [List.getElem?_take_of_lt hmod, List.getElem?_drop, hdiv, List.getElem?_eq_getElem hn, hget]

/-- A block out of the reach of the forms needs no look at its runs. -/
theorem lowerBlocks_apart :
    (lowerBlocks.all fun block =>
      (block.2.2.all fun b => Nat.ble block.1 b.start && Nat.ble b.last block.2.1) &&
      lowerRuns.all fun a =>
        Nat.blt (a.form + (a.count - 1) * a.step) block.1 || (Nat.blt block.2.1 a.form ||
          block.2.2.all fun b => a.apart b)) = true := by
  decide +kernel

theorem lowerRuns_apart :
    (lowerRuns.all fun a => lowerRuns.all fun b => a.apart b) = true := by
  refine List.all_eq_true.mpr fun a ha => List.all_eq_true.mpr fun b hb => ?_
  obtain ⟨block, hblock, hmem⟩ := mem_lowerBlocks hb
  have hall := List.all_eq_true.mp lowerBlocks_apart block hblock
  rw [Bool.and_eq_true] at hall
  have hbounds := List.all_eq_true.mp hall.1 b hmem
  have hforms := List.all_eq_true.mp hall.2 a ha
  simp only [Bool.and_eq_true, Bool.or_eq_true, Nat.ble_eq, Nat.blt_eq, CaseRun.last]
    at hbounds hforms
  obtain ⟨hstart, hlast⟩ := hbounds
  rcases hforms with hbefore | hbehind | hruns
  · have hlt : a.form + (a.count - 1) * a.step < b.start := by omega
    rw [CaseRun.apart, decide_eq_true hlt, Bool.true_or, Bool.true_or]
  · have hlt : b.start + (b.count - 1) * b.step < a.form := by omega
    rw [CaseRun.apart, decide_eq_true hlt, Bool.or_true, Bool.true_or]
  · exact List.all_eq_true.mp hruns b hmem

/-- No form is a blank or one of the two special capitals, and no run and no form has a
surrogate. -/
theorem lowerRuns_forms :
    (lowerRuns.all fun a => (List.range a.count).all fun k =>
      let n := a.form + k * a.step
      (n < 0x110000 && n != 0x3A3 && n != 0x130 && !isSpace (wrapPoint n)) &&
        (!surrogate (wrapPoint (a.start + k * a.step)) && !surrogate (wrapPoint n))) = true := by
  decide +kernel

theorem CaseRun.has_iff {run : CaseRun} {n : ℕ} :
    run.has n = true ↔ ∃ k < run.count, n = run.start + k * run.step := by
  rw [has, Bool.and_eq_true, Bool.and_eq_true, decide_eq_true_iff, beq_iff_eq, decide_eq_true_iff]
  constructor
  · rintro ⟨⟨hle, hmod⟩, hlt⟩
    have hdiv := Nat.div_add_mod (n - run.start) run.step
    refine ⟨_, hlt, ?_⟩
    rw [Nat.mul_comm]
    omega
  · rintro ⟨k, hk, rfl⟩
    have hsub : run.start + k * run.step - run.start = k * run.step := by omega
    rw [hsub]
    refine ⟨⟨by omega, Nat.mul_mod_left _ _⟩, ?_⟩
    exact lt_of_le_of_lt (Nat.div_le_of_le_mul (le_of_eq (Nat.mul_comm _ _))) hk

/-- The forms of a run are in no run that is apart from it. -/
theorem CaseRun.apart_has {a b : CaseRun} (h : a.apart b = true) {k : ℕ} (hk : k < a.count) :
    b.has (a.form + k * a.step) = false := by
  rw [Bool.eq_false_iff]
  intro hhas
  obtain ⟨j, hj, heq⟩ := has_iff.mp hhas
  have hka : k * a.step ≤ (a.count - 1) * a.step := Nat.mul_le_mul_right _ (by omega)
  have hjb : j * b.step ≤ (b.count - 1) * b.step := Nat.mul_le_mul_right _ (by omega)
  simp only [apart, Bool.or_eq_true, Bool.and_eq_true, decide_eq_true_iff, beq_iff_eq] at h
  rcases h with (h | h) | ⟨⟨hstep, hone⟩, hodd⟩
  · omega
  · omega
  · rw [hstep] at heq
    rcases hone with htwo | hone
    · rw [htwo] at heq
      omega
    · have hzero : k = 0 := by omega
      subst hzero
      omega

/-- A form is its own lower-case form. -/
theorem lowerNumber_form {run : CaseRun} (hrun : run ∈ lowerRuns) {k : ℕ} (hk : k < run.count) :
    lowerNumber (run.form + k * run.step) = run.form + k * run.step := by
  have hnone : (lowerRuns.find? fun b => b.has (run.form + k * run.step)) = none := by
    rw [List.find?_eq_none]
    intro b hb
    have hall := List.all_eq_true.mp (List.all_eq_true.mp lowerRuns_apart run hrun) b hb
    rw [CaseRun.apart_has hall hk]
    exact Bool.false_ne_true
  rw [lowerNumber, hnone]

-- ============================================================================
-- Lower-case strings
-- ============================================================================

/-- The code point is its own lower-case form. -/
def Settled (c : CodePoint) : Prop := c ≠ capitalSigma ∧ lowerPoint c = [c]

/-- The lower-case form of a code point is settled; it is a blank only for a blank. -/
theorem lowerPoint_spec {c : CodePoint} (hc : c ≠ capitalSigma) :
    lowerPoint c ≠ [] ∧
      ∀ d ∈ lowerPoint c, Settled d ∧ (isSpace c = false → isSpace d = false) := by
  by_cases hdot : c = codePoint 'İ'
  · subst hdot
    have hform : lowerPoint (codePoint 'İ') = [codePoint 'i', codePoint '\u0307'] := rfl
    rw [hform]
    refine ⟨List.cons_ne_nil _ _, fun d hd => ?_⟩
    simp only [List.mem_cons, List.not_mem_nil, or_false] at hd
    rcases hd with rfl | rfl
    · exact ⟨⟨by decide, by decide⟩, fun _ => by decide⟩
    · exact ⟨⟨by decide, by decide⟩, fun _ => by decide⟩
  · have hpoint : lowerPoint c = [wrapPoint (lowerNumber c.val)] := if_neg hdot
    cases hfind : lowerRuns.find? fun run => run.has c.val with
    | none =>
      have hself : lowerPoint c = [c] := by
        rw [hpoint, lowerNumber, hfind]
        exact congrArg (fun d => [d]) (wrapPoint_val c)
      rw [hself]
      refine ⟨List.cons_ne_nil _ _, fun d hd => ?_⟩
      rw [List.mem_singleton.mp hd]
      exact ⟨⟨hc, hself⟩, id⟩
    | some run =>
      have hrun := List.mem_of_find?_eq_some hfind
      have hhas : run.has c.val = true :=
        List.find?_some (p := fun run : CaseRun => run.has c.val) hfind
      obtain ⟨k, hk, hval⟩ := CaseRun.has_iff.mp hhas
      have hnumber : lowerNumber c.val = run.form + k * run.step := by
        rw [lowerNumber, hfind, hval]
        show run.form + (run.start + k * run.step - run.start) = _
        omega
      have hform := List.all_eq_true.mp (List.all_eq_true.mp lowerRuns_forms run hrun) k
        (List.mem_range.mpr hk)
      have hfixed := lowerNumber_form hrun hk
      rw [hpoint, hnumber]
      generalize run.form + k * run.step = n at hform hfixed
      simp only [Bool.and_eq_true, decide_eq_true_iff, bne_iff_ne, Bool.not_eq_true'] at hform
      obtain ⟨⟨⟨⟨hlt, hsigma⟩, hdotted⟩, hspace⟩, -⟩ := hform
      have hvalue : (wrapPoint n).val = n := Nat.mod_eq_of_lt hlt
      refine ⟨List.cons_ne_nil _ _, fun d hd => ?_⟩
      rw [List.mem_singleton.mp hd]
      refine ⟨⟨fun h => hsigma ?_, ?_⟩, fun _ => hspace⟩
      · rw [← hvalue, h]
        rfl
      · have hnot : wrapPoint n ≠ codePoint 'İ' := by
          intro h
          rw [← hvalue, h] at hdotted
          exact hdotted rfl
        rw [lowerPoint, if_neg hnot, hvalue, hfixed]

/-- The lower-case form of a code point is a surrogate only for a surrogate. -/
theorem surrogate_lowerPoint (c : CodePoint) :
    ∀ d ∈ lowerPoint c, surrogate d = surrogate c := by
  intro d hd
  unfold lowerPoint at hd
  split at hd
  · rename_i hdot
    subst hdot
    simp only [List.mem_cons, List.not_mem_nil, or_false] at hd
    rcases hd with rfl | rfl <;> rfl
  · rw [List.mem_singleton.mp hd, lowerNumber]
    cases hfind : lowerRuns.find? fun run => run.has c.val with
    | none => exact congrArg surrogate (wrapPoint_val c)
    | some run =>
      have hhas : run.has c.val = true :=
        List.find?_some (p := fun run : CaseRun => run.has c.val) hfind
      obtain ⟨k, hk, hval⟩ := CaseRun.has_iff.mp hhas
      have hall := List.all_eq_true.mp (List.all_eq_true.mp lowerRuns_forms run
        (List.mem_of_find?_eq_some hfind)) k (List.mem_range.mpr hk)
      obtain ⟨-, hsurrogate⟩ := Bool.and_eq_true_iff.mp hall
      rw [← hval, wrapPoint_val, Bool.and_eq_true, Bool.not_eq_true',
        Bool.not_eq_true'] at hsurrogate
      have hnumber : run.form + (c.val - run.start) = run.form + k * run.step := by omega
      show surrogate (wrapPoint (run.form + (c.val - run.start))) = _
      rw [hnumber, hsurrogate.1, hsurrogate.2]

section Lower

variable {T : CaseTables} {before after s : PyStr} {c : CodePoint}

theorem lowerAt_spec (T : CaseTables) (before : PyStr) (c : CodePoint) (after : PyStr) :
    lowerAt T before c after ≠ [] ∧
      ∀ d ∈ lowerAt T before c after, Settled d ∧ (isSpace c = false → isSpace d = false) := by
  unfold lowerAt
  by_cases hc : c = capitalSigma
  · rw [if_pos hc]
    refine ⟨List.cons_ne_nil _ _, fun d hd => ?_⟩
    rw [List.mem_singleton.mp hd]
    cases finalSigma T before after with
    | true => exact ⟨⟨by decide, by decide⟩, fun _ => by decide⟩
    | false => exact ⟨⟨by decide, by decide⟩, fun _ => by decide⟩
  · rw [if_neg hc]
    exact lowerPoint_spec hc

theorem lowerFrom_settled : ∀ d ∈ lowerFrom T before s, Settled d := by
  induction s generalizing before with
  | nil =>
    intro d hd
    cases hd
  | cons c s ih =>
    intro d hd
    rw [lowerFrom] at hd
    rcases List.mem_append.mp hd with hd | hd
    · exact ((lowerAt_spec T before c s).2 d hd).1
    · exact ih d hd

/-- A string of settled code points is its own lower-case form. -/
theorem lowerFrom_of_settled (h : ∀ c ∈ s, Settled c) : lowerFrom T before s = s := by
  induction s generalizing before with
  | nil => rfl
  | cons c s ih =>
    obtain ⟨hsigma, hself⟩ := h c List.mem_cons_self
    rw [lowerFrom, lowerAt, if_neg hsigma, hself, ih fun d hd => h d (List.mem_cons_of_mem c hd)]
    rfl

/-- `s.lower().lower() == s.lower()` -/
theorem lower_idem (T : CaseTables) (s : PyStr) : lower T (lower T s) = lower T s :=
  lowerFrom_of_settled lowerFrom_settled

theorem lowerFrom_ne_nil (h : s ≠ []) : lowerFrom T before s ≠ [] := by
  cases s with
  | nil => exact absurd rfl h
  | cons c s =>
    rw [lowerFrom]
    exact List.append_ne_nil_of_left_ne_nil (lowerAt_spec T before c s).1 _

theorem lowerFrom_head (h : ∀ c ∈ s.head?, isSpace c = false) :
    ∀ d ∈ (lowerFrom T before s).head?, isSpace d = false := by
  cases s with
  | nil =>
    intro d hd
    cases hd
  | cons c s =>
    obtain ⟨hne, hspec⟩ := lowerAt_spec T before c s
    intro d hd
    rw [lowerFrom, List.head?_append_of_ne_nil _ hne] at hd
    exact (hspec d (List.mem_of_mem_head? hd)).2 (h c rfl)

theorem lowerFrom_getLast (h : ∀ c ∈ s.getLast?, isSpace c = false) :
    ∀ d ∈ (lowerFrom T before s).getLast?, isSpace d = false := by
  induction s generalizing before with
  | nil =>
    intro d hd
    cases hd
  | cons c s ih =>
    intro d hd
    rw [lowerFrom] at hd
    by_cases hs : s = []
    · subst hs
      rw [lowerFrom, List.append_nil] at hd
      exact ((lowerAt_spec T before c []).2 d (List.mem_of_getLast? hd)).2 (h c rfl)
    · rw [List.getLast?_append_of_ne_nil _ (lowerFrom_ne_nil hs)] at hd
      refine ih (fun e he => h e ?_) d hd
      rw [List.getLast?_cons_of_ne_nil hs]
      exact he

/-- The lower-case form of a stripped string has nothing to strip. -/
theorem strip_lower (T : CaseTables) {s : PyStr} (h : strip s = s) :
    strip (lower T s) = lower T s := by
  refine stripBy_eq_self (lowerFrom_head fun c hc => ?_) (lowerFrom_getLast fun c hc => ?_)
  · rw [← h] at hc
    exact stripBy_head isSpace s c hc
  · rw [← h] at hc
    exact stripBy_getLast isSpace s c hc

theorem surrogate_lowerAt : ∀ d ∈ lowerAt T before c after, surrogate d = surrogate c := by
  unfold lowerAt
  split
  · rename_i hc
    subst hc
    intro d hd
    rw [List.mem_singleton.mp hd]
    split <;> rfl
  · exact surrogate_lowerPoint c

theorem encodable_lowerFrom :
    encodable (lowerFrom T before s) = true ↔ encodable s = true := by
  induction s generalizing before with
  | nil => rfl
  | cons c s ih =>
    have hat : encodable (lowerAt T before c s) = true ↔ surrogate c = false := by
      rw [encodable_iff]
      refine ⟨fun h => ?_, fun h d hd => (surrogate_lowerAt d hd).trans h⟩
      obtain ⟨d, hd⟩ := List.exists_mem_of_ne_nil _ (lowerAt_spec T before c s).1
      rw [← surrogate_lowerAt d hd, h d hd]
    rw [lowerFrom, encodable_append, hat, ih, encodable_iff, encodable_iff, List.forall_mem_cons]

/-- The lower-case form has a surrogate if and only if the string has one. -/
theorem encodable_lower (T : CaseTables) (s : PyStr) :
    encodable (lower T s) = true ↔ encodable s = true := encodable_lowerFrom

theorem lower_ne_nil (T : CaseTables) {s : PyStr} (h : s ≠ []) : lower T s ≠ [] :=
  lowerFrom_ne_nil h

end Lower

end Babycat.Text
