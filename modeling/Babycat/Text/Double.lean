/-
  Babycat.Text.Double

  Python's `float`: binary64, by the position of a number among the others.

  The magnitudes are numbered in their order, which is the order of the bit
  patterns: position `n` has the exponent `n / 2^52` and the fraction
  `n % 2^52`.  In units of the smallest one, `2^-1074`, all are natural numbers
  (`units`), so that a decimal is rounded with natural numbers only.
-/

import Mathlib.Data.Nat.Notation
import Mathlib.Order.Monotone.Basic
import Mathlib.Tactic.Ring
import Mathlib.Tactic.Positivity

namespace Babycat.Text

-- ============================================================================
-- Magnitudes
-- ============================================================================

/-- The magnitude at a position, in units of `2^-1074`. -/
def units (n : ℕ) : ℕ :=
  if n / 2 ^ 52 = 0 then n else (2 ^ 52 + n % 2 ^ 52) * 2 ^ (n / 2 ^ 52 - 1)

/-- The position of infinity. -/
def infinityAt : ℕ := 2047 * 2 ^ 52

/-- Each magnitude is larger than the one before. -/
theorem units_lt_succ (n : ℕ) : units n < units (n + 1) := by
  unfold units
  have hdiv := Nat.div_add_mod n (2 ^ 52)
  have hmod := Nat.mod_lt n (show 0 < 2 ^ 52 by decide)
  generalize n / 2 ^ 52 = e, n % 2 ^ 52 = m at hdiv hmod
  by_cases hlast : m + 1 = 2 ^ 52
  · -- the first one of the next exponent
    have hnext : n + 1 = 2 ^ 52 * (e + 1) := by rw [← hdiv, ← hlast]; ring
    rw [hnext, Nat.mul_div_cancel_left _ (by decide), Nat.mul_mod_right,
      if_neg (Nat.succ_ne_zero e)]
    by_cases he : e = 0
    · subst he
      simp only [if_true]
      omega
    · rw [if_neg he]
      obtain ⟨e, rfl⟩ := Nat.exists_eq_succ_of_ne_zero he
      have hpow : 0 < 2 ^ e := by positivity
      calc (2 ^ 52 + m) * 2 ^ (e + 1 - 1) < (2 ^ 52 + (m + 1)) * 2 ^ e := by
            rw [Nat.add_sub_cancel]
            exact Nat.mul_lt_mul_of_pos_right (by omega) hpow
        _ = (2 ^ 52 + 0) * 2 ^ (e + 1 + 1 - 1) := by
            rw [hlast, Nat.add_sub_cancel, pow_succ]
            ring
  · have hsplit : n + 1 = m + 1 + 2 ^ 52 * e := by omega
    have hmod' : m + 1 < 2 ^ 52 := by omega
    rw [hsplit, Nat.add_mul_div_left _ _ (by decide), Nat.add_mul_mod_self_left,
      Nat.div_eq_of_lt hmod', Nat.mod_eq_of_lt hmod', Nat.zero_add]
    by_cases he : e = 0
    · rw [if_pos he, if_pos he]
      omega
    · rw [if_neg he, if_neg he]
      exact Nat.mul_lt_mul_of_pos_right (by omega) (by positivity)

theorem units_strictMono : StrictMono units := strictMono_nat_of_lt_succ units_lt_succ

-- ============================================================================
-- Rounding
-- ============================================================================

/-- The last position from `base` on, and less than `2^bits` after it, whose magnitude is at most
    `num / den` units. -/
def floorFrom (num den : ℕ) : ℕ → ℕ → ℕ
  | 0, base => base
  | bits + 1, base =>
      if units (base + 2 ^ bits) * den ≤ num then floorFrom num den bits (base + 2 ^ bits)
      else floorFrom num den bits base

/-- The position nearest to `num / den` units, the even one of two; from the middle of the last
    finite number and `2^1024` on it is infinity. -/
def nearest (num den : ℕ) : ℕ :=
  let n := floorFrom num den 63 0
  let middle := (units n + units (n + 1)) * den
  if infinityAt ≤ n then infinityAt
  else if 2 * num < middle then n
  else if middle < 2 * num then n + 1
  else if n % 2 = 0 then n
  else n + 1

theorem floorFrom_units {den n : ℕ} (hden : 0 < den) {bits base : ℕ} (hbase : base ≤ n)
    (hn : n < base + 2 ^ bits) : floorFrom (units n * den) den bits base = n := by
  induction bits generalizing base with
  | zero =>
    rw [floorFrom]
    omega
  | succ bits ih =>
    have hle : units (base + 2 ^ bits) * den ≤ units n * den ↔ base + 2 ^ bits ≤ n := by
      rw [Nat.mul_le_mul_right_iff hden, units_strictMono.le_iff_le]
    rw [floorFrom]
    rw [pow_succ] at hn
    by_cases h : base + 2 ^ bits ≤ n
    · rw [if_pos (hle.mpr h)]
      exact ih h (by omega)
    · rw [if_neg (fun hle' => h (hle.mp hle'))]
      exact ih hbase (by omega)

/-- A magnitude is the nearest one to itself. -/
theorem nearest_units {den n : ℕ} (hden : 0 < den) (hn : n ≤ infinityAt) :
    nearest (units n * den) den = n := by
  have hlt : n < 0 + 2 ^ 63 := lt_of_le_of_lt hn (by decide)
  have hmiddle : 2 * (units n * den) < (units n + units (n + 1)) * den := by
    have := Nat.mul_lt_mul_of_pos_right (units_lt_succ n) hden
    rw [Nat.add_mul]
    omega
  rw [nearest, floorFrom_units hden (Nat.zero_le n) hlt]
  by_cases h : infinityAt ≤ n
  · rw [if_pos h]
    exact le_antisymm h hn
  · rw [if_neg h, if_pos hmiddle]

theorem nearest_le (num den : ℕ) : nearest num den ≤ infinityAt := by
  simp only [nearest]
  split_ifs <;> omega

-- ============================================================================
-- Numbers
-- ============================================================================

/-- A `float`. -/
inductive Double
  | nan
  /-- The magnitude at a position, and its sign. -/
  | number (negative : Bool) (n : ℕ) (le : n ≤ infinityAt)
  deriving DecidableEq

/-- `math.isfinite`. -/
def Double.isFinite : Double → Bool
  | .nan => false
  | .number _ n _ => n != infinityAt

/-- `float(text)` for `digits * 10^exponent` with a sign. -/
def Double.ofDecimal (negative : Bool) (digits : ℕ) (exponent : ℤ) : Double :=
  .number negative (nearest (digits * 10 ^ exponent.toNat * 2 ^ 1074) (10 ^ (-exponent).toNat))
    (nearest_le _ _)

example : Double.ofDecimal false 1 999 = .number false infinityAt le_rfl := by decide +kernel

end Babycat.Text
