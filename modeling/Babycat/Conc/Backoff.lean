/-
  Babycat.Conc.Backoff

  Delays that double with every failure in a row, up to a cap.

  `after n` is the delay after `n` failures in a row.  A loop that keeps the
  delay in a variable and lets it grow holds `after` of the number of times it
  did since it was put back to the base (`grow_after`, `wait_cons`), so what it
  waits is at least the base (`base_le_after`), at most the cap (`grow_le_cap`),
  and does not fall while it fails (`after_mono`).
-/

import Mathlib.Algebra.Order.Field.Rat
import Mathlib.Algebra.Order.Field.Basic
import Mathlib.Algebra.Order.Ring.Pow
import Mathlib.Tactic.Linarith

namespace Babycat.Conc

/-- The first delay and the longest one. -/
structure Backoff where
  base : ℚ
  cap : ℚ
  pos : 0 < base
  le : base ≤ cap

namespace Backoff

variable (b : Backoff) {m n : ℕ}

/-- The delay that follows `d`. -/
def grow (d : ℚ) : ℚ := min (d * 2) b.cap

/-- The delay after `n` failures in a row. -/
def after (n : ℕ) : ℚ := min (b.base * 2 ^ n) b.cap

theorem after_zero : b.after 0 = b.base := by
  rw [after, pow_zero, mul_one]
  exact min_eq_left b.le

/-- A delay that has reached the cap stays there. -/
theorem grow_after (n : ℕ) : b.grow (b.after n) = b.after (n + 1) := by
  have hpos := b.pos
  have hle := b.le
  have hpow : b.base * 2 ^ (n + 1) = b.base * 2 ^ n * 2 := by rw [pow_succ, mul_assoc]
  rw [grow, after, after, hpow]
  rcases le_total (b.base * 2 ^ n) b.cap with hbelow | habove
  · rw [min_eq_left hbelow]
  · have hdouble : b.cap ≤ b.cap * 2 := by linarith
    have hfar : b.cap ≤ b.base * 2 ^ n * 2 := by linarith
    rw [min_eq_right habove, min_eq_right hdouble, min_eq_right hfar]

theorem grow_mono {d d' : ℚ} (h : d ≤ d') : b.grow d ≤ b.grow d' :=
  min_le_min_right _ (mul_le_mul_of_nonneg_right h zero_le_two)

theorem grow_le_cap (d : ℚ) : b.grow d ≤ b.cap := min_le_right _ _

theorem after_mono (h : m ≤ n) : b.after m ≤ b.after n := by
  have hpow : (2 : ℚ) ^ m ≤ 2 ^ n := pow_le_pow_right₀ one_le_two h
  exact min_le_min_right _ (mul_le_mul_of_nonneg_left hpow b.pos.le)

theorem base_le_after (n : ℕ) : b.base ≤ b.after n := by
  have hmono := b.after_mono (Nat.zero_le n)
  rwa [b.after_zero] at hmono

/-! ## A loop of attempts

The attempts are listed with the newest first, `true` for one that did well.  The loop puts its
variable back after an attempt that did well, waits for what the variable holds, and lets it
grow. -/

/-- How many attempts came after the last that did well, or after the first. -/
def level : List Bool → ℕ
  | [] => 0
  | [_] => 0
  | good :: older => if good then 0 else level older + 1

theorem level_cons_cons (good previous : Bool) (older : List Bool) :
    level (good :: previous :: older) = if good then 0 else level (previous :: older) + 1 := rfl

/-- What the loop waits for after the newest attempt. -/
def wait (attempts : List Bool) : ℚ := b.after (level attempts)

/-- What the variable holds before the next attempt. -/
def held : List Bool → ℚ
  | [] => b.base
  | attempts => b.grow (b.wait attempts)

theorem held_cons (good : Bool) (older : List Bool) :
    b.held (good :: older) = b.grow (b.wait (good :: older)) := rfl

/-- The loop waits for what the variable holds, or for the base. -/
theorem wait_cons (good : Bool) (older : List Bool) :
    b.wait (good :: older) = if good then b.base else b.held older := by
  cases older with
  | nil =>
      have hfirst : b.wait [good] = b.base := b.after_zero
      rw [hfirst]
      split <;> rfl
  | cons previous older =>
      rw [held_cons, wait, wait, grow_after, level_cons_cons]
      split
      · exact b.after_zero
      · rfl

end Backoff

end Babycat.Conc
