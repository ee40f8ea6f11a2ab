/-
  Babycat.Time.Zone

  Local time: a UTC offset for every second, and `time.mktime`.

  A wall-clock time that the rule repeats has several instants and `mktime`
  picks one of them; where the rule skips one there is none and `mktime` is free.
-/

import Babycat.Time.Strptime
import Mathlib.Data.Int.ConditionallyCompleteOrder
import Mathlib.Order.ConditionallyCompleteLattice.Basic

namespace Babycat.Time

structure Zone where
  offset : ℤ → ℤ
  offset_range : ∀ n, -86400 < offset n ∧ offset n < 86400
  mktime : ℤ → ℤ
  /-- The instant of a wall-clock time that exists. -/
  wall_mktime : ∀ n, mktime (n + offset n) + offset (mktime (n + offset n)) = n + offset n

namespace Zone

/-- `time.localtime`, in seconds of the wall clock. -/
def localtime (z : Zone) (n : ℤ) : ℤ := n + z.offset n

/-- `mktime` takes the wall-clock time of `n` back to `n`. -/
def Picks (z : Zone) (n : ℤ) : Prop := z.mktime (z.localtime n) = n

instance (z : Zone) (n : ℤ) : Decidable (z.Picks n) := inferInstanceAs (Decidable (_ = _))

theorem localtime_mktime (z : Zone) (n : ℤ) :
    z.localtime (z.mktime (z.localtime n)) = z.localtime n := z.wall_mktime n

/-- A wall-clock time that comes once. -/
theorem picks_of_unique {z : Zone} {n : ℤ} (h : ∀ m, z.localtime m = z.localtime n → m = n) :
    z.Picks n := h _ (z.localtime_mktime n)

/-- No backward transition: the wall clock never goes back. -/
theorem picks_of_strictMono {z : Zone} (h : StrictMono z.localtime) (n : ℤ) : z.Picks n :=
  picks_of_unique fun _ hm => h.injective hm

/-- The year of a time after 1970-01-01 has at least four digits. -/
theorem fourDigits_iff (z : Zone) {n : ℤ} (h : 0 ≤ n) :
    FourDigits (DateTime.ofSeconds (z.localtime n)).date.year ↔
      (DateTime.ofSeconds (z.localtime n)).date.year ≤ 9999 := by
  have hoffset := z.offset_range n
  obtain ⟨-, hspec⟩ := eraDay_spec (z.localtime n / 86400)
  obtain ⟨-, hyear⟩ := Date.ofDays_spec (z.localtime n / 86400)
  have hyear' : 1000 ≤ (DateTime.ofSeconds (z.localtime n)).date.year := by
    show 1000 ≤ (Date.ofDays (z.localtime n / 86400)).year
    simp only [marchYear] at hyear
    simp only [localtime] at *
    omega
  exact ⟨fun hfour => hfour.2, fun hle => ⟨hyear', hle⟩⟩

/-- The same offset all the time. -/
def fixed (offset : ℤ) (h : -86400 < offset ∧ offset < 86400) : Zone where
  offset _ := offset
  offset_range _ := h
  mktime wall := wall - offset
  wall_mktime n := by omega

theorem fixed_strictMono (offset : ℤ) (h : -86400 < offset ∧ offset < 86400) :
    StrictMono (fixed offset h).localtime := fun _ _ hlt => Int.add_lt_add_right hlt offset

/-- The clock goes back from `before` to `after` at `transition`; `mktime` picks the first pass of
    what is repeated. -/
def setBack (transition before after : ℤ) (hback : after ≤ before)
    (h : -86400 < after ∧ before < 86400) : Zone where
  offset n := if n < transition then before else after
  offset_range n := by split <;> omega
  mktime wall := if wall - before < transition then wall - before else wall - after
  wall_mktime n := by
    split <;> split <;> (try split) <;> omega

theorem one_hour_back : (3600 : ℤ) ≤ 7200 := by decide

theorem two_hours_in_range : -86400 < (3600 : ℤ) ∧ (7200 : ℤ) < 86400 := by decide

end Zone

end Babycat.Time
