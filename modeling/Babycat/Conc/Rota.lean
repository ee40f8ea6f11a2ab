/-
  Babycat.Conc.Rota

  Walks around a list: an index that only grows is taken modulo the length.

  `walk l a k` is what `k` steps from index `a` on visit.  As many consecutive
  visits as `l` has elements are a rotation of it (`walk_window`), so each
  element of the list is visited once in them.
-/

import Mathlib.Data.List.Rotate
import Mathlib.Data.Nat.Notation

namespace Babycat.Conc

universe u

/-- A list with a first element. -/
structure Rota (α : Type u) where
  items : List α
  nonempty : items ≠ []
  deriving DecidableEq

variable {α : Type u}

namespace Rota

variable (l : Rota α)

theorem index_lt (n : ℕ) : n % l.items.length < l.items.length :=
  Nat.mod_lt n (List.length_pos_iff.mpr l.nonempty)

/-- The element that index `n` comes down to. -/
def visit (n : ℕ) : α := l.items.get ⟨n % l.items.length, l.index_lt n⟩

theorem visit_mem (n : ℕ) : l.visit n ∈ l.items := List.get_mem _ _

/-- What `k` steps from index `a` on visit. -/
def walk (a k : ℕ) : List α := (List.range k).map fun j => l.visit (a + j)

/-- One more step visits the element of the next index. -/
theorem walk_succ (a k : ℕ) : l.walk a (k + 1) = l.walk a k ++ [l.visit (a + k)] := by
  rw [walk, List.range_succ, List.map_append]
  rfl

theorem walk_getElem? {a k j : ℕ} (h : j < k) : (l.walk a k)[j]? = some (l.visit (a + j)) := by
  rw [walk, List.getElem?_map, List.getElem?_range h, Option.map_some]

/-- As many consecutive visits as there are elements: the list itself, from some element on. -/
theorem walk_window {a k b : ℕ} (h : b + l.items.length ≤ k) :
    ((l.walk a k).drop b).take l.items.length = l.items.rotate (a + b) := by
  apply List.ext_getElem?
  intro j
  by_cases hj : j < l.items.length
  · have hindex : b + j < k := by omega
    have hsum : a + (b + j) = j + (a + b) := by omega
    rw [List.getElem?_take_of_lt hj, List.getElem?_drop, l.walk_getElem? hindex,
      List.getElem?_rotate hj, visit, List.get_eq_getElem, hsum,
      List.getElem?_eq_getElem (l.index_lt _)]
  · have htake : (((l.walk a k).drop b).take l.items.length).length ≤ j := by
      rw [List.length_take]
      omega
    have hrotate : (l.items.rotate (a + b)).length ≤ j := by
      rw [List.length_rotate]
      omega
    rw [List.getElem?_eq_none htake, List.getElem?_eq_none hrotate]

/-- They visit every element of the list once. -/
theorem walk_window_perm {a k b : ℕ} (h : b + l.items.length ≤ k) :
    (((l.walk a k).drop b).take l.items.length).Perm l.items := by
  rw [l.walk_window h]
  exact List.rotate_perm _ _

end Rota

end Babycat.Conc
