/-
  Babycat.Conc.Wakeup

  Subscribers that are woken by a signal after a value has changed.

  A writer changes the value, then puts a signal for every registered
  subscriber, one after the other.  A place for signals holds one: a signal that
  is already there takes the next one in.  A subscriber waits for its signal (or
  gives up waiting), takes it, and only then reads the value that it passes on.

  `Wakeup.Inv` says that nothing is lost: what a waiting subscriber has passed on
  is the value there is, or its signal is there, or some writer is still to put
  it.  With no writer at work and no signal it is the value there is
  (`Wakeup.Fresh.settled`).
-/

import Babycat.Conc.Pool

namespace Babycat.Conc

universe u

namespace Wakeup

variable {β : Type u}

/-- The value and the registered subscribers, each with whether its signal is there. -/
structure View (β : Type u) where
  value : β
  places : List (ℕ × Bool)

/-- What a thread is doing about them. -/
inductive Phase (β : Type u)
  | quiet
  /-- Has changed the value and is about to put the signals. -/
  | toPush
  | pushing (rest : List ℕ)
  /-- Waits for its signal, and has passed on `seen`. -/
  | waiting (seen : Option β)
  /-- Has taken its signal or given up, and is about to read. -/
  | reading
  /-- Has read `b` and is about to pass it on. -/
  | holding (b : β)

namespace View

variable (v : View β)

def registered : List ℕ := v.places.map Prod.fst

def Signalled (i : ℕ) : Prop := (i, true) ∈ v.places

/-- The signal of `i` becomes `full`. -/
def setSignal (i : ℕ) (full : Bool) : View β :=
  { v with places := v.places.map fun p => if p.1 = i then (p.1, full) else p }

def add (i : ℕ) : View β := { v with places := v.places ++ [(i, false)] }

def remove (i : ℕ) : View β := { v with places := v.places.filter fun p => p.1 ≠ i }

@[simp] theorem setSignal_value (i : ℕ) (full : Bool) : (v.setSignal i full).value = v.value := rfl

@[simp] theorem setSignal_registered (i : ℕ) (full : Bool) :
    (v.setSignal i full).registered = v.registered := by
  rw [registered, registered, setSignal, List.map_map]
  refine List.map_congr_left fun p _ => ?_
  show (if p.1 = i then (p.1, full) else p).1 = p.1
  split <;> rfl

theorem setSignal_self {i : ℕ} (h : i ∈ v.registered) : (v.setSignal i true).Signalled i := by
  obtain ⟨p, hp, rfl⟩ := List.mem_map.mp h
  exact List.mem_map.mpr ⟨p, hp, if_pos rfl⟩

theorem setSignal_true {i j : ℕ} (h : v.Signalled j) : (v.setSignal i true).Signalled j := by
  refine List.mem_map.mpr ⟨(j, true), h, ?_⟩
  show (if j = i then (j, true) else (j, true)) = (j, true)
  rw [ite_self]

theorem setSignal_other {i j : ℕ} {full : Bool} (hne : j ≠ i) (h : v.Signalled j) :
    (v.setSignal i full).Signalled j :=
  List.mem_map.mpr ⟨(j, true), h, if_neg hne⟩

theorem add_registered (i : ℕ) : (v.add i).registered = v.registered ++ [i] := by
  rw [registered, add, List.map_append]
  rfl

theorem add_signalled {i j : ℕ} (h : v.Signalled j) : (v.add i).Signalled j :=
  List.mem_append_left _ h

theorem remove_registered {i j : ℕ} (hne : j ≠ i) (h : j ∈ v.registered) :
    j ∈ (v.remove i).registered := by
  obtain ⟨p, hp, rfl⟩ := List.mem_map.mp h
  exact List.mem_map.mpr ⟨p, List.mem_filter.mpr ⟨hp, decide_eq_true hne⟩, rfl⟩

theorem remove_signalled {i j : ℕ} (hne : j ≠ i) (h : v.Signalled j) :
    (v.remove i).Signalled j :=
  List.mem_filter.mpr ⟨h, decide_eq_true hne⟩

end View

/-- A thread in this phase is still to put the signal of `i`. -/
def Phase.Signals (i : ℕ) : Phase β → Prop
  | .toPush => True
  | .pushing rest => i ∈ rest
  | _ => False

/-- One step of thread `i`. -/
inductive Step (i : ℕ) : View β → Phase β → View β → Phase β → Prop
  /-- Something else, the value unchanged. -/
  | stay (v : View β) (p : Phase β) : Step i v p v p
  | write (v : View β) (b : β) : Step i v .quiet { v with value := b } .toPush
  | begin (v : View β) : Step i v .toPush v (.pushing v.registered)
  | put (v : View β) (q : ℕ) (rest : List ℕ) :
      Step i v (.pushing (q :: rest)) (v.setSignal q true) (.pushing rest)
  | done (v : View β) : Step i v (.pushing []) v .quiet
  | subscribe (v : View β) : Step i v .quiet (v.add i) (.waiting none)
  | take (v : View β) (seen : Option β) :
      Step i v (.waiting seen) (v.setSignal i false) .reading
  | giveUp (v : View β) (seen : Option β) : Step i v (.waiting seen) v .reading
  | read (v : View β) : Step i v .reading v (.holding v.value)
  | pass (v : View β) (b : β) : Step i v (.holding b) v (.waiting (some b))
  /-- Gives up passing it on. -/
  | abandon (v : View β) (b : β) : Step i v (.holding b) v .reading
  | unsubscribe (v : View β) (p : Phase β) (h : ∀ j, ¬p.Signals j) :
      Step i v p (v.remove i) .quiet

/-- `b` is the value there is, or subscriber `i` is going to be woken. -/
def Fresh (v : View β) (l : List (Phase β)) (i : ℕ) (b : β) : Prop :=
  b = v.value ∨ v.Signalled i ∨ ∃ p ∈ l, p.Signals i

/-- What holds of thread `i` in its phase. -/
def Knows (v : View β) (l : List (Phase β)) (i : ℕ) : Phase β → Prop
  | .waiting seen => i ∈ v.registered ∧ ∀ b, seen = some b → Fresh v l i b
  | .reading => i ∈ v.registered
  | .holding b => i ∈ v.registered ∧ Fresh v l i b
  | _ => True

/-- No change of the value is lost on a subscriber. -/
def Inv (v : View β) (l : List (Phase β)) : Prop :=
  ∀ i p, l[i]? = some p → Knows v l i p

variable {v v' : View β} {l : List (Phase β)} {i j : ℕ} {p p' : Phase β} {b : β}

/-- With nobody to put a signal and no signal, `b` is the value there is. -/
theorem Fresh.settled (h : Fresh v l i b) (hsignal : ¬v.Signalled i)
    (hquiet : ∀ p ∈ l, ¬p.Signals i) : b = v.value := by
  rcases h with hvalue | hthere | ⟨p, hp, hsignals⟩
  · exact hvalue
  · exact absurd hthere hsignal
  · exact absurd hsignals (hquiet p hp)

/-- A step of thread `i` keeps what subscriber `j`, another one, has passed on fresh. -/
theorem Fresh.step (hs : Step i v p v' p') (hi : l[i]? = some p) (hne : j ≠ i)
    (hreg : j ∈ v.registered) (h : Fresh v l j b) : Fresh v' (l.set i p') j b := by
  have hmoved : p' ∈ l.set i p' := mem_set_self hi
  -- a writer other than the thread that moves is still there
  have hothers : ¬p.Signals j → (∃ q ∈ l, q.Signals j) → ∃ q ∈ l.set i p', q.Signals j :=
    fun hp hq => exists_mem_set hi hq hp
  cases hs with
  | stay =>
    refine h.imp_right (Or.imp_right fun hq => ?_)
    exact exists_mem_move hi hq id fun _ => id
  | write c => exact .inr (.inr ⟨_, hmoved, trivial⟩)
  | begin => exact .inr (.inr ⟨_, hmoved, hreg⟩)
  | put q rest =>
    rcases h with hvalue | hthere | ⟨w, hw, hsignals⟩
    · exact .inl hvalue
    · exact .inr (.inl (v.setSignal_true hthere))
    · by_cases hq : j = q
      · subst hq
        exact .inr (.inl (v.setSignal_self hreg))
      · refine .inr (.inr (exists_mem_move hi ⟨w, hw, hsignals⟩ ?_ fun _ => id))
        intro hmem
        exact (List.mem_cons.mp hmem).resolve_left hq
  | done => exact h.imp_right (Or.imp_right (hothers List.not_mem_nil))
  | subscribe => exact h.imp_right (Or.imp v.add_signalled (hothers id))
  | take seen => exact h.imp_right (Or.imp (v.setSignal_other hne) (hothers id))
  | giveUp seen | read | pass c | abandon c => exact h.imp_right (Or.imp_right (hothers id))
  | unsubscribe _ hp => exact h.imp_right (Or.imp (v.remove_signalled hne) (hothers (hp j)))

/-- A step of thread `i` leaves another subscriber registered. -/
theorem registered_step (hs : Step i v p v' p') (hne : j ≠ i) (hreg : j ∈ v.registered) :
    j ∈ v'.registered := by
  cases hs with
  | put q rest => rwa [v.setSignal_registered]
  | subscribe =>
    rw [v.add_registered]
    exact List.mem_append_left _ hreg
  | take seen => rwa [v.setSignal_registered]
  | unsubscribe => exact v.remove_registered hne hreg
  | stay | write | begin | done | giveUp | read | pass | abandon => exact hreg

/-- What is known of another thread stays true. -/
theorem Knows.others {q : Phase β} (hs : Step i v p v' p') (hi : l[i]? = some p) (hne : j ≠ i)
    (h : Knows v l j q) : Knows v' (l.set i p') j q := by
  cases q with
  | waiting seen =>
    obtain ⟨hreg, hseen⟩ := h
    exact ⟨registered_step hs hne hreg, fun b hb => (hseen b hb).step hs hi hne hreg⟩
  | reading => exact registered_step hs hne h
  | holding b =>
    obtain ⟨hreg, hfresh⟩ := h
    exact ⟨registered_step hs hne hreg, hfresh.step hs hi hne hreg⟩
  | quiet | toPush | pushing rest => trivial

/-- What is known of the thread that moves, after its step. -/
theorem Knows.own (hs : Step i v p v' p') (hi : l[i]? = some p) (h : Knows v l i p) :
    Knows v' (l.set i p') i p' := by
  cases hs with
  | stay =>
    obtain ⟨hlt, hget⟩ := List.getElem?_eq_some_iff.mp hi
    have hsame : l.set i p = l := by rw [← hget, List.set_getElem_self]
    rwa [hsame]
  | subscribe =>
    refine ⟨?_, fun b hb => nomatch hb⟩
    rw [v.add_registered]
    exact List.mem_append_right _ List.mem_cons_self
  | take seen =>
    show i ∈ (v.setSignal i false).registered
    rw [v.setSignal_registered]
    exact h.1
  | giveUp seen | abandon c => exact h.1
  | read => exact ⟨h, .inl rfl⟩
  | pass b =>
    obtain ⟨hreg, hfresh⟩ := h
    refine ⟨hreg, fun c hc => ?_⟩
    cases hc
    exact hfresh.imp_right (Or.imp_right fun hw => exists_mem_set hi hw id)
  | write | begin | put | done | unsubscribe => trivial

/-- Every step keeps the invariant. -/
theorem Inv.step (hs : Step i v p v' p') (hi : l[i]? = some p) (h : Inv v l) :
    Inv v' (l.set i p') := by
  intro j q hj
  rcases getElem?_set_cases hi hj with ⟨rfl, rfl⟩ | ⟨hne, hj⟩
  · exact (h j p hi).own hs hi
  · exact (h j q hj).others hs hi hne

/-- A thread that is not about to do anything joins. -/
theorem Inv.enter (h : Inv v l) : Inv v (l ++ [.quiet]) := by
  intro j q hj
  rcases getElem?_append_cases hj with hj | ⟨-, rfl⟩
  · have hgrown : ∀ {b}, Fresh v l j b → Fresh v (l ++ [.quiet]) j b := fun hb =>
      hb.imp_right (Or.imp_right fun ⟨w, hw, hsignals⟩ => ⟨w, List.mem_append_left _ hw, hsignals⟩)
    have hknown := h j q hj
    cases q with
    | waiting seen => exact ⟨hknown.1, fun b hb => hgrown (hknown.2 b hb)⟩
    | holding b => exact ⟨hknown.1, hgrown hknown.2⟩
    | quiet | toPush | pushing | reading => exact hknown
  · trivial

end Wakeup

end Babycat.Conc
