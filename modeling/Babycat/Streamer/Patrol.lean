/-
  Babycat.Streamer.Patrol

  The auto patrol (`ptz.py`: `patrol_loop`, `set_patrol`, `absolute_move`) next
  to the other threads that set what it reads.

  A critical section of `_lock` and a reading of the clock are one step each,
  and what a thread computes between two of them belongs to the first.  Times
  are exact.  What follows `Thread.start()` in `set_patrol` only reads, so the
  thread that is started takes the place of the one that starts it.

  The state keeps what has happened so far: the moves that iterations of the
  loop have begun, the iterations that have found a manual move, and the
  absolute moves that have been issued to the camera.
-/

import Babycat.Conc.Rota
import Babycat.Conc.Pool
import Babycat.Recorder.Payload
import Mathlib.Data.List.Sort

namespace Babycat.Patrol

open Babycat.Conc
open Babycat.Recorder (PyFloat)

-- ============================================================================
-- The shared state
-- ============================================================================

/-- Pan and tilt. -/
abbrev Position := PyFloat × PyFloat

/-- `_presets` -/
structure PresetTable where
  entries : List (ℤ × Position)
  nodup : (entries.map Prod.fst).Nodup
  deriving DecidableEq

namespace PresetTable

variable (m : PresetTable)

def get (slot : ℤ) : Option Position := m.entries.lookup slot

/-- `sorted(_presets)` -/
def sorted : List ℤ := (m.entries.map Prod.fst).insertionSort (· ≤ ·)

/-- The slots to go through, if there are any. -/
def slots : Option (Rota ℤ) := if h : m.sorted = [] then none else some ⟨m.sorted, h⟩

variable {m}

theorem slots_eq_some {slots : Rota ℤ} (h : m.slots = some slots) :
    slots.items = m.sorted := by
  rw [PresetTable.slots] at h
  split_ifs at h
  cases h
  rfl

/-- No slot is gone through twice in a round. -/
theorem slots_nodup {slots : Rota ℤ} (h : m.slots = some slots) : slots.items.Nodup := by
  rw [slots_eq_some h]
  exact (List.perm_insertionSort _ _).nodup_iff.mpr m.nodup

/-- A slot that the loop goes through has a preset. -/
theorem get_of_slots {slots : Rota ℤ} {slot : ℤ} (h : m.slots = some slots)
    (hslot : slot ∈ slots.items) : ∃ p, m.get slot = some p := by
  rw [slots_eq_some h, sorted, List.mem_insertionSort] at hslot
  obtain ⟨entry, hentry, hkey⟩ := List.mem_map.mp hslot
  cases hget : m.get slot with
  | some p => exact ⟨p, rfl⟩
  | none =>
    have hne := List.lookup_eq_none_iff.mp hget entry hentry
    rw [hkey, bne_self_eq_false] at hne
    cases hne

theorem slots_ne_none {slot : ℤ} {p : Position} (h : m.get slot = some p) : m.slots ≠ none := by
  intro hnone
  rw [slots] at hnone
  split_ifs at hnone with hempty
  have hperm := List.perm_insertionSort (· ≤ ·) (m.entries.map Prod.fst)
  rw [sorted] at hempty
  rw [hempty] at hperm
  have hentries : m.entries = [] := List.map_eq_nil_iff.mp hperm.nil_eq.symm
  rw [get, hentries] at h
  cases h

end PresetTable

/-- `interval_s` is never below `PATROL_MIN_INTERVAL_S`. -/
structure Interval where
  seconds : ℤ
  atLeast : 5 ≤ seconds
  deriving DecidableEq

/-- `max(PATROL_MIN_INTERVAL_S, n)` -/
def Interval.of (n : ℤ) : Interval := ⟨max 5 n, le_max_left 5 n⟩

/-- A patrol move that an iteration of the loop begins. -/
structure Visit where
  slot : ℤ
  /-- The reading of the clock in the iteration. -/
  startedAt : ℚ
  iteration : ℕ
  /-- The enabled phase that it falls in. -/
  phase : Option ℕ
  deriving DecidableEq

/-- Who issues an absolute move. -/
inductive Source
  | patrol (slot : ℤ)
  /-- The return of `set_patrol` to preset 1. -/
  | home
  deriving DecidableEq

def Source.isPatrol : Source → Bool
  | .patrol _ => true
  | .home => false

structure SentMove where
  source : Source
  position : Position
  /-- How often the patrol had been turned on or off. -/
  phase : ℕ
  /-- The time of the request. -/
  sentAt : ℚ
  deriving DecidableEq

structure PatrolState where
  enabled : Bool
  interval : Interval
  /-- The slot that is reported. -/
  slot : Option ℤ
  presets : PresetTable
  configured : Bool
  movingUntil : ℚ
  clock : ℚ
  /-- How often the patrol has been turned on or off. -/
  phase : ℕ
  /-- The patrol moves so far, the last one first. -/
  visits : List Visit
  /-- The iterations that have found a manual move. -/
  manual : List ℕ
  /-- The absolute moves that were issued, the last one first. -/
  sent : List SentMove
  deriving DecidableEq

namespace PatrolState

variable (s : PatrolState)

/-- The enabled phase that goes on. -/
def enabledPhase : Option ℕ := if s.enabled then some s.phase else none

def setEnabled (enabled : Bool) : PatrolState :=
  { s with
    enabled := enabled
    phase := if s.enabled = enabled then s.phase else s.phase + 1 }

def setInterval (interval : Interval) : PatrolState := { s with interval := interval }

def setSlot (slot : Option ℤ) : PatrolState := { s with slot := slot }

def begin (v : Visit) : PatrolState := { s with visits := v :: s.visits }

def sawManual (iteration : ℕ) : PatrolState := { s with manual := iteration :: s.manual }

def send (source : Source) (p : Position) : PatrolState :=
  { s with sent := ⟨source, p, s.phase, s.clock⟩ :: s.sent }

end PatrolState

-- ============================================================================
-- absolute_move
-- ============================================================================

inductive MovePc
  /-- `_resolve_profile_token` -/
  | resolve
  /-- `is_configured` in `_issue_request` -/
  | check
  /-- `_post`; without a URL it raises, and nothing is sent. -/
  | post
  deriving DecidableEq

/-- The next step of `absolute_move`; none when it returns with it. -/
def moveNext (s : PatrolState) (source : Source) (p : Position) :
    MovePc → PatrolState × Option MovePc
  | .resolve => (s, some .check)
  | .check => (s, if s.configured then some .post else none)
  | .post => (if s.configured then s.send source p else s, none)

-- ============================================================================
-- patrol_loop
-- ============================================================================

structure LoopVars where
  idx : ℕ
  nextDue : Option ℚ
  iteration : ℕ
  deriving DecidableEq

namespace LoopVars

variable (v : LoopVars)

/-- `next_due is not None and now < next_due` -/
def early (now : ℚ) : Bool := v.nextDue.any fun due => now < due

/-- `continue` -/
def again : LoopVars := { v with iteration := v.iteration + 1 }

/-- `next_due = None` and `continue` -/
def idle : LoopVars := { v.again with nextDue := none }

/-- `idx += 1` and `next_due = now + interval` -/
def advance (now : ℚ) (interval : Interval) : LoopVars :=
  { v with
    idx := v.idx + 1
    nextDue := some (now + interval.seconds) }

end LoopVars

/-- The next step of an iteration. -/
inductive LoopPc
  /-- The flag, the interval and the slots are read. -/
  | top
  /-- There is no preset, and the slot is cleared. -/
  | empty
  /-- `is_configured()` -/
  | configured (interval : Interval) (slots : Rota ℤ)
  /-- `now = time.monotonic()` -/
  | clock (interval : Interval) (slots : Rota ℤ)
  /-- `is_moving()` -/
  | moving (now : ℚ) (interval : Interval) (slots : Rota ℤ)
  /-- `get_preset(slot)` -/
  | preset (now : ℚ) (interval : Interval) (slots : Rota ℤ)
  /-- The slot is reported. -/
  | point (slot : ℤ) (p : Position)
  | move (slot : ℤ) (p : Position) (pc : MovePc)
  deriving DecidableEq

def loopNext (s : PatrolState) (v : LoopVars) : LoopPc → PatrolState × LoopVars × LoopPc
  | .top =>
      match s.presets.slots with
      | none => (s, v, .empty)
      | some slots => if s.enabled then (s, v, .configured s.interval slots) else (s, v.idle, .top)
  | .empty => (s.setSlot none, v.idle, .top)
  | .configured interval slots =>
      if s.configured then (s, v, .clock interval slots) else (s, v.idle, .top)
  | .clock interval slots =>
      if v.early s.clock then (s, v.again, .top) else (s, v, .moving s.clock interval slots)
  | .moving now interval slots =>
      if s.clock < s.movingUntil then (s.sawManual v.iteration, v.again, .top)
      else (s, v, .preset now interval slots)
  | .preset now interval slots =>
      let slot := slots.visit v.idx
      match s.presets.get slot with
      | none => (s, (v.advance now interval).again, .top)
      | some p =>
          (s.begin ⟨slot, now, v.iteration, s.enabledPhase⟩, v.advance now interval,
            .point slot p)
  | .point slot p => (s.setSlot (some slot), v, .move slot p .resolve)
  | .move slot p pc =>
      match moveNext s (.patrol slot) p pc with
      | (s', some pc') => (s', v, .move slot p pc')
      | (s', none) => (s', v.again, .top)

-- ============================================================================
-- set_patrol
-- ============================================================================

inductive SetPc
  /-- The flag and the interval are set. -/
  | set
  /-- `get_preset(1)`, when the patrol was turned off. -/
  | home
  | point (home : Option Position)
  | move (p : Position) (pc : MovePc)
  | returned
  deriving DecidableEq

def setNext (s : PatrolState) (enabled : Bool) (interval : Option Interval) :
    SetPc → Option (PatrolState × SetPc)
  | .set =>
      some ((s.setEnabled enabled).setInterval (interval.getD s.interval),
        if s.enabled && !enabled then .home else .returned)
  | .home => some (s, .point (s.presets.get 1))
  | .point (some p) => some (s.setSlot (some 1), .move p .resolve)
  | .point none => some (s.setSlot none, .returned)
  | .move p pc =>
      some ((moveNext s .home p pc).1, (moveNext s .home p pc).2.elim .returned (.move p))
  | .returned => none

-- ============================================================================
-- The threads
-- ============================================================================

inductive Thread
  | loop (v : LoopVars) (pc : LoopPc)
  | setPatrol (enabled : Bool) (interval : Option Interval) (pc : SetPc)
  deriving DecidableEq

/-- `set_patrol`, with the interval that the request has, if any. -/
structure Request where
  enabled : Bool
  interval : Option ℤ

inductive PatrolEnv
  /-- Time passes. -/
  | tick (d : ℚ)
  | setMoving (value : Bool)
  | configure
  | clearConfig
  /-- `save_preset` and `load_presets` -/
  | presets (m : PresetTable)
  | loadPatrol (enabled : Bool) (interval : ℤ)

/-- `MOVE_HOLD_S` -/
def moveHold : ℚ := 10

def patrolEnv (s : PatrolState) : PatrolEnv → Option PatrolState
  | .tick d => if 0 ≤ d then some { s with clock := s.clock + d } else none
  | .setMoving value => some { s with movingUntil := if value then s.clock + moveHold else 0 }
  | .configure => some { s with configured := true }
  | .clearConfig => some { s with configured := false, movingUntil := 0 }
  | .presets m => some { s with presets := m }
  | .loadPatrol enabled interval =>
      some (((s.setEnabled enabled).setSlot none).setInterval (.of interval))

/-- The threads that set and use the patrol. -/
def patrol : Prog PatrolState Thread Request Unit PatrolEnv where
  enter r := .setPatrol r.enabled (r.interval.map Interval.of) .set
  next _ s t _ :=
    match t with
    | .loop v pc => some ((loopNext s v pc).1, .loop (loopNext s v pc).2.1 (loopNext s v pc).2.2)
    | .setPatrol enabled interval pc =>
        (setNext s enabled interval pc).map fun r => (r.1, .setPatrol enabled interval r.2)
  env := patrolEnv

abbrev Streamer := Conf PatrolState Thread

/-- A step of the system. -/
abbrev Move := Event Request Unit PatrolEnv

end Babycat.Patrol
