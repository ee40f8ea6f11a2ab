/-
  Babycat.Streamer.PatrolCycle

  Order and pacing of the auto patrol (`ptz.py`, `patrol_loop`) over every run
  in which the presets and the interval stay constant and PTZ stays configured.

  The loop's index is the number of its moves so far, so the slots are a walk
  around the sorted presets.  For the pacing the loop knows of every move of the
  enabled phase that goes on that `next_due` is at least an interval behind it:
  a phase that ends takes its moves out of this, and the loop drops `next_due`
  only when it has seen the flag off.

  A move's time is the reading of the clock in its iteration.  Its request goes
  out later, behind a call that may have to ask the camera for its profiles, so
  requests can be closer to each other (`requests_not_paced`).
-/

import Babycat.Streamer.Patrol
import Mathlib.Tactic.Linarith

namespace Babycat.Patrol

open Babycat.Conc

-- ============================================================================
-- The runs
-- ============================================================================

/-- The step leaves the presets and the interval as they are, and PTZ configured. -/
def Constant (c : Streamer) (e : Move) : Prop :=
  ∀ c' ∈ patrol.step c e, c'.shared.presets = c.shared.presets ∧
    c'.shared.interval = c.shared.interval ∧ c'.shared.configured = true

instance (c : Streamer) (e : Move) : Decidable (Constant c e) :=
  inferInstanceAs (Decidable (∀ c' ∈ patrol.step c e, _))

/-- The loop, and no other one, is at the top of an iteration, and nothing has happened yet. -/
structure Begins (c : Streamer) (v : LoopVars) (slots : Rota ℤ) : Prop where
  loop : c.pool[0]? = some (.loop v .top)
  alone : ∀ i w pc, c.pool[i]? = some (.loop w pc) → i = 0
  slots : c.shared.presets.slots = some slots
  configured : c.shared.configured = true
  visits : c.shared.visits = []
  manual : c.shared.manual = []
  sent : c.shared.sent = []

-- ============================================================================
-- What a run keeps
-- ============================================================================

/-- Two moves of one phase are an interval apart. -/
def Paced (interval : Interval) (later earlier : Visit) : Prop :=
  ∀ p ∈ later.phase, earlier.phase = some p →
    earlier.startedAt + interval.seconds ≤ later.startedAt

structure Inv (slots : Rota ℤ) (interval : Interval) (s : PatrolState) : Prop where
  presets : s.presets.slots = some slots
  pace : s.interval = interval
  configured : s.configured = true
  paced : s.visits.Pairwise (Paced interval)
  /-- A move falls in a phase that is over, or that goes on. -/
  phases : ∀ w ∈ s.visits, ∀ p ∈ w.phase, p ≤ s.phase ∧ (p = s.phase → s.enabled = true)
  notManual : ∀ w ∈ s.visits, w.iteration ∉ s.manual

/-- The requests of the patrol moves, the last one first. -/
def PatrolState.patrolled (s : PatrolState) : List SentMove :=
  s.sent.filter fun m => m.source.isPatrol

/-- The request is that of the move: it has its slot, and goes out at its time or later. -/
structure IssuedBy (w : Visit) (m : SentMove) : Prop where
  source : m.source = .patrol w.slot
  later : w.startedAt ≤ m.sentAt

/-- How many moves are begun and not issued yet. -/
def LoopPc.inFlight : LoopPc → ℕ
  | .point _ _ | .move _ _ _ => 1
  | _ => 0

/-- The last move is to the slot, and was begun no later than now. -/
def PatrolState.Heads (s : PatrolState) (slot : ℤ) : Prop :=
  ∃ w, s.visits.head? = some w ∧ w.slot = slot ∧ w.startedAt ≤ s.clock

/-- The moves of the phase that goes on are an interval in front of `time`. -/
def PatrolState.Settled (s : PatrolState) (interval : Interval) (time : ℚ) : Prop :=
  ∀ w ∈ s.visits, w.phase = some s.phase → w.startedAt + interval.seconds ≤ time

/-- What an iteration has read is what the run keeps. -/
def LoopPc.Knows (slots : Rota ℤ) (interval : Interval) (s : PatrolState) : LoopPc → Prop
  | .top => True
  | .empty => False
  | .configured n l | .clock n l => n = interval ∧ l = slots
  | .moving now n l | .preset now n l =>
      n = interval ∧ l = slots ∧ s.Settled interval now ∧ now ≤ s.clock
  | .point slot _ | .move slot _ _ => s.Heads slot

structure LoopOk (slots : Rota ℤ) (interval : Interval) (start : ℕ) (s : PatrolState)
    (v : LoopVars) (pc : LoopPc) : Prop where
  idx : v.idx = start + s.visits.length
  order : (s.visits.map Visit.slot).reverse = slots.walk start s.visits.length
  issued : List.Forall₂ IssuedBy (s.visits.drop pc.inFlight) s.patrolled
  iterations : ∀ w ∈ s.visits, w.iteration ≤ v.iteration ∧
    (w.iteration = v.iteration → pc.inFlight ≠ 0)
  manual : ∀ j ∈ s.manual, j < v.iteration
  due : ∀ w ∈ s.visits, w.phase = some s.phase →
    ∃ due, v.nextDue = some due ∧ w.startedAt + interval.seconds ≤ due
  knows : pc.Knows slots interval s

section Steps

variable {slots : Rota ℤ} {interval : Interval} {start : ℕ} {s s' : PatrolState} {v : LoopVars}
variable {pc : LoopPc}

theorem Visit.phase_enabled (hI : Inv slots interval s) (hoff : s.enabled = false) {w : Visit}
    (hw : w ∈ s.visits) : w.phase ≠ some s.phase := by
  intro h
  have henabled := (hI.phases w hw s.phase h).2 rfl
  rw [hoff] at henabled
  cases henabled

/-- The next iteration begins. -/
theorem LoopOk.again (h : LoopOk slots interval start s v pc) (hdone : pc.inFlight = 0) :
    LoopOk slots interval start s v.again .top where
  idx := h.idx
  order := h.order
  issued := by
    have hissued := h.issued
    rw [hdone] at hissued
    exact hissued
  iterations w hw := by
    have hle := (h.iterations w hw).1
    have hlt : w.iteration < v.again.iteration := Nat.lt_succ_of_le hle
    exact ⟨hlt.le, fun heq => absurd heq hlt.ne⟩
  manual j hj := Nat.lt_succ_of_lt (h.manual j hj)
  due := h.due
  knows := trivial

/-- `next_due` is dropped when no move falls in the phase that goes on. -/
theorem LoopOk.idle (h : LoopOk slots interval start s v pc) (hdone : pc.inFlight = 0)
    (hnone : ∀ w ∈ s.visits, w.phase ≠ some s.phase) :
    LoopOk slots interval start s v.idle .top :=
  let hagain := h.again hdone
  { idx := hagain.idx
    order := hagain.order
    issued := hagain.issued
    iterations := hagain.iterations
    manual := hagain.manual
    due := fun w hw hphase => absurd hphase (hnone w hw)
    knows := trivial }

/-- An iteration goes on. -/
theorem LoopOk.goesOn {pc' : LoopPc} (h : LoopOk slots interval start s v pc)
    (hflight : pc'.inFlight = pc.inFlight) (hknows : pc'.Knows slots interval s) :
    LoopOk slots interval start s v pc' where
  idx := h.idx
  order := h.order
  issued := by
    rw [hflight]
    exact h.issued
  iterations := by
    rw [hflight]
    exact h.iterations
  manual := h.manual
  due := h.due
  knows := hknows

/-- Time passes and other threads move on: the phase that goes on may end. -/
structure Frame (s s' : PatrolState) : Prop where
  visits : s'.visits = s.visits
  manual : s'.manual = s.manual
  patrolled : s'.patrolled = s.patrolled
  phase : s'.phase = s.phase ∨ s.phase < s'.phase
  clock : s.clock ≤ s'.clock

theorem Frame.recent (hframe : Frame s s') (hI : Inv slots interval s) {w : Visit}
    (hw : w ∈ s'.visits) (hphase : w.phase = some s'.phase) :
    w ∈ s.visits ∧ w.phase = some s.phase := by
  rw [hframe.visits] at hw
  refine ⟨hw, ?_⟩
  have hle := (hI.phases w hw s'.phase hphase).1
  have heq : s'.phase = s.phase := by
    rcases hframe.phase with heq | hlt
    · exact heq
    · omega
  rw [hphase, heq]

theorem LoopPc.Knows.of_frame (hframe : Frame s s') (hI : Inv slots interval s)
    (h : pc.Knows slots interval s) : pc.Knows slots interval s' := by
  have hsettled : ∀ {now : ℚ}, s.Settled interval now → s'.Settled interval now := by
    intro now hsettled w hw hphase
    obtain ⟨hmem, hrecent⟩ := hframe.recent hI hw hphase
    exact hsettled w hmem hrecent
  have hheads : ∀ {slot : ℤ}, s.Heads slot → s'.Heads slot := by
    rintro slot ⟨w, hw, hslot, hle⟩
    exact ⟨w, by rw [hframe.visits]; exact hw, hslot, hle.trans hframe.clock⟩
  cases pc with
  | moving now n l => exact ⟨h.1, h.2.1, hsettled h.2.2.1, h.2.2.2.trans hframe.clock⟩
  | preset now n l => exact ⟨h.1, h.2.1, hsettled h.2.2.1, h.2.2.2.trans hframe.clock⟩
  | point slot p => exact hheads h
  | move slot p pc => exact hheads h
  | _ => exact h

theorem LoopOk.of_frame (hframe : Frame s s') (hI : Inv slots interval s)
    (h : LoopOk slots interval start s v pc) : LoopOk slots interval start s' v pc where
  idx := by
    rw [hframe.visits]
    exact h.idx
  order := by
    rw [hframe.visits]
    exact h.order
  issued := by
    rw [hframe.visits, hframe.patrolled]
    exact h.issued
  iterations := by
    rw [hframe.visits]
    exact h.iterations
  manual := by
    rw [hframe.manual]
    exact h.manual
  due w hw hphase := by
    obtain ⟨hmem, hrecent⟩ := hframe.recent hI hw hphase
    exact h.due w hmem hrecent
  knows := h.knows.of_frame hframe hI

/-- What is left of `Inv` when a step does not touch the history. -/
theorem Inv.of_frame (hframe : Frame s s') (hI : Inv slots interval s)
    (hpresets : s'.presets = s.presets) (hpace : s'.interval = s.interval)
    (hconfigured : s'.configured = true)
    (hphase : s'.phase = s.phase → s'.enabled = s.enabled) : Inv slots interval s' where
  presets := by rw [hpresets, hI.presets]
  pace := by rw [hpace, hI.pace]
  configured := hconfigured
  paced := by
    rw [hframe.visits]
    exact hI.paced
  phases w hw p hp := by
    rw [hframe.visits] at hw
    obtain ⟨hle, hrecent⟩ := hI.phases w hw p hp
    rcases hframe.phase with heq | hlt
    · rw [heq, hphase heq]
      exact ⟨hle, hrecent⟩
    · exact ⟨by omega, fun heq => absurd heq (by omega)⟩
  notManual := by
    rw [hframe.visits, hframe.manual]
    exact hI.notManual

end Steps

-- ============================================================================
-- The steps of the loop
-- ============================================================================

section Loop

variable {slots : Rota ℤ} {interval : Interval} {start : ℕ} {s : PatrolState} {v : LoopVars}

theorem Inv.begin (hI : Inv slots interval s) {w : Visit} (hphase : w.phase = s.enabledPhase)
    (hsettled : s.Settled interval w.startedAt) (hmanual : w.iteration ∉ s.manual) :
    Inv slots interval (s.begin w) where
  presets := hI.presets
  pace := hI.pace
  configured := hI.configured
  paced := by
    refine List.pairwise_cons.mpr ⟨fun earlier hearlier p hp hsame => ?_, hI.paced⟩
    rw [hphase, PatrolState.enabledPhase] at hp
    split_ifs at hp
    · cases hp
      exact hsettled earlier hearlier hsame
    · cases hp
  phases := by
    refine List.forall_mem_cons.mpr ⟨fun p hp => ?_, hI.phases⟩
    rw [hphase, PatrolState.enabledPhase] at hp
    split_ifs at hp with henabled
    · cases hp
      exact ⟨le_refl _, fun _ => henabled⟩
    · cases hp
  notManual := List.forall_mem_cons.mpr ⟨hmanual, hI.notManual⟩

/-- A move begins: its slot is the next one of the walk. -/
theorem LoopOk.begin {now : ℚ} {p : Position}
    (h : LoopOk slots interval start s v (.preset now interval slots)) :
    LoopOk slots interval start
      (s.begin ⟨slots.visit v.idx, now, v.iteration, s.enabledPhase⟩) (v.advance now interval)
      (.point (slots.visit v.idx) p) where
  idx := by
    have hidx := h.idx
    show v.idx + 1 = start + (s.visits.length + 1)
    omega
  order := by
    show (slots.visit v.idx :: s.visits.map Visit.slot).reverse =
      slots.walk start (s.visits.length + 1)
    rw [List.reverse_cons, h.order, slots.walk_succ, h.idx]
  issued := h.issued
  iterations := by
    refine List.forall_mem_cons.mpr ⟨⟨le_refl _, fun _ => one_ne_zero⟩, fun w hw => ?_⟩
    exact ⟨(h.iterations w hw).1, fun _ => one_ne_zero⟩
  manual := h.manual
  due := by
    have hsettled := h.knows.2.2.1
    have hseconds : (5 : ℚ) ≤ interval.seconds := by exact_mod_cast interval.atLeast
    refine List.forall_mem_cons.mpr ⟨fun _ => ⟨_, rfl, le_refl _⟩, fun w hw hphase => ?_⟩
    have hle := hsettled w hw hphase
    exact ⟨_, rfl, by linarith⟩
  knows := ⟨_, rfl, rfl, h.knows.2.2.2⟩

theorem LoopOk.sawManual {now : ℚ}
    (h : LoopOk slots interval start s v (.moving now interval slots)) :
    LoopOk slots interval start (s.sawManual v.iteration) v.again .top :=
  let hagain := h.again rfl
  { idx := hagain.idx
    order := hagain.order
    issued := hagain.issued
    iterations := hagain.iterations
    manual := List.forall_mem_cons.mpr ⟨Nat.lt_succ_self _, hagain.manual⟩
    due := hagain.due
    knows := trivial }

/-- An iteration that finds a manual move has not begun one of its own. -/
theorem Inv.sawManual {pc : LoopPc} (hI : Inv slots interval s)
    (h : LoopOk slots interval start s v pc) (hdone : pc.inFlight = 0) :
    Inv slots interval (s.sawManual v.iteration) where
  presets := hI.presets
  pace := hI.pace
  configured := hI.configured
  paced := hI.paced
  phases := hI.phases
  notManual w hw hmem := by
    rcases List.mem_cons.mp hmem with heq | hold
    · exact (h.iterations w hw).2 heq hdone
    · exact hI.notManual w hw hold

theorem Inv.send (hI : Inv slots interval s) (source : Source) (p : Position) :
    Inv slots interval (s.send source p) where
  presets := hI.presets
  pace := hI.pace
  configured := hI.configured
  paced := hI.paced
  phases := hI.phases
  notManual := hI.notManual

/-- The move is issued, and the iteration is over. -/
theorem LoopOk.send {slot : ℤ} {p : Position} {pc : MovePc}
    (h : LoopOk slots interval start s v (.move slot p pc)) :
    LoopOk slots interval start (s.send (.patrol slot) p) v.again .top where
  idx := h.idx
  order := h.order
  issued := by
    obtain ⟨w, hw, hslot, hle⟩ := h.knows
    obtain ⟨others, hvisits⟩ := List.head?_eq_some_iff.mp hw
    have hissued := h.issued
    rw [hvisits] at hissued
    show List.Forall₂ IssuedBy s.visits (⟨.patrol slot, p, s.phase, s.clock⟩ :: s.patrolled)
    rw [hvisits]
    exact .cons ⟨by rw [hslot], hle⟩ hissued
  iterations w hw := by
    have hlt : w.iteration < v.again.iteration := Nat.lt_succ_of_le (h.iterations w hw).1
    exact ⟨hlt.le, fun heq => absurd heq hlt.ne⟩
  manual j hj := Nat.lt_succ_of_lt (h.manual j hj)
  due := h.due
  knows := trivial

/-- A step of the loop keeps what the run keeps. -/
theorem loopNext_ok {pc : LoopPc} (hI : Inv slots interval s)
    (h : LoopOk slots interval start s v pc) :
    Inv slots interval (loopNext s v pc).1 ∧
      LoopOk slots interval start (loopNext s v pc).1 (loopNext s v pc).2.1
        (loopNext s v pc).2.2 := by
  cases pc with
  | top =>
    simp only [loopNext, hI.presets]
    by_cases henabled : s.enabled = true
    · rw [if_pos henabled]
      exact ⟨hI, h.goesOn rfl ⟨hI.pace, rfl⟩⟩
    · rw [if_neg henabled]
      have hoff := Bool.not_eq_true _ ▸ henabled
      exact ⟨hI, h.idle rfl fun w hw => w.phase_enabled hI hoff hw⟩
  | empty => exact h.knows.elim
  | configured n l =>
    rw [loopNext, if_pos hI.configured]
    exact ⟨hI, h.goesOn rfl h.knows⟩
  | clock n l =>
    obtain ⟨rfl, rfl⟩ := h.knows
    rw [loopNext]
    by_cases hearly : v.early s.clock = true
    · rw [if_pos hearly]
      exact ⟨hI, h.again rfl⟩
    · rw [if_neg hearly]
      refine ⟨hI, h.goesOn rfl ⟨rfl, rfl, fun w hw hphase => ?_, le_refl _⟩⟩
      obtain ⟨due, hdue, hle⟩ := h.due w hw hphase
      rw [LoopVars.early, hdue, Option.any_some, decide_eq_true_iff, not_lt] at hearly
      exact hle.trans hearly
  | moving now n l =>
    obtain ⟨rfl, rfl, hsettled⟩ := h.knows
    rw [loopNext]
    by_cases hmoving : s.clock < s.movingUntil
    · rw [if_pos hmoving]
      exact ⟨hI.sawManual h rfl, h.sawManual⟩
    · rw [if_neg hmoving]
      exact ⟨hI, h.goesOn rfl ⟨rfl, rfl, hsettled⟩⟩
  | preset now n l =>
    obtain ⟨rfl, rfl, hsettled⟩ := h.knows
    obtain ⟨p, hp⟩ := PresetTable.get_of_slots hI.presets (l.visit_mem v.idx)
    simp only [loopNext, hp]
    exact ⟨hI.begin rfl hsettled.1 fun hmem => absurd (h.manual _ hmem) (lt_irrefl _), h.begin⟩
  | point slot p =>
    have hframe : Frame s (s.setSlot (some slot)) := ⟨rfl, rfl, rfl, .inl rfl, le_refl _⟩
    exact ⟨hI.of_frame hframe rfl rfl hI.configured fun _ => rfl,
      (h.of_frame hframe hI).goesOn rfl h.knows⟩
  | move slot p pc =>
    cases pc with
    | resolve => exact ⟨hI, h.goesOn rfl h.knows⟩
    | check =>
      simp only [loopNext, moveNext, if_pos hI.configured]
      exact ⟨hI, h.goesOn rfl h.knows⟩
    | post =>
      simp only [loopNext, moveNext, if_pos hI.configured]
      exact ⟨hI.send _ p, h.send⟩

end Loop

-- ============================================================================
-- The steps of the others
-- ============================================================================

section Others

variable {slots : Rota ℤ} {interval : Interval} {start : ℕ} {s s' : PatrolState}

/-- Turning the patrol on or off begins a phase. -/
theorem setEnabled_frame (s : PatrolState) (enabled : Bool) :
    Frame s (s.setEnabled enabled) ∧
      ((s.setEnabled enabled).phase = s.phase → (s.setEnabled enabled).enabled = s.enabled) := by
  have hphase : (s.setEnabled enabled).phase = if s.enabled = enabled then s.phase
      else s.phase + 1 := rfl
  by_cases hsame : s.enabled = enabled
  · rw [if_pos hsame] at hphase
    exact ⟨⟨rfl, rfl, rfl, .inl hphase, le_refl _⟩, fun _ => hsame.symm⟩
  · rw [if_neg hsame] at hphase
    exact ⟨⟨rfl, rfl, rfl, .inr (by omega), le_refl _⟩, fun heq => absurd heq (by omega)⟩

/-- `absolute_move` of `set_patrol` issues no patrol move. -/
theorem moveNext_home_frame (s : PatrolState) (p : Position) (pc : MovePc) :
    Frame s (moveNext s .home p pc).1 ∧ (moveNext s .home p pc).1.enabled = s.enabled := by
  cases pc with
  | resolve => exact ⟨⟨rfl, rfl, rfl, .inl rfl, le_refl _⟩, rfl⟩
  | check => exact ⟨⟨rfl, rfl, rfl, .inl rfl, le_refl _⟩, rfl⟩
  | post =>
    rw [moveNext]
    split_ifs
    · exact ⟨⟨rfl, rfl, rfl, .inl rfl, le_refl _⟩, rfl⟩
    · exact ⟨⟨rfl, rfl, rfl, .inl rfl, le_refl _⟩, rfl⟩

theorem setNext_frame {enabled : Bool} {n : Option Interval} {pc pc' : SetPc}
    (h : setNext s enabled n pc = some (s', pc')) :
    Frame s s' ∧ (s'.phase = s.phase → s'.enabled = s.enabled) := by
  cases pc with
  | set =>
    cases h
    obtain ⟨⟨hvisits, hmanual, hpatrolled, hphase, hclock⟩, henabled⟩ := setEnabled_frame s enabled
    exact ⟨⟨hvisits, hmanual, hpatrolled, hphase, hclock⟩, henabled⟩
  | home =>
    cases h
    exact ⟨⟨rfl, rfl, rfl, .inl rfl, le_refl _⟩, fun _ => rfl⟩
  | point home =>
    cases home with
    | none =>
      cases h
      exact ⟨⟨rfl, rfl, rfl, .inl rfl, le_refl _⟩, fun _ => rfl⟩
    | some p =>
      cases h
      exact ⟨⟨rfl, rfl, rfl, .inl rfl, le_refl _⟩, fun _ => rfl⟩
  | move p pc =>
    cases h
    obtain ⟨hframe, henabled⟩ := moveNext_home_frame s p pc
    exact ⟨hframe, fun _ => henabled⟩
  | returned => cases h

theorem patrolEnv_frame {e : PatrolEnv} (h : patrolEnv s e = some s') :
    Frame s s' ∧ (s'.phase = s.phase → s'.enabled = s.enabled) := by
  cases e with
  | tick d =>
    rw [patrolEnv] at h
    split_ifs at h with hd
    cases h
    exact ⟨⟨rfl, rfl, rfl, .inl rfl, le_add_of_nonneg_right hd⟩, fun _ => rfl⟩
  | loadPatrol enabled n =>
    cases h
    obtain ⟨⟨hvisits, hmanual, hpatrolled, hphase, hclock⟩, henabled⟩ := setEnabled_frame s enabled
    exact ⟨⟨hvisits, hmanual, hpatrolled, hphase, hclock⟩, henabled⟩
  | _ =>
    cases h
    exact ⟨⟨rfl, rfl, rfl, .inl rfl, le_refl _⟩, fun _ => rfl⟩

end Others

-- ============================================================================
-- Runs
-- ============================================================================

section Runs

variable {slots : Rota ℤ} {interval : Interval} {start : ℕ}

/-- Thread 0 is the only loop. -/
def PatrolKnows (slots : Rota ℤ) (interval : Interval) (start i : ℕ) (s : PatrolState) :
    Thread → Prop
  | .loop v pc => i = 0 ∧ LoopOk slots interval start s v pc
  | .setPatrol _ _ _ => True

theorem PatrolKnows.of_frame {s s' : PatrolState} {j : ℕ} {t : Thread} (hframe : Frame s s')
    (hI : Inv slots interval s) (h : PatrolKnows slots interval start j s t) :
    PatrolKnows slots interval start j s' t := by
  cases t with
  | loop v pc => exact ⟨h.1, h.2.of_frame hframe hI⟩
  | setPatrol enabled n pc => trivial

theorem patrol_outline (slots : Rota ℤ) (interval : Interval) (start : ℕ) :
    OwickiGries patrol Constant (Inv slots interval) (PatrolKnows slots interval start) where
  enter _ _ _ _ := trivial
  own c i k t s' t' hc hG ht hn := by
    have hA := hc.2 i t ht
    obtain ⟨hpresets, hpace, hconfigured⟩ := hG _ (Prog.step_sched ht hn)
    cases t with
    | loop v pc =>
      cases hn
      obtain ⟨hinv, hloop⟩ := loopNext_ok hc.1 hA.2
      exact ⟨hinv, hA.1, hloop⟩
    | setPatrol enabled n pc =>
      obtain ⟨r, hr, heq⟩ := Option.map_eq_some_iff.mp hn
      cases heq
      obtain ⟨hframe, henabled⟩ := setNext_frame hr
      exact ⟨hc.1.of_frame hframe hpresets hpace hconfigured henabled, trivial⟩
  others c i k t s' t' j w hc _ ht hn hne hj := by
    have hA := hc.2 i t ht
    have hB := hc.2 j w hj
    cases t with
    | loop v pc =>
      cases w with
      | loop v' pc' => exact absurd (hB.1.trans hA.1.symm) hne
      | setPatrol enabled n pc' => trivial
    | setPatrol enabled n pc =>
      obtain ⟨r, hr, heq⟩ := Option.map_eq_some_iff.mp hn
      cases heq
      exact hB.of_frame (setNext_frame hr).1 hc.1
  env c x s' hc hG hx := by
    obtain ⟨hpresets, hpace, hconfigured⟩ := hG ⟨s', c.pool⟩ (by
      show (patrol.env c.shared x).map _ = _
      rw [hx, Option.map_some])
    obtain ⟨hframe, henabled⟩ := patrolEnv_frame hx
    exact ⟨hc.1.of_frame hframe hpresets hpace hconfigured henabled,
      fun j w hj => (hc.2 j w hj).of_frame hframe hc.1⟩

theorem annotated_begins {c : Streamer} {v : LoopVars} (h : Begins c v slots) :
    Annotated (Inv slots c.shared.interval) (PatrolKnows slots c.shared.interval v.idx) c where
  left :=
    { presets := h.slots
      pace := rfl
      configured := h.configured
      paced := by
        rw [h.visits]
        exact List.Pairwise.nil
      phases := by
        rw [h.visits]
        exact List.forall_mem_nil _
      notManual := by
        rw [h.visits]
        exact List.forall_mem_nil _ }
  right i t ht := by
    cases t with
    | setPatrol enabled n pc => trivial
    | loop w pc =>
      have hzero := h.alone i w pc ht
      subst hzero
      cases h.loop.symm.trans ht
      refine ⟨rfl, ?_, ?_, ?_, ?_, ?_, ?_, trivial⟩
      · rw [h.visits]
        rfl
      · rw [h.visits]
        rfl
      · rw [h.visits, PatrolState.patrolled, h.sent]
        exact .nil
      · rw [h.visits]
        exact List.forall_mem_nil _
      · rw [h.manual]
        exact List.forall_mem_nil _
      · rw [h.visits]
        exact List.forall_mem_nil _

/-- The loop stays in the pool. -/
theorem loop_stays {c c' : Streamer} {v : LoopVars} {pc : LoopPc}
    (h : Steps patrol.step Constant c c') (hloop : c.pool[0]? = some (.loop v pc)) :
    ∃ v' pc', c'.pool[0]? = some (.loop v' pc') := by
  refine h.invariant (K := fun a => ∃ v' pc', a.pool[0]? = some (.loop v' pc')) ?_ ⟨v, pc, hloop⟩
  rintro a e b ⟨w, pc', ha⟩ _ hs
  rcases Prog.step_cases hs with ⟨r, rfl, rfl⟩ | ⟨i, k, t, s, t', rfl, ht, hn, rfl⟩ |
      ⟨x, s, rfl, hx, rfl⟩
  · refine ⟨w, pc', ?_⟩
    obtain ⟨hlt, -⟩ := List.getElem?_eq_some_iff.mp ha
    rw [List.getElem?_append_left hlt, ha]
  · by_cases hi : i = 0
    · subst hi
      cases ha.symm.trans ht
      cases hn
      exact ⟨_, _, by rw [getElem?_set_of_get ht, if_pos rfl]⟩
    · exact ⟨w, pc', by rw [getElem?_set_of_get ht, if_neg hi, ha]⟩
  · exact ⟨w, pc', ha⟩

/-- The patrol moves so far, in order: the slots are a walk around the saved ones, and as many
consecutive moves as there are slots visit each of them once; two moves within one enabled phase
are begun an interval apart, and none in an iteration that has found a manual move.  All of them
but perhaps the last one are issued, in this order, each no earlier than it was begun. -/
theorem patrol_cyclic {c₀ c : Streamer} {v : LoopVars} {slots : Rota ℤ} (h0 : Begins c₀ v slots)
    (h : Steps patrol.step Constant c₀ c) :
    (c.shared.visits.map Visit.slot).reverse = slots.walk v.idx c.shared.visits.length ∧
      (∀ b, b + slots.items.length ≤ c.shared.visits.length → ∀ slot ∈ slots.items,
        (((c.shared.visits.map Visit.slot).reverse.drop b).take slots.items.length).count slot =
          1) ∧
      c.shared.visits.Pairwise (Paced c₀.shared.interval) ∧
      (∀ w ∈ c.shared.visits, w.iteration ∉ c.shared.manual) ∧
      ∃ begun ≤ 1, List.Forall₂ IssuedBy (c.shared.visits.drop begun) c.shared.patrolled := by
  have hc := (patrol_outline slots c₀.shared.interval v.idx).steps h (annotated_begins h0)
  obtain ⟨v', pc, hloop⟩ := loop_stays h h0.loop
  obtain ⟨-, hok⟩ := hc.2 0 _ hloop
  refine ⟨hok.order, fun b hb slot hslot => ?_, hc.1.paced, hc.1.notManual, pc.inFlight, ?_,
    hok.issued⟩
  · rw [hok.order, (slots.walk_window_perm hb).count_eq]
    exact List.count_eq_one_of_mem (PresetTable.slots_nodup hc.1.presets) hslot
  · cases pc <;> simp [LoopPc.inFlight]

end Runs

section Rounds

/-- Presets 1 and 3 are saved. -/
def sampleTable : PresetTable where
  entries := [(3, .finite 3, .finite 0), (1, .finite 1, .finite 0)]
  nodup := by decide

/-- The patrol is on, with the shortest interval. -/
def patrolling : Streamer :=
  ⟨⟨true, .of 5, none, sampleTable, true, 0, 100, 0, [], [], []⟩, [.loop ⟨0, none, 0⟩ .top]⟩

theorem patrolling_begins :
    Begins patrolling ⟨0, none, 0⟩ ⟨[1, 3], List.cons_ne_nil _ _⟩ where
  loop := rfl
  alone i w pc h := by
    cases i with
    | zero => rfl
    | succ i => cases h
  slots := rfl
  configured := rfl
  visits := rfl
  manual := rfl
  sent := rfl

/-- The loop takes so many steps. -/
abbrev loops (n : ℕ) : List Move := List.replicate n (.sched 0 ())

/-- Two moves, an iteration that is too early, one that finds a manual move, and a third move. -/
abbrev rounds : List Move :=
  loops 9 ++ .env (.tick 4) :: loops 3 ++ .env (.tick 1) :: loops 9 ++
    .env (.setMoving true) :: .env (.tick 6) :: loops 4 ++ .env (.tick 4) :: loops 9

set_option maxRecDepth 4000 in
/-- The third move is to the first slot again. -/
theorem patrol_cyclic_rounds :
    (exec (guardedStep patrol.step Constant) patrolling rounds).shared.visits.map
        (fun w => (w.slot, w.startedAt)) = [(1, 115), (3, 105), (1, 100)] ∧
      (exec (guardedStep patrol.step Constant) patrolling rounds).shared.manual = [3] ∧
      (exec (guardedStep patrol.step Constant) patrolling rounds).shared.visits.Pairwise
        (Paced (.of 5)) :=
  ⟨by with_unfolding_all decide, by with_unfolding_all decide,
    (patrol_cyclic patrolling_begins
      (Steps.execGuarded (by with_unfolding_all decide))).2.2.1⟩

/-- The first move waits three seconds for the profiles of the camera, the second one does not. -/
abbrev delayed : List Move :=
  loops 7 ++ .env (.tick 3) :: loops 2 ++ .env (.tick 2) :: loops 9

set_option maxRecDepth 4000 in
/-- The requests of two moves of one phase are two seconds apart, at an interval of five. -/
theorem requests_not_paced :
    ∃ c, Begins patrolling ⟨0, none, 0⟩ ⟨[1, 3], List.cons_ne_nil _ _⟩ ∧
      Steps patrol.step Constant patrolling c ∧ c.shared.interval = .of 5 ∧
      c.shared.patrolled.map (fun m => (m.source, m.phase, m.sentAt)) =
        [(.patrol 3, 0, 105), (.patrol 1, 0, 103)] ∧
      c.shared.visits.map Visit.phase = [some 0, some 0] :=
  ⟨exec (guardedStep patrol.step Constant) patrolling delayed, patrolling_begins,
    Steps.execGuarded (by with_unfolding_all decide), by with_unfolding_all decide,
    by with_unfolding_all decide, by with_unfolding_all decide⟩

end Rounds

end Babycat.Patrol
