/-
  Babycat.Streamer.PatrolOff

  Turning the auto patrol off (`ptz.py`: `set_patrol(False)`) next to
  `patrol_loop`.

  The loop reads the flag at the top of an iteration and issues its move some
  steps later.  An iteration that has read the flag as on is `armed`.  The call
  ends at preset 1 in every continuation if and only if the loop is not armed
  when the flag is cleared.
-/

import Babycat.Streamer.Patrol
import Mathlib.Tactic.Linarith

namespace Babycat.Patrol

open Babycat.Conc

-- ============================================================================
-- The call and the loop
-- ============================================================================

/-- The loop, and a call of `set_patrol(False)`. -/
abbrev pair (s : PatrolState) (v : LoopVars) (pc : LoopPc) (n : Option Interval) (q : SetPc) :
    Streamer :=
  ⟨s, [.loop v pc, .setPatrol false n q]⟩

/-- No other command comes: the two threads take steps, and time passes. -/
def alone : Move → Bool
  | .sched _ _ | .env (.tick _) => true
  | _ => false

def Alone (_ : Streamer) (e : Move) : Prop := alone e = true

/-- The patrol is on, and preset 1 exists. -/
structure Patrolling (s : PatrolState) (home : Position) : Prop where
  enabled : s.enabled = true
  home : s.presets.get 1 = some home
  sent : s.sent = []

/-- The camera returns to preset 1 for good: with the call over, the last move is the one to preset
1 and the slot is 1, and no patrol move is issued after the flag was cleared for the `off`th
change of it. -/
structure EndsAtHome (home : Position) (off : ℕ) (c : Streamer) : Prop where
  noPatrol : ∀ m ∈ c.shared.sent, m.source.isPatrol = true → m.phase < off
  returned : ∀ n, c.pool[1]? = some (.setPatrol false n .returned) →
    c.shared.slot = some 1 ∧ ∃ at_, c.shared.sent.head? = some ⟨.home, home, off, at_⟩

/-- The iteration has read the flag as on, and its move may be still to come. -/
def LoopPc.armed : LoopPc → Bool
  | .top | .empty => false
  | _ => true

-- ============================================================================
-- What the iteration has read
-- ============================================================================

/-- The slots are the sorted presets. -/
def LoopPc.Reads (m : PresetTable) : LoopPc → Prop
  | .empty => m.slots = none
  | .configured _ l | .clock _ l | .moving _ _ l | .preset _ _ l => m.slots = some l
  | _ => True

section Steps

variable {s s' : PatrolState} {v : LoopVars} {pc : LoopPc} {n : Option Interval} {q : SetPc}
variable {home : Position}

theorem alone_cases {e : Move} {c : Streamer} (he : Alone (pair s v pc n q) e)
    (h : patrol.step (pair s v pc n q) e = some c) :
    c = pair (loopNext s v pc).1 (loopNext s v pc).2.1 (loopNext s v pc).2.2 n q ∨
      (∃ r, setNext s false n q = some r ∧ c = pair r.1 v pc n r.2) ∨
      ∃ d, 0 ≤ d ∧ c = pair { s with clock := s.clock + d } v pc n q := by
  rcases Prog.step_cases h with ⟨r, rfl, -⟩ | ⟨i, k, t, s', t', rfl, ht, hn, rfl⟩ |
      ⟨x, s', rfl, hx, rfl⟩
  · cases he
  · match i with
    | 0 =>
      cases ht
      cases hn
      exact .inl rfl
    | 1 =>
      cases ht
      obtain ⟨r, hr, heq⟩ := Option.map_eq_some_iff.mp hn
      cases heq
      exact .inr (.inl ⟨r, hr, rfl⟩)
    | i + 2 => cases ht
  · cases x with
    | tick d =>
      have htick : patrolEnv s (.tick d) = some s' := hx
      rw [patrolEnv] at htick
      split_ifs at htick with hd
      cases htick
      exact .inr (.inr ⟨d, hd, rfl⟩)
    | _ => cases he

/-- What no step of the two threads changes. -/
structure Kept (s s' : PatrolState) : Prop where
  presets : s'.presets = s.presets
  configured : s'.configured = s.configured

theorem moveNext_kept (s : PatrolState) (source : Source) (p : Position) (pc : MovePc) :
    Kept s (moveNext s source p pc).1 ∧ (moveNext s source p pc).1.phase = s.phase ∧
      (moveNext s source p pc).1.enabled = s.enabled := by
  cases pc with
  | resolve => exact ⟨⟨rfl, rfl⟩, rfl, rfl⟩
  | check => exact ⟨⟨rfl, rfl⟩, rfl, rfl⟩
  | post =>
    rw [moveNext]
    split_ifs
    · exact ⟨⟨rfl, rfl⟩, rfl, rfl⟩
    · exact ⟨⟨rfl, rfl⟩, rfl, rfl⟩

theorem loopNext_kept (s : PatrolState) (v : LoopVars) (pc : LoopPc) :
    Kept s (loopNext s v pc).1 ∧ (loopNext s v pc).1.phase = s.phase ∧
      (loopNext s v pc).1.enabled = s.enabled := by
  cases pc with
  | top =>
    rw [loopNext]
    split
    · exact ⟨⟨rfl, rfl⟩, rfl, rfl⟩
    · split_ifs <;> exact ⟨⟨rfl, rfl⟩, rfl, rfl⟩
  | empty | point slot p => exact ⟨⟨rfl, rfl⟩, rfl, rfl⟩
  | configured n l | clock n l | moving now n l =>
    rw [loopNext]
    split_ifs <;> exact ⟨⟨rfl, rfl⟩, rfl, rfl⟩
  | preset now n l =>
    rw [loopNext]
    split <;> exact ⟨⟨rfl, rfl⟩, rfl, rfl⟩
  | move slot p pc =>
    have hkept := moveNext_kept s (.patrol slot) p pc
    rw [loopNext]
    split
    · rename_i s' pc' heq
      rw [heq] at hkept
      exact hkept
    · rename_i s' heq
      rw [heq] at hkept
      exact hkept

/-- The slots that an iteration goes through are the sorted presets. -/
theorem loopNext_reads (h : pc.Reads s.presets) : (loopNext s v pc).2.2.Reads s.presets := by
  cases pc with
  | top =>
    rw [loopNext]
    split
    · rename_i hnone
      exact hnone
    · rename_i slots hslots
      split_ifs
      · exact hslots
      · trivial
  | empty | point slot p => trivial
  | configured n l | clock n l | moving now n l =>
    rw [loopNext]
    split_ifs
    · first | exact h | trivial
    · first | exact h | trivial
  | preset now n l =>
    rw [loopNext]
    split <;> trivial
  | move slot p pc =>
    rw [loopNext]
    split <;> trivial

end Steps

-- ============================================================================
-- An armed iteration
-- ============================================================================

/-- Some continuation issues a patrol move before the flag changes again. -/
def Issues (c : Streamer) : Prop :=
  ∃ c', Steps patrol.step Alone c c' ∧
    ∃ m ∈ c'.shared.sent, m.source.isPatrol = true ∧ m.phase = c.shared.phase

section Armed

variable {s : PatrolState} {v : LoopVars} {n : Option Interval} {q : SetPc} {slots : Rota ℤ}
variable {interval : Interval} {now : ℚ} {slot : ℤ} {p : Position}

theorem Issues.of_step {c c₁ : Streamer} {e : Move} (he : Alone c e)
    (h : patrol.step c e = some c₁) (hphase : c₁.shared.phase = c.shared.phase)
    (hc : Issues c₁) : Issues c := by
  obtain ⟨c', hrun, m, hm, hpatrol, hmphase⟩ := hc
  exact ⟨c', (Steps.single he h).trans hrun, m, hm, hpatrol, hmphase.trans hphase⟩

/-- The loop takes a step. -/
theorem Issues.of_loop {pc : LoopPc}
    (hc : Issues (pair (loopNext s v pc).1 (loopNext s v pc).2.1 (loopNext s v pc).2.2 n q)) :
    Issues (pair s v pc n q) :=
  Issues.of_step (e := .sched 0 ()) rfl rfl (loopNext_kept s v pc).2.1 hc

/-- Time passes until the loop has nothing to wait for. -/
theorem Issues.of_wait {pc : LoopPc} (time : ℚ)
    (hc : ∀ clock, time ≤ clock → Issues (pair { s with clock := clock } v pc n q)) :
    Issues (pair s v pc n q) := by
  have hd : (0 : ℚ) ≤ max 0 (time - s.clock) := le_max_left _ _
  have hstep : patrol.step (pair s v pc n q) (.env (.tick (max 0 (time - s.clock)))) =
      some (pair { s with clock := s.clock + max 0 (time - s.clock) } v pc n q) := by
    show (patrolEnv s (.tick (max 0 (time - s.clock)))).map _ = _
    rw [patrolEnv, if_pos hd, Option.map_some]
  refine Issues.of_step (e := .env (.tick _)) rfl hstep rfl (hc _ ?_)
  have hle : time - s.clock ≤ max 0 (time - s.clock) := le_max_right _ _
  linarith

theorem issues_move (hconfigured : s.configured = true) (pc : MovePc) :
    Issues (pair s v (.move slot p pc) n q) := by
  have hpost : ∀ w : LoopVars, Issues (pair s w (.move slot p .post) n q) := by
    intro w
    have hstep : patrol.step (pair s w (.move slot p .post) n q) (.sched 0 ()) =
        some (pair (s.send (.patrol slot) p) w.again .top n q) := by
      show some (pair (loopNext s w (.move slot p .post)).1 _ _ n q) = _
      simp only [loopNext, moveNext, if_pos hconfigured]
    exact ⟨_, Steps.single (e := .sched 0 ()) rfl hstep, ⟨.patrol slot, p, s.phase, s.clock⟩,
      List.mem_cons_self, rfl, rfl⟩
  have hcheck : Issues (pair s v (.move slot p .check) n q) := by
    apply Issues.of_loop
    simp only [loopNext, moveNext, if_pos hconfigured]
    exact hpost v
  cases pc with
  | resolve => exact Issues.of_loop hcheck
  | check => exact hcheck
  | post => exact hpost v

theorem issues_point (hconfigured : s.configured = true) :
    Issues (pair s v (.point slot p) n q) := by
  have hpointed : (s.setSlot (some slot)).configured = true := hconfigured
  apply Issues.of_loop
  show Issues (pair (s.setSlot (some slot)) v (.move slot p .resolve) n q)
  exact issues_move hpointed .resolve

theorem issues_preset (hconfigured : s.configured = true) (hslots : s.presets.slots = some slots) :
    Issues (pair s v (.preset now interval slots) n q) := by
  obtain ⟨p, hp⟩ := PresetTable.get_of_slots hslots (slots.visit_mem v.idx)
  apply Issues.of_loop
  have hbegun : (s.begin ⟨slots.visit v.idx, now, v.iteration, s.enabledPhase⟩).configured = true :=
    hconfigured
  simp only [loopNext, hp]
  exact issues_point hbegun

theorem issues_moving (hconfigured : s.configured = true) (hslots : s.presets.slots = some slots) :
    Issues (pair s v (.moving now interval slots) n q) := by
  apply Issues.of_wait s.movingUntil
  intro clock hclock
  apply Issues.of_loop
  simp only [loopNext, if_neg (not_lt.mpr hclock)]
  exact issues_preset hconfigured hslots

theorem issues_clock (hconfigured : s.configured = true) (hslots : s.presets.slots = some slots) :
    Issues (pair s v (.clock interval slots) n q) := by
  apply Issues.of_wait (v.nextDue.getD 0)
  intro clock hclock
  have hdue : v.early clock = false := by
    rw [LoopVars.early]
    cases hnext : v.nextDue with
    | none => rfl
    | some due =>
      rw [hnext, Option.getD_some] at hclock
      exact decide_eq_false (not_lt.mpr hclock)
  apply Issues.of_loop
  simp only [loopNext, hdue, Bool.false_eq_true, if_false]
  exact issues_moving hconfigured hslots

/-- From every point of an armed iteration a patrol move can still be issued. -/
theorem issues_of_armed {pc : LoopPc} (hconfigured : s.configured = true)
    (hreads : pc.Reads s.presets) (harmed : pc.armed = true) : Issues (pair s v pc n q) := by
  cases pc with
  | top | empty => cases harmed
  | configured interval slots =>
    apply Issues.of_loop
    simp only [loopNext, if_pos hconfigured]
    exact issues_clock hconfigured hreads
  | clock interval slots => exact issues_clock hconfigured hreads
  | moving now interval slots => exact issues_moving hconfigured hreads
  | preset now interval slots => exact issues_preset hconfigured hreads
  | point slot p => exact issues_point hconfigured
  | move slot p pc => exact issues_move hconfigured pc

end Armed

-- ============================================================================
-- An iteration that is not armed
-- ============================================================================

/-- The flag is off, and no move of the loop has been issued since. -/
structure OffInv (home : Position) (off : ℕ) (s : PatrolState) : Prop where
  disabled : s.enabled = false
  configured : s.configured = true
  home : s.presets.get 1 = some home
  phase : s.phase = off
  noPatrol : ∀ m ∈ s.sent, m.source.isPatrol = true → m.phase < off

/-- Where the call is, and what it has done. -/
def SetPc.Returning (home : Position) (off : ℕ) (s : PatrolState) : SetPc → Prop
  | .set => False
  | .home => True
  | .point p => p = some home
  | .move p _ => p = home ∧ s.slot = some 1
  | .returned => s.slot = some 1 ∧ ∃ at_, s.sent.head? = some ⟨.home, home, off, at_⟩

section Quiet

variable {s : PatrolState} {v : LoopVars} {pc : LoopPc} {n : Option Interval} {q : SetPc}
variable {home : Position} {off : ℕ}

/-- The loop reads the flag as off. -/
theorem loopNext_quiet (hI : OffInv home off s) (hreads : pc.Reads s.presets)
    (harmed : pc.armed = false) :
    loopNext s v pc = (s, v.idle, .top) := by
  cases pc with
  | top =>
    rw [loopNext]
    split
    · rename_i hnone
      exact absurd hnone (PresetTable.slots_ne_none hI.home)
    · rw [if_neg (Bool.eq_false_iff.mp hI.disabled)]
  | empty => exact absurd hreads (PresetTable.slots_ne_none hI.home)
  | _ => cases harmed

/-- The call goes on to preset 1. -/
theorem setNext_returning {r : PatrolState × SetPc} (hI : OffInv home off s)
    (hq : q.Returning home off s) (h : setNext s false n q = some r) :
    OffInv home off r.1 ∧ r.2.Returning home off r.1 := by
  cases q with
  | set => exact hq.elim
  | home =>
    cases h
    exact ⟨hI, hI.home⟩
  | point p =>
    obtain rfl : p = some home := hq
    cases h
    exact ⟨⟨hI.disabled, hI.configured, hI.home, hI.phase, hI.noPatrol⟩, rfl, rfl⟩
  | move p pc =>
    obtain ⟨rfl, hslot⟩ := hq
    cases h
    cases pc with
    | resolve => exact ⟨hI, rfl, hslot⟩
    | check =>
      simp only [moveNext, if_pos hI.configured]
      exact ⟨hI, rfl, hslot⟩
    | post =>
      simp only [moveNext, if_pos hI.configured]
      refine ⟨⟨hI.disabled, hI.configured, hI.home, hI.phase, ?_⟩, hslot, ?_⟩
      · refine List.forall_mem_cons.mpr ⟨fun hpatrol => ?_, hI.noPatrol⟩
        cases hpatrol
      · exact ⟨s.clock, by rw [← hI.phase]; rfl⟩
  | returned => cases h

/-- With the flag off and the loop not armed, the call ends at preset 1. -/
theorem endsAtHome_of_quiet {c : Streamer} (hI : OffInv home off s) (hreads : pc.Reads s.presets)
    (harmed : pc.armed = false) (hq : q.Returning home off s)
    (h : Steps patrol.step Alone (pair s v pc n q) c) : EndsAtHome home off c := by
  have hkeeps : ∃ s v pc q, c = pair s v pc n q ∧ OffInv home off s ∧ pc.Reads s.presets ∧
      pc.armed = false ∧ q.Returning home off s := by
    refine h.invariant (K := fun c => ∃ s v pc q, c = pair s v pc n q ∧ OffInv home off s ∧
      pc.Reads s.presets ∧ pc.armed = false ∧ q.Returning home off s) ?_
      ⟨s, v, pc, q, rfl, hI, hreads, harmed, hq⟩
    rintro a e b ⟨s, v, pc, q, rfl, hI, hreads, harmed, hq⟩ he hs
    rcases alone_cases he hs with rfl | ⟨r, hr, rfl⟩ | ⟨d, hd, rfl⟩
    · rw [loopNext_quiet hI hreads harmed]
      exact ⟨s, _, .top, q, rfl, hI, trivial, rfl, hq⟩
    · obtain ⟨hI', hq'⟩ := setNext_returning hI hq hr
      refine ⟨_, v, pc, _, rfl, hI', ?_, harmed, hq'⟩
      cases pc with
      | top => trivial
      | empty => exact absurd hreads (PresetTable.slots_ne_none hI.home)
      | _ => cases harmed
    · refine ⟨_, v, pc, q, rfl, ?_, hreads, harmed, ?_⟩
      · exact ⟨hI.disabled, hI.configured, hI.home, hI.phase, hI.noPatrol⟩
      · cases q <;> exact hq
  obtain ⟨s, v, pc, q, rfl, hI, -, -, hq⟩ := hkeeps
  refine ⟨hI.noPatrol, fun m hm => ?_⟩
  cases hm
  exact hq

end Quiet

-- ============================================================================
-- Turning the patrol off
-- ============================================================================

section Off

variable {s₀ s : PatrolState} {v₀ v : LoopVars} {pc : LoopPc} {n : Option Interval}
variable {home : Position}

/-- Until the call takes its first step the patrol is on. -/
structure OnInv (home : Position) (s : PatrolState) (pc : LoopPc) (q : SetPc) : Prop where
  home : s.presets.get 1 = some home
  reads : pc.Reads s.presets
  enabled : q = .set → s.enabled = true ∧ ∀ m ∈ s.sent, m.phase ≤ s.phase

theorem setNext_ne_set {q : SetPc} {r : PatrolState × SetPc} (h : setNext s false n q = some r) :
    r.2 ≠ .set ∧ Kept s r.1 := by
  cases q with
  | set =>
    cases h
    refine ⟨?_, rfl, rfl⟩
    show (if _ then SetPc.home else .returned) ≠ .set
    split_ifs <;> exact SetPc.noConfusion
  | home =>
    cases h
    exact ⟨SetPc.noConfusion, rfl, rfl⟩
  | point p =>
    cases p with
    | none =>
      cases h
      exact ⟨SetPc.noConfusion, rfl, rfl⟩
    | some p =>
      cases h
      exact ⟨SetPc.noConfusion, rfl, rfl⟩
  | move p pc =>
    cases h
    refine ⟨?_, (moveNext_kept s .home p pc).1⟩
    cases (moveNext s .home p pc).2 <;> exact SetPc.noConfusion
  | returned => cases h

/-- The loop logs its moves under the phase that goes on. -/
theorem loopNext_sent (h : ∀ m ∈ s.sent, m.phase ≤ s.phase) :
    ∀ m ∈ (loopNext s v pc).1.sent, m.phase ≤ (loopNext s v pc).1.phase := by
  have hpost : ∀ source p, ∀ m ∈ (s.send source p).sent, m.phase ≤ (s.send source p).phase :=
    fun source p => List.forall_mem_cons.mpr ⟨le_refl _, h⟩
  cases pc with
  | top =>
    rw [loopNext]
    split
    · exact h
    · split_ifs <;> exact h
  | empty | point slot p => exact h
  | configured n l | clock n l | moving now n l =>
    rw [loopNext]
    split_ifs <;> exact h
  | preset now n l =>
    rw [loopNext]
    split <;> exact h
  | move slot p pc =>
    cases pc with
    | resolve => exact h
    | check =>
      simp only [loopNext, moveNext]
      split_ifs <;> exact h
    | post =>
      simp only [loopNext, moveNext]
      split_ifs
      · exact hpost _ _
      · exact h

theorem onInv_run {c : Streamer} (h0 : Patrolling s₀ home)
    (h : Steps patrol.step Alone (pair s₀ v₀ .top n .set) c) :
    ∃ s v pc q, c = pair s v pc n q ∧ OnInv home s pc q := by
  refine h.invariant (K := fun c => ∃ s v pc q, c = pair s v pc n q ∧ OnInv home s pc q) ?_
    ⟨s₀, v₀, .top, .set, rfl, h0.home, trivial, fun _ => ⟨h0.enabled, ?_⟩⟩
  · rintro a e b ⟨s, v, pc, q, rfl, hI⟩ he hs
    rcases alone_cases he hs with rfl | ⟨r, hr, rfl⟩ | ⟨d, hd, rfl⟩
    · obtain ⟨hkept, -, henabled⟩ := loopNext_kept s v pc
      refine ⟨_, _, _, q, rfl, ?_, ?_, fun hq => ?_⟩
      · rw [hkept.presets, hI.home]
      · rw [hkept.presets]
        exact loopNext_reads hI.reads
      · exact ⟨henabled.trans (hI.enabled hq).1, loopNext_sent (hI.enabled hq).2⟩
    · obtain ⟨hne, hkept⟩ := setNext_ne_set hr
      refine ⟨_, v, pc, _, rfl, ?_, ?_, fun hq => absurd hq hne⟩
      · rw [hkept.presets, hI.home]
      · rw [hkept.presets]
        exact hI.reads
    · exact ⟨_, v, pc, q, rfl, hI.home, hI.reads, hI.enabled⟩
  · rw [h0.sent]
    exact List.forall_mem_nil _

/-- Without a PTZ target the call issues no move. -/
theorem returns_unconfigured (hconfigured : s.configured = false)
    (hhome : s.presets.get 1 = some home) :
    Steps patrol.step Alone (pair s v pc n .home) (pair (s.setSlot (some 1)) v pc n .returned) := by
  have hget : patrol.step (pair s v pc n .home) (.sched 1 ()) =
      some (pair s v pc n (.point (some home))) := by
    rw [← hhome]
    rfl
  have hcheck : patrol.step (pair (s.setSlot (some 1)) v pc n (.move home .check)) (.sched 1 ()) =
      some (pair (s.setSlot (some 1)) v pc n .returned) := by
    show some (pair (s.setSlot (some 1)) v pc n
      ((if s.configured then some MovePc.post else none).elim .returned (.move home))) = _
    rw [hconfigured, if_neg Bool.false_ne_true]
    rfl
  have hpoint : Steps patrol.step Alone (pair s v pc n (.point (some home)))
      (pair (s.setSlot (some 1)) v pc n (.move home .resolve)) :=
    Steps.single (e := .sched 1 ()) rfl rfl
  have hresolve : Steps patrol.step Alone (pair (s.setSlot (some 1)) v pc n (.move home .resolve))
      (pair (s.setSlot (some 1)) v pc n (.move home .check)) :=
    Steps.single (e := .sched 1 ()) rfl rfl
  have hhomed : Steps patrol.step Alone (pair s v pc n .home)
      (pair s v pc n (.point (some home))) := Steps.single (e := .sched 1 ()) rfl hget
  exact ((hhomed.trans hpoint).trans hresolve).trans (Steps.single (e := .sched 1 ()) rfl hcheck)

/-- The call ends at preset 1, however it goes on, if and only if PTZ is configured and the loop is
not between its reading of the flag and its move when the flag is cleared. -/
theorem turned_off_iff {c : Streamer} (h0 : Patrolling s₀ home)
    (hrun : Steps patrol.step Alone (pair s₀ v₀ .top n .set) (pair s v pc n .set))
    (hoff : patrol.step (pair s v pc n .set) (.sched 1 ()) = some c) :
    (∀ c', Steps patrol.step Alone c c' → EndsAtHome home (s.phase + 1) c') ↔
      s.configured = true ∧ pc.armed = false := by
  obtain ⟨s', v', pc', q', heq, hI⟩ := onInv_run h0 hrun
  cases heq
  obtain ⟨henabled, hsent⟩ := hI.enabled rfl
  have hc : c = pair ((s.setEnabled false).setInterval (n.getD s.interval)) v pc n .home := by
    have hstep : patrol.step (pair s v pc n .set) (.sched 1 ()) =
        some (pair ((s.setEnabled false).setInterval (n.getD s.interval)) v pc n
          (if s.enabled && !false then .home else .returned)) := rfl
    rw [hstep, henabled] at hoff
    exact (Option.some.inj hoff).symm
  have hphase : ((s.setEnabled false).setInterval (n.getD s.interval)).phase = s.phase + 1 := by
    show (if s.enabled = false then s.phase else s.phase + 1) = _
    rw [henabled, if_neg Bool.true_eq_false.mp]
  rw [hc]
  constructor
  · intro hall
    have hconfigured : s.configured = true := by
      by_contra hunconfigured
      -- The call returns without a move, and those before it are of an earlier phase.
      have hends := hall _ (returns_unconfigured (Bool.eq_false_iff.mpr hunconfigured) hI.home)
      obtain ⟨at_, hhead⟩ := (hends.returned n rfl).2
      have hlast := List.mem_of_head? hhead
      have hle := hsent _ hlast
      have hlt : s.phase + 1 ≤ s.phase := hle
      omega
    refine ⟨hconfigured, ?_⟩
    by_contra harmed
    obtain ⟨c', hc', m, hm, hpatrol, hmphase⟩ :=
      issues_of_armed (s := (s.setEnabled false).setInterval (n.getD s.interval)) (v := v) (n := n)
        (q := .home) hconfigured hI.reads (Bool.eq_true_of_not_eq_false harmed)
    have hlt := (hall c' hc').noPatrol m hm hpatrol
    have heq : m.phase = s.phase + 1 := hmphase.trans hphase
    omega
  · rintro ⟨hconfigured, harmed⟩ c' hc'
    have hquiet : OffInv home (s.phase + 1)
        ((s.setEnabled false).setInterval (n.getD s.interval)) :=
      ⟨rfl, hconfigured, hI.home, hphase, fun m hm _ => Nat.lt_succ_of_le (hsent m hm)⟩
    have hreads : pc.Reads ((s.setEnabled false).setInterval (n.getD s.interval)).presets :=
      hI.reads
    exact endsAtHome_of_quiet (q := .home) hquiet hreads harmed trivial hc'

end Off

section Schedules

instance (c : Streamer) (e : Move) : Decidable (Alone c e) := inferInstanceAs (Decidable (_ = true))

/-- Presets 1 and 3 are saved, and the patrol is on. -/
def twoPresets : PatrolState where
  enabled := true
  interval := .of 5
  slot := none
  presets := ⟨[(1, .finite 1, .finite 0), (3, .finite 3, .finite 0)], by decide⟩
  configured := true
  movingUntil := 0
  clock := 100
  phase := 0
  visits := []
  manual := []
  sent := []

theorem twoPresets_patrolling : Patrolling twoPresets (.finite 1, .finite 0) :=
  ⟨rfl, rfl, rfl⟩

/-- The move to preset 3 is issued. -/
def movedToThree : PatrolState :=
  { twoPresets with
    slot := some 3
    visits := [⟨3, 100, 0, some 0⟩]
    sent := [⟨.patrol 3, (.finite 3, .finite 0), 0, 100⟩] }

/-- The thread takes so many steps. -/
abbrev goes (i n : ℕ) : List Move := List.replicate n (.sched i ())

theorem moved_run : Steps patrol.step Alone (pair twoPresets ⟨1, none, 0⟩ .top none .set)
    (pair movedToThree ⟨2, some 105, 1⟩ .top none .set) := by
  have hrun : run (guardedStep patrol.step Alone) (pair twoPresets ⟨1, none, 0⟩ .top none .set)
      (goes 0 9) = some (pair movedToThree ⟨2, some 105, 1⟩ .top none .set) := by
    with_unfolding_all rfl
  exact Steps.of_runGuarded hrun

/-- When the move of the iteration is over, the camera ends at preset 1. -/
theorem turned_off_between :
    ∃ c, patrol.step (pair movedToThree ⟨2, some 105, 1⟩ .top none .set) (.sched 1 ()) = some c ∧
      ∀ c', Steps patrol.step Alone c c' → EndsAtHome (.finite 1, .finite 0) 1 c' :=
  ⟨_, rfl, (turned_off_iff twoPresets_patrolling moved_run rfl).mpr ⟨rfl, rfl⟩⟩

/-- The flag is cleared and the camera sent to preset 1 while the iteration is about to move. -/
abbrev overtaken : List Move := goes 0 5 ++ goes 1 6 ++ goes 0 4

set_option maxRecDepth 4000 in
/-- The call is over, and the last move is the one to preset 3. -/
theorem turned_off_overtaken :
    ∃ c, Steps patrol.step Alone (pair twoPresets ⟨1, none, 0⟩ .top none .set) c ∧
      c.pool[1]? = some (.setPatrol false none .returned) ∧ c.shared.slot = some 3 ∧
      c.shared.sent.map SentMove.source = [.patrol 3, .home] ∧
      ¬EndsAtHome (.finite 1, .finite 0) 1 c := by
  let c := exec (guardedStep patrol.step Alone) (pair twoPresets ⟨1, none, 0⟩ .top none .set)
    overtaken
  have hslot : c.shared.slot = some 3 := by with_unfolding_all decide
  have hreturned : c.pool[1]? = some (.setPatrol false none .returned) := by
    with_unfolding_all decide
  refine ⟨c, Steps.execGuarded (by with_unfolding_all decide), hreturned, hslot,
    by with_unfolding_all decide, fun h => ?_⟩
  have hone := (h.returned none hreturned).1
  rw [hslot] at hone
  cases hone

end Schedules

end Babycat.Patrol
