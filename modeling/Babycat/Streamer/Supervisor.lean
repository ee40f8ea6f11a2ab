/-
  Babycat.Streamer.Supervisor

  The supervision of the MediaMTX child (`_mediamtx_supervisor` and
  `_stop_mediamtx` of `main.py`).

  The supervisor thread spawns the child, waits for its end and spawns the next
  one after a delay; the shutdown sets the event, looks for the child under the
  lock and ends it.  One step of either is one access to the lock, the event,
  the child or the clock, and they interleave in any way.  A child may exit at
  any time.

  `lives` and `late` are bookkeeping the code does not have: when each child was
  spawned and how it ended, and whether the event was set after the supervisor
  had looked at it and before it spawned.
-/

import Babycat.Conc.Backoff
import Babycat.Conc.Pool

namespace Babycat.Streamer.Supervision

open Babycat.Conc

/-! ## The two parties -/

/-- From one second, doubled up to ten. -/
def mtxBackoff : Backoff where
  base := 1
  cap := 10
  pos := by norm_num
  le := by norm_num

/-- `_STABLE_RUN_S`. -/
def stableRun : ℚ := 60

/-- How long the shutdown waits between SIGTERM and SIGKILL. -/
def termTimeout : ℚ := 10

inductive Proc
  | up
  /-- SIGKILL is sent. -/
  | killed
  | exited
  deriving DecidableEq

def Proc.kill : Proc → Proc
  | .up => .killed
  | p => p

inductive Party
  | supervisor
  | shutdown
  deriving DecidableEq

/-- One child: when it was spawned, and when the supervisor saw its end and whether it had run
    normally. -/
structure ChildLife where
  spawned : ℚ
  ended : Option (ℚ × Bool)
  deriving DecidableEq

structure Mtx where
  /-- All children, the oldest first. -/
  children : List Proc
  /-- `_mtx_proc`. -/
  proc : Option ℕ
  /-- `_mtx_lock`. -/
  lock : Option Party
  shuttingDown : Bool
  now : ℚ
  /-- How many `startup_apply` threads the supervisor has started. -/
  restores : ℕ
  /-- The newest first. -/
  lives : List ChildLife
  late : Bool
  deriving DecidableEq

/-- The child whose index a variable holds. -/
def Mtx.child (s : Mtx) (p : Option ℕ) : Option Proc := p.bind fun k => s.children[k]?

/-- The newest child has ended. -/
def Mtx.endLife (s : Mtx) (stable : Bool) : Mtx :=
  { s with lives := s.lives.modifyHead fun r => { r with ended := some (s.now, stable) } }

inductive SupervisorPc
  | head
  | acquire
  | spawn
  | release
  | stamp
  | wait (started : ℚ)
  | check (started : ℚ)
  | sleep
  | asleep (wake : ℚ)
  | grow
  | restore
  | finished
  /-- `Popen` has raised. -/
  | failed
  deriving DecidableEq

/-- Past its look at the event, and has not spawned. -/
def SupervisorPc.spawning : SupervisorPc → Bool
  | .acquire | .spawn => true
  | _ => false

/-- Has spawned a child and not seen it exit. -/
def SupervisorPc.waiting : SupervisorPc → Bool
  | .release | .stamp | .wait _ => true
  | _ => false

/-- `_mediamtx_supervisor`, with its local `backoff`; `fails` says that `Popen` raises. -/
def supervisorNext (s : Mtx) (fails : Bool) (backoff : ℚ) :
    SupervisorPc → Option (Mtx × ℚ × SupervisorPc)
  | .head => some (s, backoff, if s.shuttingDown then .finished else .acquire)
  | .acquire =>
      if s.lock = none then some ({ s with lock := some .supervisor }, backoff, .spawn) else none
  | .spawn =>
      if fails then some ({ s with lock := none }, backoff, .failed)
      else some ({ s with
        children := s.children ++ [.up]
        proc := some s.children.length
        lives := ⟨s.now, none⟩ :: s.lives }, backoff, .release)
  | .release => some ({ s with lock := none }, backoff, .stamp)
  | .stamp => some (s, backoff, .wait s.now)
  | .wait started =>
      if s.child s.proc = some .exited then some (s, backoff, .check started) else none
  -- an exit after the event was set is the shutdown's
  | .check started =>
      if s.shuttingDown then some (s, backoff, .finished)
      else
        let stable := decide (stableRun < s.now - started)
        some (s.endLife stable, if stable then mtxBackoff.base else backoff, .sleep)
  | .sleep => some (s, backoff, .asleep (s.now + backoff))
  | .asleep wake => if wake ≤ s.now then some (s, backoff, .grow) else none
  | .grow => some (s, mtxBackoff.grow backoff, .restore)
  | .restore => some ({ s with restores := s.restores + 1 }, backoff, .head)
  | .finished | .failed => none

inductive ShutdownPc
  | serving
  | acquire
  | read
  | release (proc : Option ℕ)
  | poll (proc : Option ℕ)
  | terminate (proc : ℕ)
  | wait (proc : ℕ) (deadline : ℚ)
  | kill (proc : ℕ)
  | finished
  deriving DecidableEq

/-- `_stop_mediamtx`; `spawning` is where the supervisor stands. -/
def shutdownNext (s : Mtx) (spawning : Bool) : ShutdownPc → Option (Mtx × ShutdownPc)
  | .serving => some ({ s with shuttingDown := true, late := spawning }, .acquire)
  | .acquire => if s.lock = none then some ({ s with lock := some .shutdown }, .read) else none
  | .read => some (s, .release s.proc)
  | .release proc => some ({ s with lock := none }, .poll proc)
  | .poll proc =>
      some (s, match proc with
        | none => .finished
        | some p => if s.child (some p) = some .exited then .finished else .terminate p)
  -- SIGTERM: the child may exit now as at any other time
  | .terminate p => some (s, .wait p (s.now + termTimeout))
  | .wait p deadline =>
      if s.child (some p) = some .exited then some (s, .finished)
      else if deadline ≤ s.now then some (s, .kill p)
      else none
  | .kill p => some ({ s with children := s.children.modify p Proc.kill }, .finished)
  | .finished => none

structure Supervised where
  mtx : Mtx
  backoff : ℚ
  supervisor : SupervisorPc
  shutdown : ShutdownPc
  deriving DecidableEq

inductive Move
  | supervisor (fails : Bool)
  | shutdown
  | tick (d : ℚ)
  /-- A child exits. -/
  | exit (p : ℕ)
  deriving DecidableEq

def step (m : Supervised) : Move → Option Supervised
  | .supervisor fails =>
      (supervisorNext m.mtx fails m.backoff m.supervisor).map fun r =>
        { m with mtx := r.1, backoff := r.2.1, supervisor := r.2.2 }
  | .shutdown =>
      (shutdownNext m.mtx m.supervisor.spawning m.shutdown).map fun r =>
        { m with mtx := r.1, shutdown := r.2 }
  | .tick d => if 0 ≤ d then some { m with mtx := { m.mtx with now := m.mtx.now + d } } else none
  | .exit p =>
      if p < m.mtx.children.length then
        some { m with mtx := { m.mtx with children := m.mtx.children.modify p fun _ => .exited } }
      else none

def boot (now : ℚ) : Supervised where
  mtx := ⟨[], none, none, false, now, 0, [], false⟩
  backoff := mtxBackoff.base
  supervisor := .head
  shutdown := .serving

/-! ## The lives of the children -/

/-- Whether the child had run normally. -/
def ChildLife.good (r : ChildLife) : Bool := r.ended.any Prod.snd

def attempts (lives : List ChildLife) : List Bool := lives.map ChildLife.good

/-- Each child was spawned only after the delay that followed the end of the one before it. -/
def Spaced : List ChildLife → Prop
  | later :: earlier :: older =>
      (∃ at_ good, earlier.ended = some (at_, good) ∧
        at_ + mtxBackoff.wait (attempts (earlier :: older)) ≤ later.spawned) ∧
      Spaced (earlier :: older)
  | _ => True

/-- The delay after the end of the newest child is over. -/
def Rested (s : Mtx) : Prop :=
  ∀ r older, s.lives = r :: older → ∃ at_ good, r.ended = some (at_, good) ∧
    at_ + mtxBackoff.wait (attempts s.lives) ≤ s.now

/-- What a child that counts as good has behind it. -/
def RanStable (r : ChildLife) : Prop :=
  ∀ at_, r.ended = some (at_, true) → r.spawned + stableRun < at_

/-- What the supervisor's variable holds. -/
def Told (s : Mtx) (backoff : ℚ) : SupervisorPc → Prop
  | .head | .acquire | .spawn | .restore =>
      Rested s ∧ backoff = mtxBackoff.held (attempts s.lives)
  | .release | .stamp =>
      ∃ r older, s.lives = r :: older ∧ r.spawned ≤ s.now ∧
        backoff = mtxBackoff.held (attempts older)
  | .wait started | .check started =>
      ∃ r older, s.lives = r :: older ∧ r.spawned ≤ started ∧
        backoff = mtxBackoff.held (attempts older)
  | .sleep =>
      ∃ r older at_ good, s.lives = r :: older ∧ r.ended = some (at_, good) ∧ at_ ≤ s.now ∧
        backoff = mtxBackoff.wait (attempts s.lives)
  | .asleep wake =>
      ∃ r older at_ good, s.lives = r :: older ∧ r.ended = some (at_, good) ∧
        at_ + mtxBackoff.wait (attempts s.lives) ≤ wake ∧
        backoff = mtxBackoff.wait (attempts s.lives)
  | .grow => Rested s ∧ s.lives ≠ [] ∧ backoff = mtxBackoff.wait (attempts s.lives)
  | .finished | .failed => True

/-- One `startup_apply` for every child but the first. -/
def Restored (s : Mtx) : SupervisorPc → Prop
  | .head | .acquire | .spawn => s.restores = s.children.length
  | .finished | .failed => s.restores ≤ s.children.length ∧ s.children.length ≤ s.restores + 1
  | _ => s.children.length = s.restores + 1

/-- `_mtx_proc` is the newest child, and the others have exited. -/
structure Newest (s : Mtx) : Prop where
  proc : s.proc = if s.children.length = 0 then none else some (s.children.length - 1)
  older : ∀ p, p + 1 < s.children.length → s.children[p]? = some .exited

/-- What the shutdown knows when the event was not set too late for the supervisor. -/
def Ending (s : Mtx) : ShutdownPc → Prop
  | .serving | .acquire | .read => True
  | .release p | .poll p => p = s.proc
  | .terminate p | .wait p _ | .kill p => s.proc = some p
  | .finished => ∀ c ∈ s.children, c ≠ .up

structure SupervisedInv (m : Supervised) : Prop where
  newest : Newest m.mtx
  exited : m.supervisor.waiting = false → ∀ c ∈ m.mtx.children, c = .exited
  told : Told m.mtx m.backoff m.supervisor
  lengths : m.mtx.lives.length = m.mtx.children.length
  spaced : Spaced m.mtx.lives
  stable : ∀ r ∈ m.mtx.lives, RanStable r
  restored : Restored m.mtx m.supervisor
  flag : m.shutdown ≠ .serving → m.mtx.shuttingDown = true
  early : m.shutdown ≠ .serving → m.mtx.late = false → m.supervisor.spawning = false
  ending : m.mtx.late = false → Ending m.mtx m.shutdown

/-! ## Lemmas on lives -/

section Lives

variable {s : Mtx} {r : ChildLife} {older : List ChildLife} {b : ℚ}

theorem attempts_cons : attempts (r :: older) = r.good :: attempts older := rfl

/-- How the newest child ended does not matter to when it was spawned. -/
theorem Spaced.end_newest {e : Option (ℚ × Bool)} (h : Spaced (r :: older)) :
    Spaced ({ r with ended := e } :: older) := by
  cases older with
  | nil => trivial
  | cons earlier older => exact h

theorem Spaced.spawn (h : Spaced s.lives) (hrested : Rested s) :
    Spaced (⟨s.now, none⟩ :: s.lives) := by
  cases hlives : s.lives with
  | nil => trivial
  | cons r older =>
      obtain ⟨at_, good, hended, hle⟩ := hrested r older hlives
      rw [hlives] at h hle
      exact ⟨⟨at_, good, hended, hle⟩, h⟩

/-- The variable after an end: the base when the child had run normally. -/
theorem wait_ended (stable : Bool) (at_ : ℚ) (hb : b = mtxBackoff.held (attempts older)) :
    (if stable then mtxBackoff.base else b) =
      mtxBackoff.wait (attempts ({ r with ended := some (at_, stable) } :: older)) := by
  rw [attempts_cons, mtxBackoff.wait_cons, hb]
  rfl

theorem held_of_ne_nil (h : s.lives ≠ []) :
    mtxBackoff.grow (mtxBackoff.wait (attempts s.lives)) =
      mtxBackoff.held (attempts s.lives) := by
  obtain ⟨r, older, hlives⟩ := List.exists_cons_of_ne_nil h
  rw [hlives]
  rfl

theorem Rested.later {s' : Mtx} (h : Rested s) (hlives : s'.lives = s.lives)
    (hnow : s.now ≤ s'.now) : Rested s' := by
  intro r older heq
  rw [hlives] at heq ⊢
  obtain ⟨at_, good, hended, hle⟩ := h r older heq
  exact ⟨at_, good, hended, hle.trans hnow⟩

/-- Time and the other party leave what the supervisor knows. -/
theorem Told.later {s' : Mtx} {pc : SupervisorPc} (h : Told s b pc) (hlives : s'.lives = s.lives)
    (hnow : s.now ≤ s'.now) : Told s' b pc := by
  cases pc with
  | head | acquire | spawn | restore =>
      exact ⟨h.1.later hlives hnow, by rw [hlives]; exact h.2⟩
  | release | stamp =>
      obtain ⟨r, older, heq, hle, hb⟩ := h
      exact ⟨r, older, hlives.trans heq, hle.trans hnow, hb⟩
  | wait started | check started =>
      obtain ⟨r, older, heq, hle, hb⟩ := h
      exact ⟨r, older, hlives.trans heq, hle, hb⟩
  | sleep =>
      obtain ⟨r, older, at_, good, heq, hended, hle, hb⟩ := h
      exact ⟨r, older, at_, good, hlives.trans heq, hended, hle.trans hnow, by rw [hlives]; exact hb⟩
  | asleep wake =>
      obtain ⟨r, older, at_, good, heq, hended, hle, hb⟩ := h
      refine ⟨r, older, at_, good, hlives.trans heq, hended, ?_, ?_⟩
      · rw [hlives]
        exact hle
      · rw [hlives]
        exact hb
  | grow =>
      refine ⟨h.1.later hlives hnow, ?_, ?_⟩
      · rw [hlives]
        exact h.2.1
      · rw [hlives]
        exact h.2.2
  | finished | failed => trivial

end Lives

/-! ## Lemmas on children -/

section Children

variable {s : Mtx} {p : ℕ}

/-- Once the newest child has exited, all have. -/
theorem Newest.all_exited (h : Newest s) (hexited : s.child s.proc = some .exited) :
    ∀ c ∈ s.children, c = .exited := by
  intro c hc
  obtain ⟨k, hk⟩ := List.mem_iff_getElem?.mp hc
  have hlt := (List.getElem?_eq_some_iff.mp hk).1
  rcases Nat.lt_or_ge (k + 1) s.children.length with hold | hnew
  · have hget := h.older k hold
    exact Option.some.inj (hk.symm.trans hget)
  · have hlast : s.children.length - 1 = k := by omega
    rw [h.proc, if_neg (by omega), hlast] at hexited
    exact Option.some.inj (hk.symm.trans hexited)

theorem Newest.none_of_proc (h : Newest s) (hproc : s.proc = none) : s.children = [] := by
  rw [h.proc] at hproc
  by_cases hempty : s.children.length = 0
  · exact List.eq_nil_of_length_eq_zero hempty
  · rw [if_neg hempty] at hproc
    cases hproc

/-- Children that only end keep the newest one. -/
theorem Newest.of_ended (h : Newest s) {f : Proc → Proc} (hf : f .exited = .exited) :
    Newest { s with children := s.children.modify p f } where
  proc := by
    rw [List.length_modify]
    exact h.proc
  older k hk := by
    rw [List.length_modify] at hk
    have hget := h.older k hk
    rw [List.getElem?_modify, hget]
    by_cases hpk : p = k
    · simp only [if_pos hpk, Option.map_eq_map, Option.map_some, hf]
    · simp only [if_neg hpk, Option.map_eq_map, Option.map_some]

theorem mem_modify {f : Proc → Proc} {c : Proc} (h : c ∈ s.children.modify p f) :
    c ∈ s.children ∨ ∃ c' ∈ s.children, c = f c' := by
  obtain ⟨k, hk⟩ := List.mem_iff_getElem?.mp h
  rw [List.getElem?_modify] at hk
  obtain ⟨c', hc', rfl⟩ := Option.map_eq_some_iff.mp hk
  have hmem := List.mem_of_getElem? hc'
  split
  · exact .inr ⟨c', hmem, rfl⟩
  · exact .inl hmem

end Children

/-! ## Steps of the supervisor -/

section Supervisor

variable {s s' : Mtx} {fails : Bool} {b b' : ℚ} {pc pc' : SupervisorPc}

/-- The children, the variable and the event are as they were. -/
structure SameChildren (s s' : Mtx) : Prop where
  children : s'.children = s.children
  proc : s'.proc = s.proc
  shuttingDown : s'.shuttingDown = s.shuttingDown
  late : s'.late = s.late

/-- What the supervisor does to the children: it spawns one, or nothing. -/
theorem supervisorNext_cases (h : supervisorNext s fails b pc = some (s', b', pc')) :
    (pc = .spawn ∧ pc' = .release ∧ s' = { s with
      children := s.children ++ [.up]
      proc := some s.children.length
      lives := ⟨s.now, none⟩ :: s.lives }) ∨
    (SameChildren s s' ∧
      (pc'.waiting = false → pc.waiting = false ∨ s.child s.proc = some .exited) ∧
      (pc'.spawning = true → pc.spawning = true ∨ s.shuttingDown = false)) := by
  cases pc with
  | spawn =>
      change (if _ then _ else _) = _ at h
      split at h
      · cases h
        exact .inr ⟨⟨rfl, rfl, rfl, rfl⟩, fun _ => .inl rfl, fun _ => .inl rfl⟩
      · cases h
        exact .inl ⟨rfl, rfl, rfl⟩
  | head =>
      cases h
      refine .inr ⟨⟨rfl, rfl, rfl, rfl⟩, fun _ => .inl rfl, fun hspawn => .inr ?_⟩
      cases hdown : s.shuttingDown with
      | false => rfl
      | true =>
          rw [hdown] at hspawn
          cases hspawn
  | acquire =>
      obtain ⟨-, heq⟩ := Option.ite_none_right_eq_some.mp h
      cases heq
      exact .inr ⟨⟨rfl, rfl, rfl, rfl⟩, fun _ => .inl rfl, fun _ => .inl rfl⟩
  | release | stamp =>
      cases h
      exact .inr ⟨⟨rfl, rfl, rfl, rfl⟩, by rintro ⟨⟩, by rintro ⟨⟩⟩
  | wait started =>
      obtain ⟨hexited, heq⟩ := Option.ite_none_right_eq_some.mp h
      cases heq
      exact .inr ⟨⟨rfl, rfl, rfl, rfl⟩, fun _ => .inr hexited, by rintro ⟨⟩⟩
  | check started =>
      change (if _ then _ else _) = _ at h
      split at h <;> cases h <;>
        exact .inr ⟨⟨rfl, rfl, rfl, rfl⟩, fun _ => .inl rfl, by rintro ⟨⟩⟩
  | asleep wake =>
      obtain ⟨-, heq⟩ := Option.ite_none_right_eq_some.mp h
      cases heq
      exact .inr ⟨⟨rfl, rfl, rfl, rfl⟩, fun _ => .inl rfl, by rintro ⟨⟩⟩
  | sleep | grow | restore =>
      cases h
      exact .inr ⟨⟨rfl, rfl, rfl, rfl⟩, fun _ => .inl rfl, by rintro ⟨⟩⟩
  | finished | failed => cases h

/-- The supervisor waits for what the lives so far ask for. -/
theorem Told.supervisor (ht : Told s b pc) (h : supervisorNext s fails b pc = some (s', b', pc')) :
    Told s' b' pc' := by
  cases pc with
  | head =>
      cases h
      split
      · trivial
      · exact ht
  | acquire =>
      obtain ⟨-, heq⟩ := Option.ite_none_right_eq_some.mp h
      cases heq
      exact ht
  | spawn =>
      change (if _ then _ else _) = _ at h
      split at h
      · cases h
        trivial
      · cases h
        exact ⟨_, s.lives, rfl, le_refl _, ht.2⟩
  | release =>
      cases h
      exact ht
  | stamp =>
      cases h
      exact ht
  | wait started =>
      obtain ⟨-, heq⟩ := Option.ite_none_right_eq_some.mp h
      cases heq
      exact ht
  | check started =>
      change (if _ then _ else _) = _ at h
      split at h
      · cases h
        trivial
      · obtain ⟨r, older, hlives, -, hb⟩ := ht
        cases h
        have hended : (s.endLife (decide (stableRun < s.now - started))).lives =
            { r with ended := some (s.now, decide (stableRun < s.now - started)) } :: older := by
          simp only [Mtx.endLife, hlives, List.modifyHead_cons]
        refine ⟨_, older, s.now, _, hended, rfl, le_refl _, ?_⟩
        rw [hended]
        exact wait_ended _ _ hb
  | sleep =>
      obtain ⟨r, older, at_, good, hlives, hended, hle, hb⟩ := ht
      cases h
      refine ⟨r, older, at_, good, hlives, hended, ?_, hb⟩
      rw [← hb]
      linarith
  | asleep wake =>
      obtain ⟨hwake, heq⟩ := Option.ite_none_right_eq_some.mp h
      obtain ⟨r, older, at_, good, hlives, hended, hle, hb⟩ := ht
      cases heq
      refine ⟨fun r' older' heq => ?_, ?_, hb⟩
      · rw [hlives] at heq
        obtain ⟨rfl, rfl⟩ := List.cons.inj heq
        exact ⟨at_, good, hended, hle.trans hwake⟩
      · rw [hlives]
        exact List.cons_ne_nil _ _
  | grow =>
      obtain ⟨hrested, hne, hb⟩ := ht
      cases h
      refine ⟨hrested, ?_⟩
      rw [hb]
      exact held_of_ne_nil hne
  | restore =>
      cases h
      exact ht
  | finished | failed => cases h

/-- A step that spawns nothing keeps the spawns apart and counts as good only what ran long. -/
theorem supervisorNext_lives (ht : Told s b pc) (hspaced : Spaced s.lives)
    (hstable : ∀ r ∈ s.lives, RanStable r)
    (h : supervisorNext s fails b pc = some (s', b', pc')) :
    Spaced s'.lives ∧ ∀ r ∈ s'.lives, RanStable r := by
  cases pc with
  | spawn =>
      change (if _ then _ else _) = _ at h
      split at h
      · cases h
        exact ⟨hspaced, hstable⟩
      · cases h
        refine ⟨hspaced.spawn ht.1, fun r hr => ?_⟩
        rcases List.mem_cons.mp hr with rfl | hr
        · rintro at_ ⟨⟩
        · exact hstable r hr
  | check started =>
      change (if _ then _ else _) = _ at h
      split at h
      · cases h
        exact ⟨hspaced, hstable⟩
      · obtain ⟨r, older, hlives, hstart, -⟩ := ht
        cases h
        rw [hlives] at hspaced hstable
        have hended : (s.endLife (decide (stableRun < s.now - started))).lives =
            { r with ended := some (s.now, decide (stableRun < s.now - started)) } :: older := by
          simp only [Mtx.endLife, hlives, List.modifyHead_cons]
        rw [hended]
        refine ⟨hspaced.end_newest, fun r' hr' => ?_⟩
        rcases List.mem_cons.mp hr' with rfl | hr'
        · intro at_ heq
          obtain ⟨rfl, hgood⟩ := Prod.mk.inj (Option.some.inj heq)
          have hlong := of_decide_eq_true hgood
          show r.spawned + stableRun < s.now
          linarith
        · exact hstable r' (List.mem_cons_of_mem _ hr')
  | acquire | wait | asleep =>
      obtain ⟨-, heq⟩ := Option.ite_none_right_eq_some.mp h
      cases heq
      exact ⟨hspaced, hstable⟩
  | head | release | stamp | sleep | grow | restore =>
      cases h
      exact ⟨hspaced, hstable⟩
  | finished | failed => cases h

theorem supervisorNext_lengths (hlengths : s.lives.length = s.children.length)
    (h : supervisorNext s fails b pc = some (s', b', pc')) :
    s'.lives.length = s'.children.length := by
  cases pc with
  | spawn =>
      change (if _ then _ else _) = _ at h
      split at h
      · cases h
        exact hlengths
      · cases h
        simp only [List.length_cons, List.length_append, List.length_nil, hlengths]
  | check started =>
      change (if _ then _ else _) = _ at h
      split at h
      · cases h
        exact hlengths
      · cases h
        show (s.lives.modifyHead _).length = s.children.length
        rw [List.length_modifyHead, hlengths]
  | acquire | wait | asleep =>
      obtain ⟨-, heq⟩ := Option.ite_none_right_eq_some.mp h
      cases heq
      exact hlengths
  | head | release | stamp | sleep | grow | restore =>
      cases h
      exact hlengths
  | finished | failed => cases h

theorem Restored.supervisor (hr : Restored s pc)
    (h : supervisorNext s fails b pc = some (s', b', pc')) : Restored s' pc' := by
  cases pc with
  | head =>
      cases h
      have heq : s.restores = s.children.length := hr
      split
      · exact ⟨by omega, by omega⟩
      · exact hr
  | spawn =>
      have heq : s.restores = s.children.length := hr
      change (if _ then _ else _) = _ at h
      split at h
      · cases h
        exact ⟨Nat.le_of_eq heq, (Nat.le_of_eq heq.symm).trans (Nat.le_succ _)⟩
      · cases h
        show (s.children ++ [Proc.up]).length = s.restores + 1
        rw [List.length_append, List.length_singleton, heq]
  | check started =>
      have heq : s.children.length = s.restores + 1 := hr
      change (if _ then _ else _) = _ at h
      split at h
      · cases h
        exact ⟨by omega, by omega⟩
      · cases h
        exact hr
  | restore =>
      cases h
      exact (show s.children.length = s.restores + 1 from hr).symm
  | acquire | wait | asleep =>
      obtain ⟨-, heq⟩ := Option.ite_none_right_eq_some.mp h
      cases heq
      exact hr
  | release | stamp | sleep | grow =>
      cases h
      exact hr
  | finished | failed => cases h

end Supervisor

/-! ## One step of the whole -/

section Step

variable {m m' : Supervised}

theorem Newest.of_same {s s' : Mtx} (h : Newest s) (hsame : SameChildren s s') : Newest s' where
  proc := by
    rw [hsame.proc, hsame.children]
    exact h.proc
  older := by
    rw [hsame.children]
    exact h.older

theorem Newest.spawn {s s' : Mtx} (hexited : ∀ c ∈ s.children, c = .exited)
    (hchildren : s'.children = s.children ++ [.up]) (hproc : s'.proc = some s.children.length) :
    Newest s' where
  proc := by
    rw [hproc, hchildren, List.length_append, List.length_singleton, if_neg (Nat.succ_ne_zero _),
      Nat.add_sub_cancel]
  older k hk := by
    rw [hchildren, List.length_append, List.length_singleton] at hk
    have hlt : k < s.children.length := by omega
    rw [hchildren, List.getElem?_append_left hlt, List.getElem?_eq_getElem hlt]
    exact congrArg some (hexited _ (List.getElem_mem hlt))

theorem Ending.of_same {s s' : Mtx} {pc : ShutdownPc} (h : Ending s pc)
    (hsame : SameChildren s s') : Ending s' pc := by
  cases pc with
  | serving | acquire | read => trivial
  | release p | poll p | terminate p | wait p | kill p =>
      unfold Ending
      rw [hsame.proc]
      exact h
  | finished =>
      unfold Ending
      rw [hsame.children]
      exact h

theorem SupervisedInv.supervisor (h : SupervisedInv m) {fails : Bool}
    (hs : step m (.supervisor fails) = some m') : SupervisedInv m' := by
  obtain ⟨⟨s', b', pc'⟩, hn, rfl⟩ := Option.map_eq_some_iff.mp hs
  have hlives := supervisorNext_lives h.told h.spaced h.stable hn
  rcases supervisorNext_cases hn with ⟨hpc, hpc', hs'⟩ | ⟨hsame, hwaiting, hspawning⟩
  · have hchildren : s'.children = m.mtx.children ++ [.up] := by rw [hs']
    have hproc : s'.proc = some m.mtx.children.length := by rw [hs']
    have hdown : s'.shuttingDown = m.mtx.shuttingDown := by rw [hs']
    have hlate : s'.late = m.mtx.late := by rw [hs']
    -- it was past its look at the event
    have hserving : s'.late = false → m.shutdown = .serving := by
      intro hearly
      by_contra hne
      have hnot := h.early hne (hlate ▸ hearly)
      rw [hpc] at hnot
      cases hnot
    refine ⟨.spawn (h.exited (by rw [hpc]; rfl)) hchildren hproc, ?_, h.told.supervisor hn,
      supervisorNext_lengths h.lengths hn, hlives.1, hlives.2, h.restored.supervisor hn,
      fun hne => ?_, fun hne hearly => ?_, fun hearly => ?_⟩
    · intro hnot
      rw [hpc'] at hnot
      cases hnot
    · exact hdown.trans (h.flag hne)
    · exact absurd (hserving hearly) hne
    · rw [hserving hearly]
      trivial
  · refine ⟨h.newest.of_same hsame, fun hnot => ?_, h.told.supervisor hn,
      supervisorNext_lengths h.lengths hn, hlives.1, hlives.2,
      h.restored.supervisor hn, fun hne => hsame.shuttingDown.trans (h.flag hne),
      fun hne hearly => ?_, fun hearly => ?_⟩
    · show ∀ c ∈ s'.children, c = .exited
      rw [hsame.children]
      rcases hwaiting hnot with hbefore | hexited
      · exact h.exited hbefore
      · exact h.newest.all_exited hexited
    · have hbefore := h.early hne (hsame.late ▸ hearly)
      cases hpc' : pc'.spawning with
      | false => rfl
      | true =>
          rcases hspawning hpc' with hspawn | hup
          · rw [hspawn] at hbefore
            cases hbefore
          · rw [h.flag hne] at hup
            cases hup
    · exact (h.ending (hsame.late ▸ hearly)).of_same hsame

/-- A child that ends: the newest stays the newest, and what was not up is not up. -/
theorem SupervisedInv.ended (h : SupervisedInv m) {p : ℕ} {f : Proc → Proc}
    (hf : f .exited = .exited) (hup : ∀ c, f c ≠ .up ∨ c = .up) :
    SupervisedInv { m with mtx := { m.mtx with children := m.mtx.children.modify p f } } where
  newest := h.newest.of_ended hf
  exited hnot c hc := by
    rcases mem_modify hc with hc | ⟨c', hc', rfl⟩
    · exact h.exited hnot c hc
    · rw [h.exited hnot c' hc', hf]
  told := h.told.later rfl (le_refl _)
  lengths := by
    show m.mtx.lives.length = (m.mtx.children.modify p f).length
    rw [List.length_modify]
    exact h.lengths
  spaced := h.spaced
  stable := h.stable
  restored := by
    have hlength : (m.mtx.children.modify p f).length = m.mtx.children.length :=
      List.length_modify ..
    have hold := h.restored
    unfold Restored at hold ⊢
    simp only [hlength]
    exact hold
  flag := h.flag
  early := h.early
  ending hearly := by
    have hold := h.ending hearly
    cases hpc : m.shutdown with
    | serving | acquire | read => trivial
    | release p | poll p | terminate p | wait p | kill p =>
        rw [hpc] at hold
        exact hold
    | finished =>
        rw [hpc] at hold
        intro c hc
        rcases mem_modify hc with hc | ⟨c', hc', rfl⟩
        · exact hold c hc
        · exact (hup c').resolve_right (hold c' hc')

theorem SupervisedInv.tick (h : SupervisedInv m) {d : ℚ} (hd : 0 ≤ d) :
    SupervisedInv { m with mtx := { m.mtx with now := m.mtx.now + d } } where
  newest := h.newest.of_same ⟨rfl, rfl, rfl, rfl⟩
  exited := h.exited
  told := h.told.later rfl (le_add_of_nonneg_right hd)
  lengths := h.lengths
  spaced := h.spaced
  stable := h.stable
  restored := h.restored
  flag := h.flag
  early := h.early
  ending hearly := (h.ending hearly).of_same ⟨rfl, rfl, rfl, rfl⟩

/-- A step of the shutdown that leaves the children alone. -/
theorem SupervisedInv.of_shutdown (h : SupervisedInv m) {s' : Mtx} {pc' : ShutdownPc}
    (hsame : SameChildren m.mtx s') (hlives : s'.lives = m.mtx.lives)
    (hnow : s'.now = m.mtx.now) (hrestores : s'.restores = m.mtx.restores)
    (hstarted : m.shutdown ≠ .serving) (hending : m.mtx.late = false → Ending m.mtx pc') :
    SupervisedInv { m with mtx := s', shutdown := pc' } where
  newest := h.newest.of_same hsame
  exited := by
    show m.supervisor.waiting = false → ∀ c ∈ s'.children, c = .exited
    rw [hsame.children]
    exact h.exited
  told := h.told.later hlives hnow.ge
  lengths := by
    show s'.lives.length = s'.children.length
    rw [hlives, hsame.children]
    exact h.lengths
  spaced := by
    show Spaced s'.lives
    rw [hlives]
    exact h.spaced
  stable := by
    show ∀ r ∈ s'.lives, RanStable r
    rw [hlives]
    exact h.stable
  restored := by
    have hold := h.restored
    unfold Restored at hold ⊢
    simp only [hsame.children, hrestores]
    exact hold
  flag _ := hsame.shuttingDown.trans (h.flag hstarted)
  early _ hearly := h.early hstarted (hsame.late ▸ hearly)
  ending hearly := (hending (hsame.late ▸ hearly)).of_same hsame

theorem SupervisedInv.shutdown (h : SupervisedInv m) (hs : step m .shutdown = some m') :
    SupervisedInv m' := by
  obtain ⟨⟨s', pc'⟩, hn, rfl⟩ := Option.map_eq_some_iff.mp hs
  cases hpc : m.shutdown with
  | serving =>
      rw [hpc] at hn
      cases hn
      refine ⟨⟨h.newest.proc, h.newest.older⟩, h.exited, h.told.later rfl (le_refl _), h.lengths,
        h.spaced, h.stable, h.restored, fun _ => rfl, fun _ hearly => hearly, fun _ => trivial⟩
  | acquire =>
      rw [hpc] at hn
      simp only [shutdownNext] at hn
      split at hn
      · cases hn
        exact h.of_shutdown ⟨rfl, rfl, rfl, rfl⟩ rfl rfl rfl (by rw [hpc]; rintro ⟨⟩)
          fun _ => trivial
      · cases hn
  | read =>
      rw [hpc] at hn
      cases hn
      exact h.of_shutdown ⟨rfl, rfl, rfl, rfl⟩ rfl rfl rfl (by rw [hpc]; rintro ⟨⟩) fun _ => rfl
  | release p =>
      rw [hpc] at hn
      cases hn
      refine h.of_shutdown ⟨rfl, rfl, rfl, rfl⟩ rfl rfl rfl (by rw [hpc]; rintro ⟨⟩) fun hearly => ?_
      have hold := h.ending hearly
      rw [hpc] at hold
      exact hold
  | poll p =>
      rw [hpc] at hn
      cases hn
      refine h.of_shutdown ⟨rfl, rfl, rfl, rfl⟩ rfl rfl rfl (by rw [hpc]; rintro ⟨⟩) fun hearly => ?_
      have hold := h.ending hearly
      rw [hpc] at hold
      have hproc : p = m.mtx.proc := hold
      cases p with
      | none =>
          have hempty := h.newest.none_of_proc hproc.symm
          intro c hc
          rw [hempty] at hc
          cases hc
      | some p =>
          by_cases hexited : m.mtx.child (some p) = some .exited
          · simp only [if_pos hexited]
            rw [hproc] at hexited
            intro c hc
            rw [h.newest.all_exited hexited c hc]
            rintro ⟨⟩
          · simp only [if_neg hexited]
            exact hproc.symm
  | terminate p =>
      rw [hpc] at hn
      cases hn
      refine h.of_shutdown ⟨rfl, rfl, rfl, rfl⟩ rfl rfl rfl (by rw [hpc]; rintro ⟨⟩) fun hearly => ?_
      have hold := h.ending hearly
      rw [hpc] at hold
      exact hold
  | wait p deadline =>
      have hproc : m.mtx.late = false → m.mtx.proc = some p := by
        intro hearly
        have hold := h.ending hearly
        rw [hpc] at hold
        exact hold
      rw [hpc] at hn
      simp only [shutdownNext] at hn
      split at hn
      · rename_i hexited
        cases hn
        refine h.of_shutdown ⟨rfl, rfl, rfl, rfl⟩ rfl rfl rfl (by rw [hpc]; rintro ⟨⟩)
          fun hearly c hc => ?_
        rw [← hproc hearly] at hexited
        rw [h.newest.all_exited hexited c hc]
        rintro ⟨⟩
      · split at hn
        · cases hn
          exact h.of_shutdown ⟨rfl, rfl, rfl, rfl⟩ rfl rfl rfl (by rw [hpc]; rintro ⟨⟩) hproc
        · cases hn
  | kill p =>
      have hproc : m.mtx.late = false → m.mtx.proc = some p := by
        intro hearly
        have hold := h.ending hearly
        rw [hpc] at hold
        exact hold
      rw [hpc] at hn
      cases hn
      have hended := h.ended (p := p) (f := Proc.kill) rfl
        (by intro c; cases c <;> simp [Proc.kill])
      refine hended.of_shutdown ⟨rfl, rfl, rfl, rfl⟩ rfl rfl rfl (by rw [hpc]; rintro ⟨⟩)
        fun hearly => ?_
      -- the newest child is killed, and the others have exited
      intro c hc hup
      obtain ⟨k, hk⟩ := List.mem_iff_getElem?.mp hc
      rw [List.getElem?_modify] at hk
      obtain ⟨c', hc', heq⟩ := Option.map_eq_some_iff.mp hk
      have hlt := (List.getElem?_eq_some_iff.mp hc').1
      have hlast := h.newest.proc
      rw [hproc hearly, if_neg (by omega)] at hlast
      have hp := Option.some.inj hlast
      rcases Nat.lt_or_ge (k + 1) m.mtx.children.length with hold | hnew
      · have hget := h.newest.older k hold
        obtain rfl := Option.some.inj (hc'.symm.trans hget)
        rw [if_neg (by omega)] at heq
        rw [← heq] at hup
        cases hup
      · rw [if_pos (by omega)] at heq
        rw [← heq] at hup
        cases c' <;> cases hup
  | finished =>
      rw [hpc] at hn
      cases hn

theorem SupervisedInv.step {e : Move} (h : SupervisedInv m) (hs : step m e = some m') :
    SupervisedInv m' := by
  cases e with
  | supervisor fails => exact h.supervisor hs
  | shutdown => exact h.shutdown hs
  | tick d =>
      simp only [Supervision.step] at hs
      split at hs
      · rename_i hd
        cases hs
        exact h.tick hd
      · cases hs
  | exit p =>
      simp only [Supervision.step] at hs
      split at hs
      · cases hs
        exact h.ended rfl fun _ => .inl (by rintro ⟨⟩)
      · cases hs

end Step

/-! ## Whole runs -/

theorem supervisedInv_boot (now : ℚ) : SupervisedInv (boot now) where
  newest := ⟨rfl, fun p hp => absurd hp (Nat.not_lt_zero _)⟩
  exited _ c hc := by cases hc
  told := ⟨(fun r older h => by cases h), rfl⟩
  lengths := rfl
  spaced := trivial
  stable r hr := by cases hr
  restored := rfl
  flag h := absurd rfl h
  early h := absurd rfl h
  ending _ := trivial

theorem Spaced.consecutive {newer older : List ChildLife} {later earlier : ChildLife}
    (h : Spaced (newer ++ later :: earlier :: older)) :
    ∃ at_ good, earlier.ended = some (at_, good) ∧
      at_ + mtxBackoff.wait (attempts (earlier :: older)) ≤ later.spawned := by
  induction newer with
  | nil => exact h.1
  | cons r newer ih =>
      cases newer with
      | nil => exact ih h.2
      | cons r' newer => exact ih h.2

/-- In every run at most one child has not exited; each child is spawned only after the delay
    that follows the end of the one before it, with one `startup_apply` for each but the first;
    and once the shutdown has returned no child is up, unless the event was set after the
    supervisor had looked at it and before it spawned. -/
theorem mediamtx_supervised (now : ℚ) (m : Supervised) (h : Steps step free (boot now) m) :
    (∀ (p q : ℕ) c d, m.mtx.children[p]? = some c → m.mtx.children[q]? = some d →
      c ≠ .exited → d ≠ .exited → p = q) ∧
    (m.mtx.lives.length = m.mtx.children.length ∧
      ∀ newer older later earlier, m.mtx.lives = newer ++ later :: earlier :: older →
        ∃ at_ good, earlier.ended = some (at_, good) ∧
          at_ + mtxBackoff.wait (attempts (earlier :: older)) ≤ later.spawned) ∧
    (∀ r ∈ m.mtx.lives, RanStable r) ∧
    (m.mtx.restores ≤ m.mtx.children.length ∧ m.mtx.children.length ≤ m.mtx.restores + 1) ∧
    (m.shutdown = .finished → m.mtx.late = false → ∀ c ∈ m.mtx.children, c ≠ .up) := by
  have hinv : SupervisedInv m :=
    h.invariant (fun _ _ _ hk _ hs => hk.step hs) (supervisedInv_boot now)
  have hnewest : ∀ (p : ℕ) c, m.mtx.children[p]? = some c → c ≠ .exited →
      p + 1 = m.mtx.children.length := by
    intro p c hc hne
    have hlt := (List.getElem?_eq_some_iff.mp hc).1
    by_contra hold
    have hexited := hinv.newest.older p (by omega)
    exact hne (Option.some.inj (hc.symm.trans hexited))
  refine ⟨fun p q c d hp hq hc hd => ?_, ⟨hinv.lengths, fun newer older later earlier hlives => ?_⟩,
    hinv.stable, ?_, fun hfinished hearly => ?_⟩
  · have hpn := hnewest p c hp hc
    have hqn := hnewest q d hq hd
    omega
  · have hspaced := hinv.spaced
    rw [hlives] at hspaced
    exact hspaced.consecutive
  · have hrestored := hinv.restored
    unfold Restored at hrestored
    split at hrestored <;> omega
  · have hending := hinv.ending hearly
    rw [hfinished] at hending
    exact hending

/-! ## Executions -/

/-- The first child exits after two seconds, and the second is killed by the shutdown. -/
def secondKilled : List Move :=
  List.replicate 5 (.supervisor false) ++ [.tick 2, .exit 0] ++
    List.replicate 3 (.supervisor false) ++ [.tick 1] ++ List.replicate 8 (.supervisor false) ++
    List.replicate 6 .shutdown ++ [.tick 10] ++ List.replicate 2 .shutdown

abbrev afterKill : Supervised := exec step (boot 100) secondKilled

theorem mediamtx_supervised_killed :
    afterKill.mtx.children = [.exited, .killed] ∧
    afterKill.mtx.lives = [⟨103, none⟩, ⟨100, some (102, false)⟩] ∧
    (∃ at_ good, (some ((102 : ℚ), false)) = some (at_, good) ∧
      at_ + mtxBackoff.wait (attempts [⟨100, some (102, false)⟩]) ≤ 103) ∧
    ∀ c ∈ afterKill.mtx.children, c ≠ .up := by
  have hrun : (run step (boot 100) secondKilled).isSome = true := by with_unfolding_all decide
  have hlives : afterKill.mtx.lives = [⟨103, none⟩, ⟨100, some (102, false)⟩] := by
    with_unfolding_all decide
  have hall := mediamtx_supervised 100 afterKill (Steps.of_run (run_exec hrun))
  exact ⟨by with_unfolding_all decide, hlives,
    hall.2.1.2 [] [] ⟨103, none⟩ ⟨100, some (102, false)⟩ hlives,
    hall.2.2.2.2 (by with_unfolding_all decide) (by with_unfolding_all decide)⟩

/-- The event is set between the look and the spawn: the shutdown finds no child, and the one
    that is spawned then stays up. -/
example : (run step (boot 100) ([.supervisor false] ++ List.replicate 5 .shutdown ++
    List.replicate 4 (.supervisor false))).map
      (fun m => (m.shutdown, m.supervisor, m.mtx.children, m.mtx.late)) =
    some (.finished, .wait 100, [.up], true) := by with_unfolding_all decide

end Babycat.Streamer.Supervision
