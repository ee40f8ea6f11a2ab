/-
  Babycat.Analyzer.WatchdogPace

  The watchdog as the progressive stream-connect retry (FR-046).

  While no frame arrives the restarts that the watchdog decides on come further
  and further apart, up to the ceiling, and they are never closer than the base
  cadence.  The interval counts from the last frame or the last start, so the
  invariant is that an installed pipeline has its times from after the last
  restart; it is broken from the decision until the old pipeline is taken away
  and from an installation until the times are set, and then some thread still
  owes the rest (`PaceInv.settled`).
-/

import Babycat.Analyzer.Lifecycle
import Babycat.Analyzer.Pulse

namespace Babycat.Analyzer

open Babycat.Conc

/-- How many restarts in a row had no frame before and none after, the newest first, when there
    have been `frames` frames. -/
def failures (frames : ℕ) (restarts : List WatchdogRestart) : ℕ :=
  (restarts.takeWhile fun r => decide (r.frames = frames) && !r.delivered).length

/-- Each restart came later than the interval that the failures before it asked for. -/
def Paced : List WatchdogRestart → Prop
  | later :: earlier :: older =>
      earlier.time + watchdogBackoff.after (failures later.frames (earlier :: older)) <
        later.time ∧ Paced (earlier :: older)
  | _ => True

/-- An installed pipeline was started after the last restart was decided on. -/
def Settled (v : Pulse) : Prop :=
  v.pipeline = none ∨ ∀ r ∈ v.pace.restarts, r.time ≤ v.startedAt ∧ r.time ≤ v.lastFrame ∧
    (v.startedAt < v.lastFrame → r.frames < v.pace.frames)

/-- What holds of thread `i`; the watchdog is thread 2. -/
structure BeatOk (i : ℕ) (v : Pulse) (b : Beat) : Prop where
  refs : b.stage = .spawning ∨ (b.timeout ≠ none ∧ b.stage ≠ .asleep) → v.refs = true
  restart : b.stage = .restart → b.timeout ≠ none
  timeout : ∀ d, b.timeout = some d → i = 2 ∧ d ≤ watchdogBackoff.cap ∧
    watchdogBackoff.after (failures v.pace.frames v.pace.restarts) ≤ d

def Owing (b : Beat) : Prop := b.stage = .restart ∨ b.stage = .stamp

structure PaceInv (v : Pulse) (bs : List Beat) : Prop where
  past : ∀ r ∈ v.pace.restarts, r.time ≤ v.now ∧ r.frames ≤ v.pace.frames
  ready : v.threadsStarted = true → v.refs = true
  beat : ∀ i b, bs[i]? = some b → BeatOk i v b
  settled : Settled v ∨ ∃ b ∈ bs, Owing b
  paced : Paced v.pace.restarts

/-! ## Failures -/

section Failures

variable {n : ℕ} {t : ℚ} {rs : List WatchdogRestart}

theorem failures_of_lt (h : ∀ r ∈ rs, r.frames < n) : failures n rs = 0 := by
  cases rs with
  | nil => rfl
  | cons r older =>
      have hne : r.frames ≠ n := Nat.ne_of_lt (h r List.mem_cons_self)
      simp [failures, hne]

theorem failures_delivered : failures n (⟨t, n, true⟩ :: rs) = 0 := by simp [failures]

theorem failures_frameless : failures n (⟨t, n, false⟩ :: rs) = failures n rs + 1 := by
  simp [failures]

end Failures

/-! ## One look -/

section Look

variable {v : Pulse} {bs : List Beat} {i : ℕ} {d : ℚ}

/-- When the watchdog looks, nobody owes anything: a restart would be its own, and a start that
    has not set the times holds the lock. -/
theorem PaceInv.settled_look (h : PaceInv v bs) (hb : bs[i]? = some ⟨some d, .idle⟩)
    (hfree : ∀ q ∈ bs, q.stage ≠ .stamp) : Settled v := by
  rcases h.settled with hsettled | ⟨q, hq, hrestart | hstamp⟩
  · exact hsettled
  · obtain ⟨j, hj⟩ := List.mem_iff_getElem?.mp hq
    have hqok := h.beat j q hj
    obtain ⟨d', hd'⟩ := Option.ne_none_iff_exists'.mp (hqok.restart hrestart)
    have hj2 := (hqok.timeout d' hd').1
    have hi2 := ((h.beat i _ hb).timeout d rfl).1
    rw [hj2, ← hi2, hb] at hj
    obtain rfl := Option.some.inj hj
    cases hrestart
  · exact absurd hstamp (hfree q hq)

/-- A restart after frames keeps the base cadence, and there was no failure before it. -/
theorem Settled.paced_stalled (h : Settled v) (hpaced : Paced v.pace.restarts)
    (hp : v.pipeline ≠ none) (hframe : v.startedAt < v.lastFrame)
    (hlate : watchdogBackoff.base < v.now - v.lastFrame) :
    Paced (⟨v.now, v.pace.frames, true⟩ :: v.pace.restarts) := by
  have hold := h.resolve_left hp
  cases hrs : v.pace.restarts with
  | nil => trivial
  | cons earlier older =>
      rw [hrs] at hold hpaced
      refine ⟨?_, hpaced⟩
      have hnone : failures v.pace.frames (earlier :: older) = 0 :=
        failures_of_lt fun r hr => (hold r hr).2.2 hframe
      have hlast := (hold earlier List.mem_cons_self).2.1
      rw [hnone, watchdogBackoff.after_zero]
      linarith

/-- A restart without a frame comes later than the current interval. -/
theorem Settled.paced_frameless (h : Settled v) (hpaced : Paced v.pace.restarts)
    (hp : v.pipeline ≠ none) (hlate : d < v.now - v.lastFrame)
    (hd : watchdogBackoff.after (failures v.pace.frames v.pace.restarts) ≤ d) :
    Paced (⟨v.now, v.pace.frames, false⟩ :: v.pace.restarts) := by
  have hold := h.resolve_left hp
  cases hrs : v.pace.restarts with
  | nil => trivial
  | cons earlier older =>
      rw [hrs] at hold hpaced hd
      refine ⟨?_, hpaced⟩
      have hlast := (hold earlier List.mem_cons_self).2.1
      show earlier.time + watchdogBackoff.after (failures v.pace.frames (earlier :: older)) < v.now
      linarith

end Look

/-! ## One step -/

section Step

variable {v v' : Pulse} {bs : List Beat} {i : ℕ} {b b' : Beat}

theorem PaceInv.step_past (h : PaceInv v bs) (hs : BeatStep v b v' b') :
    ∀ r ∈ v'.pace.restarts, r.time ≤ v'.now ∧ r.frames ≤ v'.pace.frames := by
  intro r hr
  cases hs with
  | stalled | frameless =>
      rcases List.mem_cons.mp hr with rfl | hr
      · exact ⟨le_refl _, le_refl _⟩
      · exact h.past r hr
  | frame => exact ⟨(h.past r hr).1, Nat.le_succ_of_le (h.past r hr).2⟩
  | _ => exact h.past r hr

theorem PaceInv.step_ready (h : PaceInv v bs) (hb : bs[i]? = some b) (hs : BeatStep v b v' b') :
    v'.threadsStarted = true → v'.refs = true := by
  intro hstarted
  cases hs with
  | setRefs => rfl
  | spawn => exact (h.beat i _ hb).refs (.inl rfl)
  | _ => exact h.ready hstarted

theorem PaceInv.step_paced (h : PaceInv v bs) (hb : bs[i]? = some b) (hs : BeatStep v b v' b')
    (hfree : v.lock = none → ∀ q ∈ bs, q.stage ≠ .stamp) : Paced v'.pace.restarts := by
  cases hs with
  | stalled d hlock hp hframe hlate =>
      exact (h.settled_look hb (hfree hlock)).paced_stalled h.paced hp hframe hlate
  | frameless d hlock hp hnone hlate =>
      have hd := ((h.beat i _ hb).timeout d rfl).2.2
      exact (h.settled_look hb (hfree hlock)).paced_frameless h.paced hp hlate hd
  | _ => exact h.paced

/-- The mover owes the rest, or an installed pipeline has its times. -/
theorem PaceInv.step_settled (h : PaceInv v bs) (hb : bs[i]? = some b) (hs : BeatStep v b v' b') :
    Settled v' ∨ ∃ q ∈ bs.set i b', Owing q := by
  have hkeep : (Settled v → Settled v') → ¬ Owing b → Settled v' ∨ ∃ q ∈ bs.set i b', Owing q :=
    fun hsame hnot => h.settled.imp hsame fun howed => exists_mem_set hb howed hnot
  cases hs with
  | quiet =>
      refine h.settled.imp id fun howed => ?_
      exact exists_mem_move hb howed id fun _ hq => hq
  | setRefs | spawn | wake | relax => exact hkeep id (by rintro (⟨⟨⟩⟩ | ⟨⟨⟩⟩))
  | stalled | frameless => exact .inr ⟨_, mem_set_self hb, .inl rfl⟩
  | refused d hrefs =>
      -- `set_refs` comes before the threads
      have hset := (h.beat i _ hb).refs (.inr ⟨by simp, by simp⟩)
      rw [hrefs] at hset
      cases hset
  | detach => exact .inl (.inl rfl)
  | install => exact .inr ⟨_, mem_set_self hb, .inr rfl⟩
  | stamp =>
      refine .inl (.inr fun r hr => ?_)
      have htime := (h.past r hr).1
      exact ⟨htime, htime, fun hlt => absurd hlt (lt_irrefl _)⟩
  | frame =>
      refine hkeep (fun hsettled => ?_) (by rintro (⟨⟨⟩⟩ | ⟨⟨⟩⟩))
      refine hsettled.imp id fun hold r hr => ?_
      exact ⟨(hold r hr).1, (h.past r hr).1, fun _ => Nat.lt_succ_of_le (h.past r hr).2⟩

/-- The mover's own assertion after its step. -/
theorem PaceInv.step_own (h : PaceInv v bs) (hb : bs[i]? = some b) (hs : BeatStep v b v' b')
    (hfree : v.lock = none → ∀ q ∈ bs, q.stage ≠ .stamp) : BeatOk i v' b' := by
  have hok := h.beat i b hb
  cases hs with
  | quiet => exact ⟨hok.refs, hok.restart, hok.timeout⟩
  | setRefs => exact ⟨fun _ => rfl, by rintro ⟨⟩, by rintro d ⟨⟩⟩
  | spawn => exact ⟨fun _ => hok.refs (.inl rfl), by rintro ⟨⟩, by rintro d ⟨⟩⟩
  | wake d hstarted => exact ⟨fun _ => h.ready hstarted, by rintro ⟨⟩, hok.timeout⟩
  | relax d hlock hp hframe =>
      have hrefs := hok.refs (.inr ⟨by simp, by simp⟩)
      refine ⟨fun _ => hrefs, by rintro ⟨⟩, ?_⟩
      rintro d' ⟨⟩
      have hold := (h.settled_look hb (hfree hlock)).resolve_left hp
      have hnone : failures v.pace.frames v.pace.restarts = 0 :=
        failures_of_lt fun r hr => (hold r hr).2.2 hframe
      rw [hnone, watchdogBackoff.after_zero]
      exact ⟨(hok.timeout d rfl).1, watchdogBackoff.le, le_refl _⟩
  | stalled d hlock hp hframe hlate =>
      have hrefs := hok.refs (.inr ⟨by simp, by simp⟩)
      refine ⟨fun _ => hrefs, by rintro - ⟨⟩, ?_⟩
      rintro d' ⟨⟩
      show i = 2 ∧ _ ∧ watchdogBackoff.after (failures v.pace.frames (_ :: _)) ≤ _
      rw [failures_delivered, watchdogBackoff.after_zero]
      exact ⟨(hok.timeout d rfl).1, watchdogBackoff.le, le_refl _⟩
  | frameless d hlock hp hnone hlate =>
      have hrefs := hok.refs (.inr ⟨by simp, by simp⟩)
      refine ⟨fun _ => hrefs, by rintro - ⟨⟩, ?_⟩
      rintro d' ⟨⟩
      show i = 2 ∧ _ ∧ watchdogBackoff.after (failures v.pace.frames (_ :: _)) ≤ _
      rw [failures_frameless, ← watchdogBackoff.grow_after]
      exact ⟨(hok.timeout d rfl).1, watchdogBackoff.grow_le_cap d,
        watchdogBackoff.grow_mono (hok.timeout d rfl).2.2⟩
  | refused d hrefs =>
      exact ⟨fun _ => hok.refs (.inr ⟨by simp, by simp⟩), by rintro ⟨⟩, hok.timeout⟩
  | detach _ l hstage =>
      refine ⟨fun hwatch => hok.refs (.inr ⟨?_, ?_⟩), by rintro ⟨⟩, hok.timeout⟩
      · exact (hwatch.resolve_left (by rintro ⟨⟩)).1
      · rcases hstage with hidle | hdue
        · rw [hidle]
          rintro ⟨⟩
        · rw [hdue]
          rintro ⟨⟩
  | install d n =>
      refine ⟨fun hwatch => hok.refs (.inr ⟨?_, by rintro ⟨⟩⟩), by rintro ⟨⟩, hok.timeout⟩
      exact (hwatch.resolve_left (by rintro ⟨⟩)).1
  | stamp d =>
      refine ⟨fun hwatch => hok.refs (.inr ⟨?_, by rintro ⟨⟩⟩), by rintro ⟨⟩, hok.timeout⟩
      exact (hwatch.resolve_left (by rintro ⟨⟩)).1
  | frame => exact ⟨by rintro (⟨⟨⟩⟩ | ⟨hno, -⟩); exact absurd rfl hno, by rintro ⟨⟩, by rintro d ⟨⟩⟩

/-- Another thread's assertion after a step. -/
theorem PaceInv.step_other (h : PaceInv v bs) (hb : bs[i]? = some b) (hs : BeatStep v b v' b')
    {j : ℕ} {q : Beat} (hne : j ≠ i) (hq : bs[j]? = some q) : BeatOk j v' q := by
  have hok := h.beat j q hq
  -- the watchdog is alone: what it does to the restarts leaves the others without a timeout
  have halone : ∀ d, b.timeout = some d → ∀ d', q.timeout ≠ some d' := by
    intro d hd d' hd'
    have hi := ((h.beat i b hb).timeout d hd).1
    have hj := (hok.timeout d' hd').1
    exact hne (hj.trans hi.symm)
  cases hs with
  | setRefs => exact ⟨fun _ => rfl, hok.restart, hok.timeout⟩
  | stalled d | frameless d =>
      exact ⟨hok.refs, hok.restart, fun d' hd' => absurd hd' (halone d rfl d')⟩
  | frame =>
      refine ⟨hok.refs, hok.restart, fun d hd => ?_⟩
      obtain ⟨hj, hcap, hle⟩ := hok.timeout d hd
      have hnone : failures (v.pace.frames + 1) v.pace.restarts = 0 :=
        failures_of_lt fun r hr => Nat.lt_succ_of_le (h.past r hr).2
      refine ⟨hj, hcap, ?_⟩
      show watchdogBackoff.after (failures (v.pace.frames + 1) v.pace.restarts) ≤ d
      rw [hnone]
      exact (watchdogBackoff.after_mono (Nat.zero_le _)).trans hle
  | _ => exact ⟨hok.refs, hok.restart, hok.timeout⟩

theorem PaceInv.step (h : PaceInv v bs) (hb : bs[i]? = some b) (hs : BeatStep v b v' b')
    (hfree : v.lock = none → ∀ q ∈ bs, q.stage ≠ .stamp) : PaceInv v' (bs.set i b') where
  past := h.step_past hs
  ready := h.step_ready hb hs
  beat j q hj := by
    rcases getElem?_set_cases hb hj with ⟨rfl, rfl⟩ | ⟨hne, hj⟩
    · exact h.step_own hb hs hfree
    · exact h.step_other hb hs hne hj
  settled := h.step_settled hb hs
  paced := h.step_paced hb hs hfree

theorem PaceInv.enter (h : PaceInv v bs) : PaceInv v (bs ++ [⟨none, .idle⟩]) where
  past := h.past
  ready := h.ready
  beat j q hj := by
    rcases getElem?_append_cases hj with hj | ⟨-, rfl⟩
    · exact h.beat j q hj
    · exact ⟨by rintro (⟨⟨⟩⟩ | ⟨hno, -⟩); exact absurd rfl hno, by rintro ⟨⟩, by rintro d ⟨⟩⟩
  settled := h.settled.imp id fun ⟨q, hq, howed⟩ => ⟨q, List.mem_append_left _ hq, howed⟩
  paced := h.paced

theorem PaceInv.tick (h : PaceInv v bs) (ht : PulseTick v v') : PaceInv v' bs := by
  obtain ⟨d, hd, rfl⟩ := ht
  refine ⟨fun r hr => ⟨?_, (h.past r hr).2⟩, h.ready, fun j q hj => ?_, h.settled, h.paced⟩
  · have htime := (h.past r hr).1
    show r.time ≤ v.now + d
    linarith
  · have hok := h.beat j q hj
    exact ⟨hok.refs, hok.restart, hok.timeout⟩

end Step

/-! ## Whole runs -/

/-- A start that has not set the times is under `_pipeline_lock`. -/
theorem stamp_inside {t : Thread} (h : t.beat.stage = .stamp) : t.phase.inside = true := by
  have hpc : ∀ (pending : Stage) (pc : StartPc), pending ≠ .stamp →
      pc.stage pending = .stamp → pc.phase.inside = true := by
    intro pending pc hne hpc
    cases pc with
    | play | stamp => rfl
    | lockStart | detach => exact absurd hpc hne
    | teardown | check | clear | drain | build | mark | unlock => cases hpc
  cases t with
  | boot pc =>
      cases pc with
      | pipeline pc => exact hpc .idle pc (by rintro ⟨⟩) h
      | _ => cases h
  | watchdog d pc =>
      cases pc with
      | pipeline pc => exact hpc .restart pc (by rintro ⟨⟩) h
      | _ => cases h
  | start pc =>
      cases pc with
      | pipeline pc => exact hpc .idle pc (by rintro ⟨⟩) h
      | _ => cases h
  | worker | prompt | presets | stop | frame => cases h

/-- Threads under `_pipeline_lock` hold it. -/
def HeldPaced : Conf (Shared × Pace) Thread → Prop :=
  Annotated (fun _ => True) (Mutex.Holds (fun x => x.1.pipelineLock) (fun t => t.phase.inside)
    fun _ _ _ => True)

theorem held_bootPaced (saved : Saved) (model : String) (now : ℚ) :
    HeldPaced (bootPaced saved model now) :=
  ⟨trivial, (held_boot saved model now).2⟩

theorem paceInv_boot (saved : Saved) (model : String) (now : ℚ) :
    PaceInv (pulse (bootPaced saved model now).shared)
      ((bootPaced saved model now).pool.map Thread.beat) where
  past r hr := by cases hr
  ready h := by cases h
  beat i b hb := by
    rcases i with _ | _ | _ | i
    · obtain rfl := Option.some.inj hb
      exact ⟨by rintro (⟨⟨⟩⟩ | ⟨hno, -⟩); exact absurd rfl hno, by rintro ⟨⟩, by rintro d ⟨⟩⟩
    · obtain rfl := Option.some.inj hb
      exact ⟨by rintro (⟨⟨⟩⟩ | ⟨hno, -⟩); exact absurd rfl hno, by rintro ⟨⟩, by rintro d ⟨⟩⟩
    · obtain rfl := Option.some.inj hb
      refine ⟨by rintro (⟨⟨⟩⟩ | ⟨-, hno⟩); exact absurd rfl hno, by rintro ⟨⟩, ?_⟩
      rintro d ⟨⟩
      exact ⟨rfl, watchdogBackoff.le, watchdogBackoff.after_zero.le⟩
    · cases hb
  settled := .inl (.inl rfl)
  paced := trivial

theorem paceInv_step (cfg : Config) (c : Conf (Shared × Pace) Thread)
    (e : Event Request Choice Env) (c' : Conf (Shared × Pace) Thread) (hheld : HeldPaced c)
    (h : PaceInv (pulse c.shared) (c.pool.map Thread.beat))
    (hs : (paced cfg).step c e = some c') :
    PaceInv (pulse c'.shared) (c'.pool.map Thread.beat) := by
  refine (paced_phases cfg).step h.enter (fun v' ht => h.tick ht) ?_ hs
  intro i k t v' b' _ ht hbeat
  refine h.step (map_phase_get ht) hbeat fun hlock q hq hstamp => ?_
  obtain ⟨u, hu, rfl⟩ := List.mem_map.mp hq
  obtain ⟨j, hj⟩ := List.mem_iff_getElem?.mp hu
  have hown := (hheld.2 j u hj (stamp_inside hstamp)).1
  exact absurd (hlock.symm.trans hown) (by simp)

theorem paceInv_run {cfg : Config} {saved : Saved} {model : String} {now : ℚ}
    {c : Conf (Shared × Pace) Thread}
    (hr : Steps (paced cfg).step free (bootPaced saved model now) c) :
    PaceInv (pulse c.shared) (c.pool.map Thread.beat) :=
  hr.invariant_under (J := HeldPaced)
    (K := fun c => PaceInv (pulse c.shared) (c.pool.map Thread.beat))
    (pipeline_mutex cfg).observed.held.step
    (fun a e b hheld hk _ hs => paceInv_step cfg a e b hheld hk hs)
    (held_bootPaced saved model now) (paceInv_boot saved model now)

theorem Paced.consecutive {newer older : List WatchdogRestart} {later earlier : WatchdogRestart}
    (h : Paced (newer ++ later :: earlier :: older)) :
    earlier.time + watchdogBackoff.after (failures later.frames (earlier :: older)) <
      later.time := by
  induction newer with
  | nil => exact h.1
  | cons r newer ih =>
      cases newer with
      | nil => exact ih h.2
      | cons r' newer => exact ih h.2

/-- In every run of the analyzer each restart by the watchdog comes later after the one before it
    than fifteen seconds, doubled up to a minute for every restart in a row that brought no
    frame; and the interval it waits stays between these two. -/
theorem restarts_paced (cfg : Config) (saved : Saved) (model : String) (now : ℚ)
    (c : Conf (Shared × Pace) Thread)
    (hr : Steps (paced cfg).step free (bootPaced saved model now) c) :
    (∀ newer older later earlier, c.shared.2.restarts = newer ++ later :: earlier :: older →
      earlier.time + watchdogBackoff.after (failures later.frames (earlier :: older)) <
        later.time) ∧
    ∀ d pc, Thread.watchdog d pc ∈ c.pool → watchdogTimeout ≤ d ∧ d ≤ watchdogTimeoutMax := by
  have hinv := paceInv_run hr
  refine ⟨fun newer older later earlier hrs => ?_, fun d pc ht => ?_⟩
  · have hpaced : Paced c.shared.2.restarts := hinv.paced
    rw [hrs] at hpaced
    exact hpaced.consecutive
  · have hbeat : (Thread.watchdog d pc).beat.timeout = some d := by cases pc <;> rfl
    obtain ⟨i, hi⟩ := List.mem_iff_getElem?.mp ht
    obtain ⟨-, hcap, hle⟩ := (hinv.beat i _ (map_phase_get hi)).timeout d hbeat
    exact ⟨(watchdogBackoff.base_le_after _).trans hle, hcap⟩

/-! ## Executions -/

/-- Boot with the flag active, and two restarts by the watchdog without a frame. -/
def noFrames : List (Event Request Choice Env) :=
  goes 0 13 ++ goes 2 1 ++ .env (.tick 20) :: goes 2 14 ++ .env (.tick 31) :: goes 2 1

abbrev afterNoFrames : Conf (Shared × Pace) Thread :=
  exec (paced sampleConfig).step (bootPaced sampleSaved "vlm" 100) noFrames

set_option maxRecDepth 4000 in
/-- The second restart comes more than thirty seconds after the first. -/
theorem restarts_paced_frameless :
    afterNoFrames.shared.2.restarts = [⟨151, 0, false⟩, ⟨120, 0, false⟩] ∧
    (120 : ℚ) + watchdogBackoff.after 1 < 151 := by
  have hrun : (run (paced sampleConfig).step (bootPaced sampleSaved "vlm" 100) noFrames).isSome =
      true := by with_unfolding_all rfl
  have hrestarts : afterNoFrames.shared.2.restarts = [⟨151, 0, false⟩, ⟨120, 0, false⟩] := by
    with_unfolding_all decide
  have hpaced := restarts_paced sampleConfig sampleSaved "vlm" 100 afterNoFrames
    (Steps.of_run (run_exec hrun))
  exact ⟨hrestarts, hpaced.1 [] [] ⟨151, 0, false⟩ ⟨120, 0, false⟩ hrestarts⟩

end Babycat.Analyzer
