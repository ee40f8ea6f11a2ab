/-
  Babycat.Analyzer.LatestFlag

  "Latest flag wins" (SDD §7.3).

  `/start` and `/stop` write the flag, save the settings, and only then look at
  the pipeline: a save that raises ends them in between (`flag_outlives_save`).
  In the runs without one the following holds.

  While the flag is active and no pipeline is installed (or a stop is about to
  remove it), some start has yet to look at the flag; while it is inactive and
  a pipeline is installed (or about to be), some stop has yet to look at it.
  Every step of the lifecycle keeps both (`LatestFlag.step`), so once nothing
  is in progress the pipeline is there exactly when the flag is active
  (`latest_flag_wins`).
-/

import Babycat.Analyzer.Lifecycle

namespace Babycat.Analyzer

open Babycat.Conc

/-- The phases that will look at the flag and install a pipeline if it is active, or did, unless
    their save raises. -/
def Phase.starts : Phase → Bool
  | .booting | .starting | .building | .perishing => true
  | _ => false

/-- The phases that will look at the flag and remove the pipeline if it is inactive, or did,
    unless their save raises. -/
def Phase.stops : Phase → Bool
  | .stopping | .detaching | .abandoning => true
  | _ => false

/-- What the last write of the flag asks for is done or still to be done. -/
structure LatestFlag (l : Life) (ps : List Phase) : Prop where
  booting : l.refs = false → .booting ∈ ps
  start : l.active = true → l.pipeline = none ∨ .detaching ∈ ps → ∃ p ∈ ps, p.starts = true
  stop : l.active = false → l.pipeline ≠ none ∨ .building ∈ ps → ∃ p ∈ ps, p.stops = true

/-! ## One step -/

section Step

variable {i : ℕ} {k : Choice} {l l' : Life} {p p' : Phase} {ps : List Phase}

/-- A phase other than the new one was there before. -/
theorem mem_of_mem_set {q : Phase} (h : q ∈ ps.set i p') (hne : q ≠ p') : q ∈ ps :=
  (List.mem_or_eq_of_mem_set h).resolve_right hne

theorem set_same (hp : ps[i]? = some p) : ps.set i p = ps := by
  obtain ⟨hi, rfl⟩ := List.getElem?_eq_some_iff.mp hp
  exact List.set_getElem_self hi

/-- Two threads inside are the same one. -/
theorem inside_unique (hlock : ∀ j q, ps[j]? = some q → q.inside = true → l.lock = some j)
    (hp : ps[i]? = some p) (hin : p.inside = true) {q : Phase} (hq : q ∈ ps)
    (hqin : q.inside = true) : q = p := by
  obtain ⟨j, hj⟩ := List.mem_iff_getElem?.mp hq
  have hij : j = i :=
    Option.some.inj ((hlock j q hj hqin).symm.trans (hlock i p hp hin))
  rw [hij, hp] at hj
  exact (Option.some.inj hj).symm

/-- The refs are set, or boot is still to set them. -/
theorem LatestFlag.step_booting (h : LatestFlag l ps) (hs : LifeStep i k l p l' p')
    (hp : ps[i]? = some p) : l'.refs = false → .booting ∈ ps.set i p' := by
  intro hrefs
  have hsame : l.refs = false ∧ (p = .booting → p' = .booting) := by
    cases hs with
    | quiet => exact ⟨hrefs, id⟩
    | setRefs => cases hrefs
    | doom h | spare h | perish h => cases h <;> exact ⟨hrefs, fun hb => by cases hb⟩
    | _ => exact ⟨hrefs, fun hb => by cases hb⟩
  by_cases hb : p = .booting
  · rw [hsame.2 hb]
    exact mem_set_self hp
  · obtain ⟨q, hq, rfl⟩ := exists_mem_set (Q := (· = Phase.booting)) hp
      ⟨_, h.booting hsame.1, rfl⟩ hb
    exact hq

/-- While the flag is active and the pipeline is missing, a start has yet to see it. -/
theorem LatestFlag.step_start (h : LatestFlag l ps) (hs : LifeStep i k l p l' p')
    (hp : ps[i]? = some p) (hk : ∀ cause, k ≠ .buildError cause)
    (hsave : ∀ {q}, Doomed q p → k = .ioError)
    (hlock : ∀ j q, ps[j]? = some q → q.inside = true → l.lock = some j) :
    l'.active = true → l'.pipeline = none ∨ .detaching ∈ ps.set i p' →
      ∃ q ∈ ps.set i p', q.starts = true := by
  intro ha hmissing
  -- a thread that is no start leaves the starts in the pool
  have hkeep : (∃ q ∈ ps, q.starts = true) → p.starts = false →
      ∃ q ∈ ps.set i p', q.starts = true :=
    fun hex hno => exists_mem_set hp hex (by rw [hno]; exact Bool.false_ne_true)
  have hstill : p' ≠ .detaching → .detaching ∈ ps.set i p' → .detaching ∈ ps :=
    fun hne hmem => mem_of_mem_set hmem (Ne.symm hne)
  cases hs with
  | quiet =>
      rw [set_same hp] at hmissing ⊢
      exact h.start ha hmissing
  | raise | wake | setRefs | replace => exact ⟨_, mem_set_self hp, rfl⟩
  | pass => exact ⟨_, mem_set_self hp, rfl⟩
  | drop => cases ha
  | skip hn | stop _ hn => rw [hn] at ha; cases ha
  | unready hrefs =>
      -- boot has not set the refs yet: it will look at the flag
      obtain ⟨q, hq, rfl⟩ := exists_mem_set (Q := (· = Phase.booting)) hp
        ⟨_, h.booting hrefs, rfl⟩ (by decide)
      exact ⟨_, hq, rfl⟩
  | install n =>
      rcases hmissing with hnone | hmem
      · cases hnone
      · -- a stop that is about to detach would hold the lock of this installation
        have hd := hstill (by decide) hmem
        cases inside_unique hlock hp rfl hd rfl
  | fail hfail => exact absurd hfail (hk _)
  | perish h hraise => exact absurd (hsave h) hraise
  | doom hd | spare hd =>
      have hold := h.start ha (hmissing.imp_right (hstill (by cases hd <;> decide)))
      cases hd with
      | start => exact ⟨_, mem_set_self hp, rfl⟩
      | stop => exact hkeep hold rfl
  | unlock | stale =>
      exact hkeep (h.start ha (hmissing.imp_right (hstill (by decide)))) rfl
  -- a stale stop detaches: the start that set the flag is waiting
  | detach =>
      exact hkeep (h.start ha (.inr (List.mem_of_getElem? hp))) rfl

/-- While the flag is inactive and a pipeline is there or to come, a stop has yet to see it. -/
theorem step_stop
    (hstop : l.active = false → l.pipeline ≠ none ∨ .building ∈ ps → ∃ q ∈ ps, q.stops = true)
    (hs : LifeStep i k l p l' p') (hp : ps[i]? = some p)
    (hsave : ∀ {q}, Doomed q p → k = .ioError)
    (hlock : ∀ j q, ps[j]? = some q → q.inside = true → l.lock = some j) :
    l'.active = false → l'.pipeline ≠ none ∨ .building ∈ ps.set i p' →
      ∃ q ∈ ps.set i p', q.stops = true := by
  intro ha hthere
  have hkeep : (∃ q ∈ ps, q.stops = true) → p.stops = false →
      ∃ q ∈ ps.set i p', q.stops = true :=
    fun hex hno => exists_mem_set hp hex (by rw [hno]; exact Bool.false_ne_true)
  have hstill : p' ≠ .building → .building ∈ ps.set i p' → .building ∈ ps :=
    fun hne hmem => mem_of_mem_set hmem (Ne.symm hne)
  cases hs with
  | quiet =>
      rw [set_same hp] at hthere ⊢
      exact hstop ha hthere
  | raise => cases ha
  | pass _ hy | stale hy => rw [hy] at ha; cases ha
  | perish h hraise => exact absurd (hsave h) hraise
  | doom hd | spare hd =>
      have hold := hstop ha (hthere.imp_right (hstill (by cases hd <;> decide)))
      cases hd with
      | start => exact hkeep hold rfl
      | stop => exact ⟨_, mem_set_self hp, rfl⟩
  | drop | stop => exact ⟨_, mem_set_self hp, rfl⟩
  | wake | setRefs | unready | skip | unlock =>
      exact hkeep (hstop ha (hthere.imp_right (hstill (by decide)))) rfl
  | replace =>
      rcases hthere with hsome | hmem
      · exact absurd rfl hsome
      · exact hkeep (hstop ha (.inr (hstill (by decide) hmem))) rfl
  -- the flag fell while the pipeline was being built: the stop that dropped it is waiting
  | install n => exact hkeep (hstop ha (.inr (List.mem_of_getElem? hp))) rfl
  | fail hfail =>
      exact hkeep (hstop ha (.inr (List.mem_of_getElem? hp))) rfl
  | detach =>
      rcases hthere with hsome | hmem
      · exact absurd rfl hsome
      · -- a start that is about to build would hold the lock of this stop
        cases inside_unique hlock hp rfl (hstill (by decide) hmem) rfl

/-- Every step of the lifecycle keeps the invariant. -/
theorem LatestFlag.step (h : LatestFlag l ps) (hs : LifeStep i k l p l' p')
    (hp : ps[i]? = some p) (hk : ∀ cause, k ≠ .buildError cause)
    (hsave : ∀ {q}, Doomed q p → k = .ioError)
    (hlock : ∀ j q, ps[j]? = some q → q.inside = true → l.lock = some j) :
    LatestFlag l' (ps.set i p') :=
  ⟨h.step_booting hs hp, h.step_start hs hp hk hsave hlock, step_stop h.stop hs hp hsave hlock⟩

/-- A new request has nothing to do with the pipeline yet. -/
theorem LatestFlag.enter (h : LatestFlag l ps) : LatestFlag l (ps ++ [.idle]) where
  booting hrefs := List.mem_append_left _ (h.booting hrefs)
  start ha hmissing := by
    have hold : .detaching ∈ ps ++ [Phase.idle] → .detaching ∈ ps := by simp
    obtain ⟨q, hq, hst⟩ := h.start ha (hmissing.imp_right hold)
    exact ⟨q, List.mem_append_left _ hq, hst⟩
  stop ha hthere := by
    have hold : .building ∈ ps ++ [Phase.idle] → .building ∈ ps := by simp
    obtain ⟨q, hq, hst⟩ := h.stop ha (hthere.imp_right hold)
    exact ⟨q, List.mem_append_left _ hq, hst⟩

/-- Once all is idle, the pipeline is there exactly when the flag is active. -/
theorem LatestFlag.settled (h : LatestFlag l ps) (hidle : ∀ q ∈ ps, q = .idle) :
    l.pipeline ≠ none ↔ l.active = true := by
  constructor
  · intro hthere
    by_contra ha
    obtain ⟨q, hq, hst⟩ := h.stop (Bool.not_eq_true _ ▸ ha) (.inl hthere)
    rw [hidle q hq] at hst
    cases hst
  · intro ha hnone
    obtain ⟨q, hq, hst⟩ := h.start ha (.inl hnone)
    rw [hidle q hq] at hst
    cases hst

end Step

/-! ## Whole runs -/

/-- The phases of the threads of a pool. -/
def phases (pool : List Thread) : List Phase := pool.map Thread.phase

/-- Pipeline construction succeeds. -/
def buildsSucceed : Event Request Choice Env → Bool
  | .sched _ (.buildError _) => false
  | _ => true

def BuildsSucceed (_ : Conf Shared Thread) (e : Event Request Choice Env) : Prop :=
  buildsSucceed e = true

instance (c : Conf Shared Thread) (e : Event Request Choice Env) : Decidable (BuildsSucceed c e) :=
  inferInstanceAs (Decidable (_ = true))

/-- No save of a `/start` or a `/stop` raises: it fails with an `OSError`, or the encoder takes
    what the handler has read. -/
def savesReturn (c : Conf Shared Thread) : Event Request Choice Env → Bool
  | .sched i k =>
      (c.pool[i]?.bind Thread.saving).all fun saved => decide (k = .ioError) || saved.encodable
  | _ => true

def SavesReturn (c : Conf Shared Thread) (e : Event Request Choice Env) : Prop :=
  savesReturn c e = true

instance (c : Conf Shared Thread) (e : Event Request Choice Env) : Decidable (SavesReturn c e) :=
  inferInstanceAs (Decidable (_ = true))

theorem SavesReturn.ioError {c : Conf Shared Thread} {i : ℕ} {k : Choice} {t : Thread} {q : Phase}
    (h : SavesReturn c (.sched i k)) (ht : c.pool[i]? = some t) (hd : Doomed q t.phase) :
    k = .ioError := by
  obtain ⟨saved, hsaved, he⟩ := saving_of_doomed hd
  simpa [SavesReturn, savesReturn, ht, hsaved, he] using h

/-- Pipeline construction succeeds, and no save of a `/start` or a `/stop` raises. -/
def Completes (c : Conf Shared Thread) (e : Event Request Choice Env) : Prop :=
  BuildsSucceed c e ∧ SavesReturn c e

instance (c : Conf Shared Thread) (e : Event Request Choice Env) : Decidable (Completes c e) :=
  inferInstanceAs (Decidable (_ ∧ _))

/-- No operation on the pipeline is in progress: boot has completed, the handlers have
    answered and the watchdog is between two looks. -/
def Thread.settled : Thread → Bool
  | .boot pc => pc == .done
  | .watchdog _ pc => pc == .notStarted || pc == .sleep
  | .start (.finished _) => true
  | .start _ => false
  | .stop pc => pc == .finished
  | _ => true

theorem settled_phase {t : Thread} (h : t.settled = true) : t.phase = .idle := by
  cases t with
  | boot pc | watchdog timeout pc | stop pc | start pc => cases pc <;> first | rfl | cases h
  | _ => rfl

theorem latestFlag_boot (saved : Saved) (model : String) (now : ℚ) :
    LatestFlag (boot saved model now).shared.life (phases (boot saved model now).pool) where
  booting _ := List.mem_cons_self
  start _ _ := ⟨.booting, List.mem_cons_self, rfl⟩
  stop _ h := by
    rcases h with h | h
    · exact absurd rfl h
    · exact absurd h (by decide : Phase.building ∉ [Phase.booting, .idle, .idle])

/-- A thread in a phase under `_pipeline_lock` holds it. -/
theorem lock_of_inside {c : Conf Shared Thread} {j : ℕ} {q : Phase}
    (hheld : Annotated (fun _ => True)
      (Mutex.Holds Shared.pipelineLock (fun t => t.phase.inside) fun _ _ _ => True) c)
    (hq : (phases c.pool)[j]? = some q) (hin : q.inside = true) : c.shared.life.lock = some j := by
  rw [phases, List.getElem?_map] at hq
  obtain ⟨v, hv, rfl⟩ := Option.map_eq_some_iff.mp hq
  exact (hheld.2 j v hv hin).1

theorem latestFlag_step (cfg : Config) (c : Conf Shared Thread) (e : Event Request Choice Env)
    (c' : Conf Shared Thread)
    (hheld : Annotated (fun _ => True)
      (Mutex.Holds Shared.pipelineLock (fun t => t.phase.inside) fun _ _ _ => True) c)
    (h : LatestFlag c.shared.life (phases c.pool)) (hG : Completes c e)
    (hs : (analyzer cfg).step c e = some c') :
    LatestFlag c'.shared.life (phases c'.pool) := by
  refine (life_refines cfg).step_still h h.enter (fun i k t l' p' he ht hl => ?_) hs
  subst he
  have hk : ∀ cause, k ≠ .buildError cause := by
    rintro cause rfl
    cases hG.1
  exact h.step hl (map_phase_get ht) hk (hG.2.ioError ht)
    fun j q hq hin => lock_of_inside hheld hq hin

/-- While the flag is inactive and a pipeline is installed, a stop has yet to look at the flag,
    whether or not pipelines can be built, when no save of a stop raises. -/
theorem stop_pending {cfg : Config} {saved : Saved} {model : String} {now : ℚ}
    {G : Conf Shared Thread → Event Request Choice Env → Prop} {c : Conf Shared Thread}
    (hG : ∀ a e, G a e → SavesReturn a e) (h : Steps (analyzer cfg).step G (boot saved model now) c)
    (ha : c.shared.app.analysisActive = false) (hp : c.shared.pipeline ≠ none) :
    ∃ q ∈ phases c.pool, q.stops = true := by
  let Inv : Life → List Phase → Prop := fun l ps =>
    l.active = false → l.pipeline ≠ none ∨ .building ∈ ps → ∃ q ∈ ps, q.stops = true
  have hinv := h.invariant_under (K := fun c => Inv c.shared.life (phases c.pool))
    (pipeline_mutex cfg).held.step ?_ (held_boot saved model now)
    (latestFlag_boot saved model now).stop
  · exact hinv ha (.inl hp)
  · intro a e b hheld hk hguard hs
    refine (life_refines cfg).step_still (K := Inv) hk ?_ (fun i k t l' p' he ht hl => ?_) hs
    · intro ha' hthere
      have hold : .building ∈ phases a.pool ++ [Phase.idle] → .building ∈ phases a.pool := by simp
      obtain ⟨q, hq, hst⟩ := hk ha' (hthere.imp_right hold)
      exact ⟨q, List.mem_append_left _ hq, hst⟩
    · subst he
      exact step_stop hk hl (map_phase_get ht) ((hG a _ hguard).ioError ht)
        fun j q hq hin => lock_of_inside hheld hq hin

/-- In the runs in which no save of a start or a stop raises, whenever no start, stop or watchdog
    restart is in progress and boot has completed, a pipeline is installed exactly when the flag is
    active. -/
theorem latest_flag_wins (cfg : Config) (saved : Saved) (model : String) (now : ℚ)
    (c : Conf Shared Thread)
    (h : Steps (analyzer cfg).step Completes (boot saved model now) c)
    (hsettled : ∀ t ∈ c.pool, t.settled = true) :
    c.shared.pipeline ≠ none ↔ c.shared.app.analysisActive = true := by
  have hinv := h.invariant_under (K := fun c => LatestFlag c.shared.life (phases c.pool))
    (pipeline_mutex cfg).held.step (latestFlag_step cfg) (held_boot saved model now)
    (latestFlag_boot saved model now)
  refine hinv.settled fun q hq => ?_
  obtain ⟨t, ht, rfl⟩ := List.mem_map.mp hq
  exact settled_phase (hsettled t ht)

/-! ## Executions -/

/-- A `/prompt` whose prompt is an unpaired surrogate. -/
def surrogatePrompt : Event Request Choice Env := .enter (.prompt ⟨[Text.loneSurrogate], []⟩)

def loadingSaved : Saved := { sampleSaved with analysisActive := false }

/-- A `/start` while the VLM is loading, then boot. -/
def startWhileLoading : List (Event Request Choice Env) :=
  .enter .start :: goes 3 8 ++ goes 0 13

/-- Then a watchdog restart after twenty seconds without a frame, and a `/stop` that drops the
    flag in the middle of it. -/
def stopDuringRestart : List (Event Request Choice Env) :=
  startWhileLoading ++ .env (.tick 20) :: goes 2 6 ++
    .enter .stop :: goes 4 1 ++ goes 2 3 ++ goes 4 10

/-- The state after a schedule in which every operation completes. -/
abbrev after (es : List (Event Request Choice Env)) : Conf Shared Thread :=
  exec (guardedStep (analyzer sampleConfig).step Completes) (boot loadingSaved "vlm" 100) es

set_option maxRecDepth 4000 in
/-- The start requested while the VLM was loading is not lost, and the restart does not revive
    the stopped analysis. -/
theorem latest_flag_wins_restart :
    ((after startWhileLoading).shared.app.analysisActive = true ∧
      ((after startWhileLoading).shared.pipeline ≠ none ↔
        (after startWhileLoading).shared.app.analysisActive = true)) ∧
    ((after stopDuringRestart).shared.app.analysisActive = false ∧
      ((after stopDuringRestart).shared.pipeline ≠ none ↔
        (after stopDuringRestart).shared.app.analysisActive = true)) :=
  ⟨⟨by decide, latest_flag_wins sampleConfig loadingSaved "vlm" 100 _
      (Steps.execGuarded (by decide)) (by decide)⟩,
    ⟨by with_unfolding_all decide, latest_flag_wins sampleConfig loadingSaved "vlm" 100 _
      (Steps.execGuarded (by with_unfolding_all decide)) (by with_unfolding_all decide)⟩⟩

/-- After boot has found the flag inactive, the surrogate is in memory when a `/start` saves. -/
def startRaises : List (Event Request Choice Env) :=
  goes 0 4 ++ surrogatePrompt :: goes 3 9 ++ .enter .start :: goes 4 7

/-- Boot has started the pipeline, and the surrogate is in memory when a `/stop` saves. -/
def stopRaises : List (Event Request Choice Env) :=
  goes 0 13 ++ surrogatePrompt :: goes 3 9 ++ .enter .stop :: goes 4 7

set_option maxRecDepth 4000 in
/-- A save that raises ends a `/start` before its callback, and a `/stop` before its teardown:
    nothing is in progress, and the flag is active without a pipeline, or inactive with one. -/
theorem flag_outlives_save :
    (∃ c, Steps (analyzer sampleConfig).step BuildsSucceed (boot loadingSaved "vlm" 100) c ∧
      (∀ t ∈ c.pool, t.settled = true) ∧
      c.shared.app.analysisActive = true ∧ c.shared.pipeline = none) ∧
    (∃ c, Steps (analyzer sampleConfig).step BuildsSucceed (boot sampleSaved "vlm" 100) c ∧
      (∀ t ∈ c.pool, t.settled = true) ∧
      c.shared.app.analysisActive = false ∧ c.shared.pipeline = some 0) :=
  ⟨⟨exec (guardedStep (analyzer sampleConfig).step BuildsSucceed) (boot loadingSaved "vlm" 100)
      startRaises, Steps.execGuarded (by decide), by decide, by decide, by decide⟩,
    ⟨exec (guardedStep (analyzer sampleConfig).step BuildsSucceed) (boot sampleSaved "vlm" 100)
      stopRaises, Steps.execGuarded (by decide), by decide, by decide, by decide⟩⟩

end Babycat.Analyzer
