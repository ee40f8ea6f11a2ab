/-
  Babycat.Recorder.SegmentRecorder

  The encoder pipeline threads (`SegmentRecorder` of `segments.py`).

  Every `start()` that finds no worker at work starts a new generation: a thread
  with a stop event of its own that joins its predecessor before it touches the
  pipeline.  `stop()` sets the event of the current generation.  The chain of
  generations has any length; all but the newest are told to stop, and a
  generation is past its join only when all before it have ended.
-/

import Babycat.Conc.Mutex

namespace Babycat.Recorder

open Babycat.Conc

-- ============================================================================
-- Workers
-- ============================================================================

inductive SegWorkerPc
  /-- The thread object exists and is not started. -/
  | created
  /-- `previous.join()` -/
  | join
  | setup
  /-- `while not stop.is_set()` -/
  | head
  /-- Purges, parses and starts the pipeline. -/
  | launch
  | watch
  /-- Sets the pipeline to `NULL`. -/
  | teardown
  | check
  /-- `stop.wait(backoff)` -/
  | backoff
  | disable
  | ended
  deriving DecidableEq

structure SegWorker where
  previous : Option ℕ
  /-- Its own stop event is set. -/
  stop : Bool
  pc : SegWorkerPc
  deriving DecidableEq

def SegWorker.isAlive (w : SegWorker) : Bool := w.pc != .created && w.pc != .ended

/-- One step of a worker; `joined` says that its predecessor has ended, and `k` that the pipeline
    fails or stalls, or that the backoff has passed. -/
def segWorkerNext (w : SegWorker) (joined k : Bool) : Option SegWorker :=
  match w.pc with
  | .created => none
  | .join => if joined then some { w with pc := .setup } else none
  | .setup => some { w with pc := .head }
  | .head => some { w with pc := if w.stop then .disable else .launch }
  | .launch => some { w with pc := if k then .teardown else .watch }
  | .watch => some { w with pc := if w.stop || k then .teardown else .watch }
  | .teardown => some { w with pc := .check }
  | .check => some { w with pc := if w.stop then .disable else .backoff }
  | .backoff => some { w with pc := if w.stop || k then .head else .backoff }
  | .disable => some { w with pc := .ended }
  | .ended => none

/-- The worker may own an encoder pipeline, or has. -/
def SegWorkerPc.pastJoin : SegWorkerPc → Bool
  | .created | .join => false
  | _ => true

-- ============================================================================
-- Calls
-- ============================================================================

inductive SegCall
  | start
  | stop
  deriving DecidableEq

structure SegmentRecorder where
  /-- The caller that holds `_lock`. -/
  lock : Option ℕ
  /-- All generations, oldest first. -/
  workers : List SegWorker
  /-- `_thread`; `_stop` is the stop event of this worker. -/
  thread : Option ℕ
  /-- The call that took the lock last. -/
  lastCall : Option SegCall
  deriving DecidableEq

namespace SegmentRecorder

variable (r : SegmentRecorder)

def init : SegmentRecorder := ⟨none, [], none, none⟩

/-- The worker of the current generation. -/
def current : Option SegWorker := r.thread.bind fun k => r.workers[k]?

/-- The current generation is not told to stop. -/
def unstopped : Bool := r.current.any fun w => !w.stop

/-- The predecessor of a worker has ended, if it has one. -/
def joined (w : SegWorker) : Bool :=
  match w.previous with
  | none => true
  | some k => (r.workers[k]?).all fun v => v.pc == .ended

/-- A step of worker `k`. -/
def workerStep (k : ℕ) (choice : Bool) : Option SegmentRecorder :=
  match r.workers[k]? with
  | none => none
  | some w => (segWorkerNext w (r.joined w) choice).map fun w' =>
      { r with workers := r.workers.set k w' }

/-- Changes the worker of the current generation. -/
def setCurrent (f : SegWorker → SegWorker) : SegmentRecorder :=
  match r.thread with
  | none => r
  | some k => { r with workers := r.workers.modify k f }

end SegmentRecorder

inductive SegCallPc
  | acquire
  /-- `start`: is the current worker alive and not told to stop? -/
  | check
  | create
  | launch
  /-- `stop`: sets the event. -/
  | setStop
  | release
  deriving DecidableEq

inductive SegOutcome
  | running (pc : SegCallPc)
  | returned
  deriving DecidableEq

/-- `start()` and `stop()`, by caller `i`. -/
def segNext (call : SegCall) (i : ℕ) (r : SegmentRecorder) :
    SegCallPc → Option (SegmentRecorder × SegOutcome)
  | .acquire =>
      if r.lock = none then
        some ({ r with lock := some i, lastCall := some call },
          .running (match call with | .start => .check | .stop => .setStop))
      else none
  | .check =>
      some (r, .running (if r.current.any fun w => w.isAlive && !w.stop then .release else .create))
  | .create =>
      some ({ r with
        workers := r.workers ++ [⟨r.thread, false, .created⟩]
        thread := some r.workers.length }, .running .launch)
  | .launch => some (r.setCurrent fun w => { w with pc := .join }, .running .release)
  | .setStop => some (r.setCurrent fun w => { w with stop := true }, .running .release)
  | .release => some ({ r with lock := none }, .returned)

/-- A call that has taken the lock and not given it back. -/
def SegCallPc.inside : SegCallPc → Bool
  | .acquire => false
  | _ => true

-- ============================================================================
-- Generations
-- ============================================================================

/-- The index of the last worker. -/
def lastIndex (workers : List SegWorker) : Option ℕ :=
  if workers.length = 0 then none else some (workers.length - 1)

/-- What holds of generation `k`. -/
structure WorkerOk (r : SegmentRecorder) (k : ℕ) (w : SegWorker) : Prop where
  previous : w.previous = if k = 0 then none else some (k - 1)
  older : k + 1 < r.workers.length → w.stop = true
  stopped : w.pc = .disable ∨ w.pc = .ended → w.stop = true
  joined : w.pc.pastJoin = true → ∀ j < k, ∀ v, r.workers[j]? = some v → v.pc = .ended
  created : w.pc = .created → r.lock ≠ none ∧ k + 1 = r.workers.length

/-- What the last call has left behind. -/
def Agrees (r : SegmentRecorder) : Prop :=
  match r.lastCall with
  | none => r.workers = []
  | some .start => ∃ w, r.current = some w ∧ w.stop = false
  | some .stop => ∀ w, r.current = some w → w.stop = true

structure GenInv (r : SegmentRecorder) : Prop where
  thread : r.thread = lastIndex r.workers
  workers : ∀ k w, r.workers[k]? = some w → WorkerOk r k w
  idle : r.lock = none → Agrees r

/-- No worker waits to be started. -/
def AllLaunched (r : SegmentRecorder) : Prop := ∀ w ∈ r.workers, w.pc ≠ .created

/-- What a call inside the lock knows. -/
def SegHeld (call : SegCall) (r : SegmentRecorder) : SegCallPc → Prop
  | .acquire => True
  | .check => call = .start ∧ r.lastCall = some .start ∧ AllLaunched r
  | .create => call = .start ∧ r.lastCall = some .start ∧ AllLaunched r ∧
      ∀ w, r.current = some w → w.stop = true
  | .launch => call = .start ∧ r.lastCall = some .start ∧
      ∃ w, r.current = some w ∧ w.stop = false ∧ w.pc = .created
  | .setStop => call = .stop ∧ r.lastCall = some .stop ∧ AllLaunched r
  | .release => r.lastCall = some call ∧ AllLaunched r ∧ Agrees r

/-! ## Steps of workers -/

theorem segWorkerNext_spec {w w' : SegWorker} {joined k : Bool}
    (h : segWorkerNext w joined k = some w') :
    w'.previous = w.previous ∧ w'.stop = w.stop ∧ w.pc ≠ .created ∧ w.pc ≠ .ended ∧
      w'.pc ≠ .created ∧ (w'.pc = .disable ∨ w'.pc = .ended → w.stop = true ∨ w.pc = .disable) ∧
      (w'.pc.pastJoin = true → w.pc.pastJoin = true ∨ joined = true) := by
  obtain ⟨previous, stop, pc⟩ := w
  cases pc with
  | created | ended => cases h
  | join =>
      simp only [segWorkerNext] at h
      cases joined with
      | false => cases h
      | true =>
          cases h
          simp
  | setup | teardown | disable =>
      cases h
      simp [SegWorkerPc.pastJoin]
  | head | launch | watch | check | backoff =>
      cases stop <;> cases k <;> cases h <;> simp [SegWorkerPc.pastJoin]

theorem current_eq {r : SegmentRecorder} (h : r.thread = lastIndex r.workers) :
    r.current = r.workers[r.workers.length - 1]? := by
  rw [SegmentRecorder.current, h, lastIndex]
  split
  · rename_i hempty
    rw [List.getElem?_eq_none (by omega)]
    rfl
  · rfl

/-- What a worker's step leaves alone. -/
structure CallsKept (r r' : SegmentRecorder) : Prop where
  lock : r'.lock = r.lock
  thread : r'.thread = r.thread
  lastCall : r'.lastCall = r.lastCall
  stop : ∀ k : ℕ, (r'.workers[k]?).map SegWorker.stop = (r.workers[k]?).map SegWorker.stop
  created : ∀ k : ℕ, (r'.workers[k]?).map (fun w => w.pc == .created) =
    (r.workers[k]?).map fun w => w.pc == .created

theorem workerStep_kept {r r' : SegmentRecorder} {k : ℕ} {choice : Bool}
    (h : r.workerStep k choice = some r') : CallsKept r r' := by
  simp only [SegmentRecorder.workerStep] at h
  split at h
  · cases h
  · rename_i w hw
    obtain ⟨w', hw', rfl⟩ := Option.map_eq_some_iff.mp h
    obtain ⟨-, hstop, hcreated, -, hcreated', -⟩ := segWorkerNext_spec hw'
    refine ⟨rfl, rfl, rfl, fun j => ?_, fun j => ?_⟩
    · rw [getElem?_set_of_get hw]
      split
      · rename_i hkj
        rw [← hkj, hw, Option.map_some, Option.map_some, hstop]
      · rfl
    · rw [getElem?_set_of_get hw]
      split
      · rename_i hkj
        rw [← hkj, hw, Option.map_some, Option.map_some, beq_eq_false_iff_ne.mpr hcreated,
          beq_eq_false_iff_ne.mpr hcreated']
      · rfl

theorem CallsKept.trans {r r' r'' : SegmentRecorder} (h : CallsKept r r') (h' : CallsKept r' r'') :
    CallsKept r r'' where
  lock := h'.lock.trans h.lock
  thread := h'.thread.trans h.thread
  lastCall := h'.lastCall.trans h.lastCall
  stop k := (h'.stop k).trans (h.stop k)
  created k := (h'.created k).trans (h.created k)

section Kept

variable {r r' : SegmentRecorder} (h : CallsKept r r')

include h

theorem CallsKept.current_stop :
    r'.current.map SegWorker.stop = r.current.map SegWorker.stop := by
  rw [SegmentRecorder.current, SegmentRecorder.current, h.thread]
  cases r.thread with
  | none => rfl
  | some k => exact h.stop k

theorem CallsKept.agrees (hr : Agrees r) : Agrees r' := by
  have hcurrent := h.current_stop
  have hempty : r.workers = [] → r'.workers = [] := by
    intro hnil
    have hfirst := h.stop 0
    rw [hnil] at hfirst
    cases hworkers : r'.workers with
    | nil => rfl
    | cons w rest =>
        rw [hworkers] at hfirst
        cases hfirst
  simp only [Agrees, h.lastCall] at hr ⊢
  cases hcall : r.lastCall with
  | none =>
      rw [hcall] at hr
      exact hempty hr
  | some call =>
      rw [hcall] at hr
      cases call with
      | start =>
          obtain ⟨w, hw, hstop⟩ := hr
          rw [hw] at hcurrent
          obtain ⟨w', hw', hsame⟩ := Option.map_eq_some_iff.mp hcurrent
          exact ⟨w', hw', hsame.trans hstop⟩
      | stop =>
          intro w' hw'
          rw [hw'] at hcurrent
          obtain ⟨w, hw, hsame⟩ := Option.map_eq_some_iff.mp hcurrent.symm
          exact hsame.symm.trans (hr w hw)

theorem CallsKept.allLaunched (hr : AllLaunched r) : AllLaunched r' := by
  intro w' hw' hcreated
  obtain ⟨k, hk⟩ := List.mem_iff_getElem?.mp hw'
  have hsame := h.created k
  rw [hk] at hsame
  obtain ⟨w, hw, heq⟩ := Option.map_eq_some_iff.mp hsame.symm
  have hboth : (w.pc == .created) = (w'.pc == .created) := heq
  rw [hcreated] at hboth
  exact hr w (List.mem_of_getElem? hw) (eq_of_beq hboth)

/-- What a call inside the lock knows is not affected by the workers. -/
theorem CallsKept.segHeld {call : SegCall} {pc : SegCallPc} (hheld : SegHeld call r pc) :
    SegHeld call r' pc := by
  have hcurrent := h.current_stop
  cases pc with
  | acquire => trivial
  | check | setStop => exact ⟨hheld.1, h.lastCall.trans hheld.2.1, h.allLaunched hheld.2.2⟩
  | create =>
      obtain ⟨hcall, hlast, hlaunched, hstop⟩ := hheld
      refine ⟨hcall, h.lastCall.trans hlast, h.allLaunched hlaunched, fun w' hw' => ?_⟩
      rw [hw'] at hcurrent
      obtain ⟨w, hw, hsame⟩ := Option.map_eq_some_iff.mp hcurrent.symm
      exact hsame.symm.trans (hstop w hw)
  | launch =>
      obtain ⟨hcall, hlast, w, hw, hstop, hcreated⟩ := hheld
      refine ⟨hcall, h.lastCall.trans hlast, ?_⟩
      obtain ⟨k, hk, hget⟩ := Option.bind_eq_some_iff.mp hw
      have hsame := h.created k
      have hsame' := h.stop k
      rw [hget] at hsame hsame'
      obtain ⟨w', hw', hcreated'⟩ := Option.map_eq_some_iff.mp hsame
      rw [hw'] at hsame'
      refine ⟨w', ?_, (Option.some.inj hsame').trans hstop, ?_⟩
      · rw [SegmentRecorder.current, h.thread, hk]
        exact hw'
      · have hboth : (w'.pc == .created) = (w.pc == .created) := hcreated'
        rw [hcreated] at hboth
        exact eq_of_beq hboth
  | release =>
      obtain ⟨hlast, hlaunched, hagrees⟩ := hheld
      exact ⟨h.lastCall.trans hlast, h.allLaunched hlaunched, h.agrees hagrees⟩

end Kept

theorem joined_spec {r : SegmentRecorder} {w v : SegWorker} {k : ℕ} (h : r.joined w = true)
    (hprevious : w.previous = some k) (hv : r.workers[k]? = some v) : v.pc = .ended := by
  simp only [SegmentRecorder.joined, hprevious, hv, Option.all_some] at h
  exact eq_of_beq h

/-- A worker's step keeps the generations in order. -/
theorem workerStep_inv {r r' : SegmentRecorder} {k : ℕ} {choice : Bool} (hr : GenInv r)
    (h : r.workerStep k choice = some r') : GenInv r' := by
  have hkept := workerStep_kept h
  simp only [SegmentRecorder.workerStep] at h
  split at h
  · cases h
  · rename_i w hw
    obtain ⟨w', hw', rfl⟩ := Option.map_eq_some_iff.mp h
    obtain ⟨hprevious, hstop, hcreated, hended, hcreated', hover, hpast⟩ := segWorkerNext_spec hw'
    have hok := hr.workers k w hw
    have hlength : (r.workers.set k w').length = r.workers.length := List.length_set
    refine ⟨?_, fun j v hv => ?_, fun hlock => ?_⟩
    · rw [hr.thread, lastIndex, lastIndex, hlength]
    · -- worker `k` moved, the others are as they were
      have hothers : ∀ i < j, ∀ u, (r.workers.set k w')[i]? = some u →
          (∀ u, r.workers[i]? = some u → u.pc = .ended) → u.pc = .ended := by
        intro i _ u hu hall
        rcases getElem?_set_cases hw hu with ⟨rfl, rfl⟩ | ⟨-, hu⟩
        · exact absurd (hall w hw) hended
        · exact hall u hu
      rcases getElem?_set_cases hw hv with ⟨rfl, rfl⟩ | ⟨-, hv⟩
      · refine ⟨hprevious.trans hok.previous, ?_, ?_, ?_, fun h => absurd h hcreated'⟩
        · rw [hlength, hstop]
          exact hok.older
        · intro hdone
          rw [hstop]
          rcases hover hdone with hstopped | hdisable
          · exact hstopped
          · exact hok.stopped (.inl hdisable)
        · intro hjoined i hi u hu
          refine hothers i hi u hu fun u hu => ?_
          rcases hpast hjoined with hbefore | hnow
          · exact hok.joined hbefore i hi u hu
          · -- the predecessor has ended, and so have all before it
            have hjpos : j ≠ 0 := by omega
            have hlt : j - 1 < r.workers.length := by
              have hj := (List.getElem?_eq_some_iff.mp hw).1
              omega
            have hprev := List.getElem?_eq_getElem hlt
            have hprevEnded : r.workers[j - 1].pc = .ended :=
              joined_spec hnow (by rw [hok.previous, if_neg hjpos]) hprev
            by_cases hij : i = j - 1
            · subst hij
              rw [hprev] at hu
              rw [← Option.some.inj hu]
              exact hprevEnded
            · exact (hr.workers (j - 1) _ hprev).joined (by rw [hprevEnded]; rfl) i (by omega) u hu
      · have hokv := hr.workers j v hv
        refine ⟨hokv.previous, ?_, hokv.stopped, ?_, ?_⟩
        · rw [hlength]
          exact hokv.older
        · intro hjoined i hi u hu
          exact hothers i hi u hu (hokv.joined hjoined i hi)
        · intro hnew
          rw [hlength]
          exact hokv.created hnew
    · exact hkept.agrees (hr.idle hlock)

/-! ## Steps of calls -/

theorem allLaunched_of_idle {r : SegmentRecorder} (hr : GenInv r) (hlock : r.lock = none) :
    AllLaunched r := by
  intro w hw hcreated
  obtain ⟨k, hk⟩ := List.mem_iff_getElem?.mp hw
  exact ((hr.workers k w hk).created hcreated).1 hlock

/-- The lock and the history variable are no part of a generation. -/
theorem GenInv.relock {r : SegmentRecorder} (hr : GenInv r) {lock : Option ℕ}
    {lastCall : Option SegCall} (hlaunched : AllLaunched r)
    (hidle : lock = none → Agrees { r with lock := lock, lastCall := lastCall }) :
    GenInv { r with lock := lock, lastCall := lastCall } where
  thread := hr.thread
  workers k w hw :=
    { hr.workers k w hw with
      created := fun hcreated => absurd hcreated (hlaunched w (List.mem_of_getElem? hw)) }
  idle := hidle

/-- A call takes the free lock. -/
theorem segNext_outside {call : SegCall} {i : ℕ} {r r' : SegmentRecorder} {pc : SegCallPc}
    {o : SegOutcome} (h : segNext call i r pc = some (r', o)) (hout : pc.inside = false) :
    r.lock = none ∧ r' = { r with lock := some i, lastCall := some call } ∧
      ∃ pc', o = .running pc' ∧ pc'.inside = true ∧
        (GenInv r → GenInv r' ∧ SegHeld call r' pc') := by
  cases pc with
  | acquire =>
      simp only [segNext] at h
      split at h
      · rename_i hfree
        cases h
        refine ⟨hfree, rfl, _, rfl, (by cases call <;> rfl), fun hr => ?_⟩
        have hlaunched := allLaunched_of_idle hr hfree
        refine ⟨hr.relock hlaunched (fun hlock => (by cases hlock)), ?_⟩
        cases call <;> exact ⟨rfl, rfl, hlaunched⟩
      · cases h
  | _ => cases hout

theorem setCurrent_get {r : SegmentRecorder} {k : ℕ} (h : r.thread = some k)
    (f : SegWorker → SegWorker) (j : ℕ) :
    (r.setCurrent f).workers[j]? = (r.workers[j]?).map fun w => if k = j then f w else w := by
  rw [SegmentRecorder.setCurrent, h]
  exact List.getElem?_modify ..

/-- A worker that keeps its counter, or goes back to its join before it has passed it. -/
theorem WorkerOk.changed {r r' : SegmentRecorder} {k : ℕ} {v v' : SegWorker} (hok : WorkerOk r k v)
    (hlength : r'.workers.length = r.workers.length) (hlock : r'.lock = r.lock)
    (hprevious : v'.previous = v.previous) (hstop : v.stop = true → v'.stop = true)
    (hpc : v'.pc = v.pc ∨ v'.pc = .join ∧ v.pc.pastJoin = false)
    (hbefore : v.pc.pastJoin = true → ∀ j < k, ∀ u, r'.workers[j]? = some u → u.pc = .ended) :
    WorkerOk r' k v' where
  previous := hprevious.trans hok.previous
  older hk := hstop (hok.older (hlength ▸ hk))
  stopped hdone := by
    rcases hpc with hsame | ⟨hjoin, -⟩
    · exact hstop (hok.stopped (hsame ▸ hdone))
    · rw [hjoin] at hdone
      rcases hdone with hd | hd <;> cases hd
  joined hjoined := by
    rcases hpc with hsame | ⟨hjoin, -⟩
    · exact hbefore (hsame ▸ hjoined)
    · rw [hjoin] at hjoined
      cases hjoined
  created hcreated := by
    rcases hpc with hsame | ⟨hjoin, -⟩
    · rw [hlength, hlock]
      exact hok.created (hsame ▸ hcreated)
    · rw [hjoin] at hcreated
      cases hcreated

/-- A change of the current worker that leaves its place in the chain alone. -/
theorem GenInv.setCurrent {r : SegmentRecorder} (hr : GenInv r) (hlock : r.lock ≠ none)
    {f : SegWorker → SegWorker} (hprevious : ∀ w, (f w).previous = w.previous)
    (hstop : ∀ w, w.stop = true → (f w).stop = true)
    (hpc : ∀ w, r.current = some w → (f w).pc = w.pc ∨ (f w).pc = .join ∧ w.pc.pastJoin = false) :
    GenInv (r.setCurrent f) := by
  cases hthread : r.thread with
  | none =>
      have hsame : r.setCurrent f = r := by rw [SegmentRecorder.setCurrent, hthread]
      rw [hsame]
      exact hr
  | some last =>
      have hlength : (r.setCurrent f).workers.length = r.workers.length := by
        rw [SegmentRecorder.setCurrent, hthread]
        exact List.length_modify ..
      have hfields : (r.setCurrent f).thread = r.thread ∧ (r.setCurrent f).lock = r.lock := by
        simp [SegmentRecorder.setCurrent, hthread]
      have hcurrent : ∀ j v, last = j → r.workers[j]? = some v → r.current = some v := by
        rintro j v rfl hv
        rw [SegmentRecorder.current, hthread]
        exact hv
      refine ⟨?_, fun k w hw => ?_, fun hfree => absurd (hfields.2.symm.trans hfree) hlock⟩
      · rw [hfields.1, hr.thread, lastIndex, lastIndex, hlength]
      · rw [setCurrent_get hthread] at hw
        obtain ⟨v, hv, hvw⟩ := Option.map_eq_some_iff.mp hw
        have hok := hr.workers k v hv
        -- what one past its join has before it has ended and stays as it was
        have hbefore : v.pc.pastJoin = true → ∀ j < k, ∀ u,
            (r.setCurrent f).workers[j]? = some u → u.pc = .ended := by
          intro hjoined j hj u hu
          rw [setCurrent_get hthread] at hu
          obtain ⟨x, hx, rfl⟩ := Option.map_eq_some_iff.mp hu
          have hended := hok.joined hjoined j hj x hx
          split
          · rename_i hlast
            rcases hpc x (hcurrent j x hlast hx) with hsame | ⟨-, hnot⟩
            · exact hsame.trans hended
            · rw [hended] at hnot
              cases hnot
          · exact hended
        by_cases hlast : last = k
        · rw [if_pos hlast] at hvw
          subst hvw
          exact hok.changed hlength hfields.2 (hprevious v) (hstop v)
            (hpc v (hcurrent k v hlast hv)) hbefore
        · rw [if_neg hlast] at hvw
          subst hvw
          exact hok.changed hlength hfields.2 rfl id (.inl rfl) hbefore

/-- The current worker is one that is at work or told to stop. -/
theorem current_stop_of_create {r : SegmentRecorder} (hr : GenInv r) (hlaunched : AllLaunched r)
    (hdead : (r.current.any fun w => w.isAlive && !w.stop) = false) {w : SegWorker}
    (hw : r.current = some w) : w.stop = true := by
  rw [hw, Option.any_some, Bool.and_eq_false_iff, Bool.not_eq_false'] at hdead
  rcases hdead with hdead | hstop
  · rw [current_eq hr.thread] at hw
    have hok := hr.workers _ w hw
    rw [SegWorker.isAlive, Bool.and_eq_false_iff, bne_eq_false_iff_eq, bne_eq_false_iff_eq] at hdead
    rcases hdead with hcreated | hended
    · exact absurd hcreated (hlaunched w (List.mem_of_getElem? hw))
    · exact hok.stopped (.inr hended)
  · exact hstop

/-- A new generation. -/
theorem GenInv.create {r : SegmentRecorder} (hr : GenInv r) (hlock : r.lock ≠ none)
    (hlaunched : AllLaunched r) (hstop : ∀ w, r.current = some w → w.stop = true) :
    GenInv { r with
      workers := r.workers ++ [⟨r.thread, false, .created⟩]
      thread := some r.workers.length } := by
  have hlength : (r.workers ++ [(⟨r.thread, false, .created⟩ : SegWorker)]).length =
      r.workers.length + 1 := by simp
  refine ⟨?_, fun k w hw => ?_, fun hfree => absurd hfree hlock⟩
  · rw [lastIndex, if_neg (by simp), hlength, Nat.add_sub_cancel]
  · have hbefore : ∀ j v, j < r.workers.length →
        (r.workers ++ [(⟨r.thread, false, .created⟩ : SegWorker)])[j]? = some v →
        r.workers[j]? = some v := by
      intro j v hj hv
      rwa [List.getElem?_append_left hj] at hv
    rcases getElem?_append_cases hw with hold | ⟨rfl, rfl⟩
    · have hok := hr.workers k w hold
      have hk := (List.getElem?_eq_some_iff.mp hold).1
      refine ⟨hok.previous, fun _ => ?_, hok.stopped, fun hjoined j hj v hv => ?_, ?_⟩
      · by_cases hlast : k + 1 < r.workers.length
        · exact hok.older hlast
        · refine hstop w ?_
          rw [current_eq hr.thread, show r.workers.length - 1 = k by omega]
          exact hold
      · exact hok.joined hjoined j hj v (hbefore j v (by omega) hv)
      · exact fun hcreated => absurd hcreated (hlaunched w (List.mem_of_getElem? hold))
    · refine ⟨hr.thread, fun hk => ?_, fun hdone => ?_, fun hjoined => ?_, fun _ => ⟨hlock, ?_⟩⟩
      · rw [hlength] at hk
        omega
      · rcases hdone with hd | hd <;> cases hd
      · cases hjoined
      · exact hlength.symm

theorem setCurrent_current (r : SegmentRecorder) (f : SegWorker → SegWorker) :
    (r.setCurrent f).current = r.current.map f := by
  cases hthread : r.thread with
  | none => simp [SegmentRecorder.setCurrent, SegmentRecorder.current, hthread]
  | some k =>
      have hget := setCurrent_get hthread f k
      rw [SegmentRecorder.current, SegmentRecorder.current, hthread]
      have hsame : (r.setCurrent f).thread = some k := by
        simp [SegmentRecorder.setCurrent, hthread]
      rw [hsame]
      simpa using hget

theorem setCurrent_fields (r : SegmentRecorder) (f : SegWorker → SegWorker) :
    (r.setCurrent f).lock = r.lock ∧ (r.setCurrent f).lastCall = r.lastCall := by
  rw [SegmentRecorder.setCurrent]
  split <;> exact ⟨rfl, rfl⟩

/-- Only the current worker can wait to be started. -/
theorem AllLaunched.setCurrent {r : SegmentRecorder} (hr : GenInv r) {f : SegWorker → SegWorker}
    (hpc : ∀ w, r.current = some w → (f w).pc ≠ .created) : AllLaunched (r.setCurrent f) := by
  intro w hw hcreated
  obtain ⟨j, hj⟩ := List.mem_iff_getElem?.mp hw
  cases hthread : r.thread with
  | none =>
      have hempty : r.workers.length = 0 := by
        rw [hr.thread, lastIndex] at hthread
        split at hthread
        · assumption
        · cases hthread
      simp [SegmentRecorder.setCurrent, hthread, List.eq_nil_of_length_eq_zero hempty] at hw
  | some last =>
      rw [setCurrent_get hthread] at hj
      obtain ⟨v, hv, rfl⟩ := Option.map_eq_some_iff.mp hj
      have hlast : r.thread = lastIndex r.workers := hr.thread
      by_cases hlastj : last = j
      · rw [if_pos hlastj] at hcreated
        refine hpc v ?_ hcreated
        rw [SegmentRecorder.current, hthread]
        exact hlastj ▸ hv
      · rw [if_neg hlastj] at hcreated
        have hj := ((hr.workers j v hv).created hcreated).2
        rw [hlast, lastIndex, if_neg (by omega)] at hthread
        have hsame := Option.some.inj hthread
        omega

/-- A step of a call inside the lock keeps the generations in order and what it knows. -/
theorem segNext_within {call : SegCall} {i : ℕ} {r r' : SegmentRecorder} {pc : SegCallPc}
    {o : SegOutcome} (h : segNext call i r pc = some (r', o)) (hin : pc.inside = true)
    (hlock : r.lock ≠ none) (hr : GenInv r) (hheld : SegHeld call r pc) :
    GenInv r' ∧
      ((∃ pc', o = .running pc' ∧ pc'.inside = true ∧ r'.lock = r.lock ∧ SegHeld call r' pc') ∨
        (o = .returned ∧ r'.lock = none ∧ r'.lastCall = some call ∧ Agrees r')) := by
  cases pc with
  | acquire => cases hin
  | check =>
      cases h
      obtain ⟨rfl, hlast, hlaunched⟩ := hheld
      cases hdead : r.current.any fun w => w.isAlive && !w.stop with
      | true =>
          refine ⟨hr, .inl ⟨_, rfl, rfl, rfl, hlast, hlaunched, ?_⟩⟩
          simp only [Agrees, hlast]
          cases hw : r.current with
          | none =>
              rw [hw] at hdead
              cases hdead
          | some w =>
              rw [hw, Option.any_some, Bool.and_eq_true, Bool.not_eq_true'] at hdead
              exact ⟨w, rfl, hdead.2⟩
      | false =>
          exact ⟨hr, .inl ⟨_, rfl, rfl, rfl, rfl, hlast, hlaunched, fun w hw =>
            current_stop_of_create hr hlaunched hdead hw⟩⟩
  | create =>
      cases h
      obtain ⟨rfl, hlast, hlaunched, hstop⟩ := hheld
      refine ⟨hr.create hlock hlaunched hstop, .inl ⟨_, rfl, rfl, rfl, rfl, hlast,
        ⟨r.thread, false, .created⟩, ?_, rfl, rfl⟩⟩
      simp [SegmentRecorder.current]
  | launch =>
      cases h
      obtain ⟨rfl, hlast, w, hw, hstop, hcreated⟩ := hheld
      have hfields := setCurrent_fields r fun w => { w with pc := .join }
      refine ⟨hr.setCurrent hlock (fun _ => rfl) (fun _ h => h) fun v hv => .inr ⟨rfl, ?_⟩,
        .inl ⟨_, rfl, rfl, hfields.1, hfields.2.trans hlast, ?_, ?_⟩⟩
      · rw [hw] at hv
        rw [← Option.some.inj hv, hcreated]
        rfl
      · exact AllLaunched.setCurrent hr fun _ _ h => by cases h
      · simp only [Agrees, hfields.2, hlast, setCurrent_current, hw]
        exact ⟨_, rfl, hstop⟩
  | setStop =>
      cases h
      obtain ⟨rfl, hlast, hlaunched⟩ := hheld
      have hfields := setCurrent_fields r fun w => { w with stop := true }
      refine ⟨hr.setCurrent hlock (fun _ => rfl) (fun _ _ => rfl) fun v hv => .inl rfl,
        .inl ⟨_, rfl, rfl, hfields.1, hfields.2.trans hlast, ?_, ?_⟩⟩
      · refine AllLaunched.setCurrent hr fun v hv => hlaunched v ?_
        rw [current_eq hr.thread] at hv
        exact List.mem_of_getElem? hv
      · simp only [Agrees, hfields.2, hlast, setCurrent_current]
        intro w hw
        obtain ⟨v, -, rfl⟩ := Option.map_eq_some_iff.mp hw
        rfl
  | release =>
      cases h
      obtain ⟨hlast, hlaunched, hagrees⟩ := hheld
      exact ⟨hr.relock hlaunched fun _ => hagrees, .inr ⟨rfl, rfl, hlast, hagrees⟩⟩

-- ============================================================================
-- The callers
-- ============================================================================

structure SegThread where
  call : SegCall
  state : SegOutcome
  deriving DecidableEq

/-- Any number of callers, and the workers. -/
def segmentRecorder : Prog SegmentRecorder SegThread SegCall Unit (ℕ × Bool) where
  enter call := ⟨call, .running .acquire⟩
  next i r t _ :=
    match t.state with
    | .returned => none
    | .running pc => (segNext t.call i r pc).map fun x => (x.1, { t with state := x.2 })
  env r e := r.workerStep e.1 e.2

def SegThread.inside (t : SegThread) : Bool :=
  match t.state with
  | .running pc => pc.inside
  | .returned => false

theorem segmentRecorder_next {i : ℕ} {r r' : SegmentRecorder} {t t' : SegThread} {k : Unit}
    (h : segmentRecorder.next i r t k = some (r', t')) :
    ∃ pc o, t.state = .running pc ∧ segNext t.call i r pc = some (r', o) ∧
      t' = { t with state := o } := by
  simp only [segmentRecorder] at h
  split at h
  · cases h
  · rename_i pc hpc
    obtain ⟨x, hx, heq⟩ := Option.map_eq_some_iff.mp h
    cases heq
    exact ⟨pc, x.2, hpc, hx, rfl⟩

theorem SegThread.inside_running {t : SegThread} {pc : SegCallPc} (h : t.state = .running pc) :
    t.inside = pc.inside := by
  rw [SegThread.inside, h]

/-- Inside the lock a call keeps it or gives it back. -/
theorem segNext_lock {call : SegCall} {i : ℕ} {r r' : SegmentRecorder} {pc : SegCallPc}
    {o : SegOutcome} (h : segNext call i r pc = some (r', o)) (hin : pc.inside = true) :
    (∃ pc', o = .running pc' ∧ pc'.inside = true ∧ r'.lock = r.lock) ∨
      (o = .returned ∧ r'.lock = none) := by
  cases pc with
  | acquire => cases hin
  | check =>
      cases h
      exact .inl ⟨_, rfl, (by split <;> rfl), rfl⟩
  | create =>
      cases h
      exact .inl ⟨_, rfl, rfl, rfl⟩
  | launch | setStop =>
      cases h
      exact .inl ⟨_, rfl, rfl, (setCurrent_fields r _).1⟩
  | release =>
      cases h
      exact .inr ⟨rfl, rfl⟩

theorem segment_mutex : Mutex segmentRecorder SegmentRecorder.lock SegThread.inside where
  enter _ := rfl
  outside h hout := by
    obtain ⟨pc, o, hpc, hn, rfl⟩ := segmentRecorder_next h
    rw [SegThread.inside_running hpc] at hout
    obtain ⟨hfree, rfl, pc', rfl, hin, -⟩ := segNext_outside hn hout
    exact .inr ⟨hfree, rfl, hin⟩
  within h hin := by
    obtain ⟨pc, o, hpc, hn, rfl⟩ := segmentRecorder_next h
    rw [SegThread.inside_running hpc] at hin
    rcases segNext_lock hn hin with ⟨pc', rfl, hin', hlock⟩ | ⟨rfl, hlock⟩
    · exact .inl ⟨hlock, hin'⟩
    · exact .inr ⟨hlock, rfl⟩
  env h := (workerStep_kept h).lock

/-- What a caller inside the lock knows. -/
def SegAt (i : ℕ) (r : SegmentRecorder) (t : SegThread) : Prop :=
  r.lock = some i ∧ ∀ pc, t.state = .running pc → SegHeld t.call r pc

theorem segment_owickiGries :
    OwickiGries segmentRecorder free GenInv
      (Mutex.Holds SegmentRecorder.lock SegThread.inside SegAt) := by
  refine segment_mutex.owickiGries
    (Q := fun r r' => (GenInv r → GenInv r') ∧ (CallsKept r r' ∨ r.lock = none)) ?_ ?_ ?_ ?_ ?_
  · intro c x r' _ hx
    exact ⟨fun hr => workerStep_inv hr hx, .inl (workerStep_kept hx)⟩
  · intro c i k t r' t' hr _ ht hn hout
    obtain ⟨pc, o, hpc, hseg, rfl⟩ := segmentRecorder_next hn
    rw [SegThread.inside_running hpc] at hout
    obtain ⟨hfree, rfl, pc', rfl, -, hspec⟩ := segNext_outside hseg hout
    obtain ⟨hr', hheld⟩ := hspec hr
    refine ⟨⟨fun _ => hr', .inr hfree⟩, fun _ => ⟨rfl, fun pc'' hpc'' => ?_⟩⟩
    cases hpc''
    exact hheld
  · intro c i k t r' t' hr hat _ ht hn hin
    obtain ⟨pc, o, hpc, hseg, rfl⟩ := segmentRecorder_next hn
    rw [SegThread.inside_running hpc] at hin
    have hlocked : c.shared.lock ≠ none := by
      rw [hat.1]
      exact Option.some_ne_none i
    obtain ⟨hr', hspec⟩ := segNext_within hseg hin hlocked hr (hat.2 pc hpc)
    refine ⟨hr', fun hin' => ?_⟩
    rcases hspec with ⟨pc', rfl, -, hlock, hheld⟩ | ⟨rfl, -⟩
    · refine ⟨hlock.trans hat.1, fun pc'' hpc'' => ?_⟩
      cases hpc''
      exact hheld
    · cases hin'
  · exact fun r r' hq hr => hq.1 hr
  · intro i r r' t hq hr _ hat
    rcases hq.2 with hkept | hfree
    · exact ⟨hkept.lock.trans hat.1, fun pc hpc => hkept.segHeld (hat.2 pc hpc)⟩
    · rw [hat.1] at hfree
      cases hfree

theorem genInv_init : GenInv .init where
  thread := rfl
  workers k w hw := by cases hw
  idle _ := rfl

/-- Every configuration that the callers and workers reach. -/
theorem genInv_reachable {c : Conf SegmentRecorder SegThread}
    (h : Steps segmentRecorder.step free ⟨.init, []⟩ c) : GenInv c.shared :=
  (segment_owickiGries.steps h ⟨genInv_init, fun i t ht => by cases ht⟩).1

-- ============================================================================
-- The workers react
-- ============================================================================

/-- How many steps a stopped worker is from its end. -/
def SegWorkerPc.distance : SegWorkerPc → ℕ
  | .created | .ended => 0
  | .disable => 1
  | .head | .check => 2
  | .setup | .teardown | .backoff => 3
  | .join | .watch | .launch => 4

theorem segWorkerNext_closer {w : SegWorker} (hcreated : w.pc ≠ .created) (hended : w.pc ≠ .ended)
    (hstop : w.stop = true) :
    ∃ w', segWorkerNext w true true = some w' ∧ w'.pc.distance < w.pc.distance := by
  obtain ⟨previous, stop, pc⟩ := w
  cases hstop
  cases pc with
  | created => exact absurd rfl hcreated
  | ended => exact absurd rfl hended
  | _ => exact ⟨_, rfl, by simp [SegWorkerPc.distance]⟩

/-- Only workers move. -/
def workersOnly : Conf SegmentRecorder SegThread → Event SegCall Unit (ℕ × Bool) → Prop :=
  fun _ e => ∃ x, e = .env x

theorem workerStep_steps {r r' : SegmentRecorder} {pool : List SegThread} {k : ℕ} {choice : Bool}
    (h : r.workerStep k choice = some r') :
    Steps segmentRecorder.step workersOnly ⟨r, pool⟩ ⟨r', pool⟩ := by
  refine Steps.single (e := .env (k, choice)) ⟨_, rfl⟩ ?_
  show (r.workerStep k choice).map _ = _
  rw [h]
  rfl

/-- A stopped worker whose predecessors have ended comes to its end. -/
theorem stopped_ends {r : SegmentRecorder} {pool : List SegThread} (hr : GenInv r)
    (hlock : r.lock = none) {k : ℕ} {w : SegWorker} (hw : r.workers[k]? = some w)
    (hstop : w.stop = true) (hbefore : ∀ j < k, ∀ v, r.workers[j]? = some v → v.pc = .ended) :
    ∃ r', Steps segmentRecorder.step workersOnly ⟨r, pool⟩ ⟨r', pool⟩ ∧ GenInv r' ∧
      CallsKept r r' ∧ ∀ j ≤ k, ∀ v, r'.workers[j]? = some v → v.pc = .ended := by
  induction hd : w.pc.distance using Nat.strong_induction_on generalizing r w with
  | _ d ih =>
      by_cases hended : w.pc = .ended
      · refine ⟨r, Steps.refl, hr, ⟨rfl, rfl, rfl, fun _ => rfl, fun _ => rfl⟩, fun j hj v hv => ?_⟩
        rcases Nat.lt_or_eq_of_le hj with hlt | rfl
        · exact hbefore j hlt v hv
        · rw [hw] at hv
          rw [← Option.some.inj hv]
          exact hended
      · have hok := hr.workers k w hw
        have hjoined : r.joined w = true := by
          rw [SegmentRecorder.joined, hok.previous]
          by_cases hk : k = 0
          · rw [if_pos hk]
          · rw [if_neg hk]
            show (r.workers[k - 1]?).all _ = true
            cases hprev : r.workers[k - 1]? with
            | none => rfl
            | some v =>
                rw [Option.all_some, hbefore (k - 1) (by omega) v hprev]
                rfl
        obtain ⟨w', hw', hcloser⟩ := segWorkerNext_closer
          (fun hcreated => (hok.created hcreated).1 hlock) hended hstop
        have hstep : r.workerStep k true = some { r with workers := r.workers.set k w' } := by
          rw [SegmentRecorder.workerStep, hw]
          show (segWorkerNext w (r.joined w) true).map _ = _
          rw [hjoined, hw', Option.map_some]
        have hkept := workerStep_kept hstep
        obtain ⟨r', hsteps, hr', hkept', hall⟩ := ih w'.pc.distance (hd ▸ hcloser)
          (workerStep_inv hr hstep) hlock
          (show (r.workers.set k w')[k]? = some w' by rw [getElem?_set_of_get hw, if_pos rfl])
          ((segWorkerNext_spec hw').2.1.trans hstop)
          (fun j hj v hv => by
            rcases getElem?_set_cases hw hv with ⟨rfl, -⟩ | ⟨-, hv⟩
            · exact absurd hj (lt_irrefl _)
            · exact hbefore j hj v hv) rfl
        exact ⟨r', (workerStep_steps hstep).trans hsteps, hr', hkept.trans hkept', hall⟩

/-- A worker that has to react: it is told to stop, or waits for one that has ended. -/
def Reacted (r : SegmentRecorder) : Prop :=
  ∀ (k : ℕ) w, r.workers[k]? = some w →
    (w.stop = true → w.pc = .ended) ∧ ¬ (w.pc = .join ∧ r.joined w = true)

theorem CallsKept.get {r r' : SegmentRecorder} (h : CallsKept r r') {k : ℕ} {w' : SegWorker}
    (hw' : r'.workers[k]? = some w') : ∃ w, r.workers[k]? = some w ∧ w'.stop = w.stop := by
  have hsame := h.stop k
  rw [hw'] at hsame
  obtain ⟨w, hw, heq⟩ := Option.map_eq_some_iff.mp hsame.symm
  exact ⟨w, hw, heq.symm⟩

/-- All generations told to stop before generation `n` come to their end. -/
theorem older_end {r : SegmentRecorder} {pool : List SegThread} (hr : GenInv r)
    (hlock : r.lock = none) (n : ℕ)
    (hstop : ∀ k < n, ∀ w, r.workers[k]? = some w → w.stop = true) :
    ∃ r', Steps segmentRecorder.step workersOnly ⟨r, pool⟩ ⟨r', pool⟩ ∧ GenInv r' ∧
      CallsKept r r' ∧ ∀ j < n, ∀ v, r'.workers[j]? = some v → v.pc = .ended := by
  induction n with
  | zero => exact ⟨r, Steps.refl, hr, ⟨rfl, rfl, rfl, fun _ => rfl, fun _ => rfl⟩,
      fun j hj => absurd hj (Nat.not_lt_zero j)⟩
  | succ n ih =>
      obtain ⟨r₁, hsteps, hr₁, hkept, hended⟩ := ih fun k hk => hstop k (by omega)
      cases hw : r₁.workers[n]? with
      | none =>
          refine ⟨r₁, hsteps, hr₁, hkept, fun j hj v hv => ?_⟩
          rcases Nat.lt_or_eq_of_le (Nat.lt_succ_iff.mp hj) with hlt | rfl
          · exact hended j hlt v hv
          · rw [hw] at hv
            cases hv
      | some w =>
          have hwstop : w.stop = true := by
            obtain ⟨w₀, hw₀, hsame⟩ := hkept.get hw
            exact hsame.trans (hstop n (Nat.lt_succ_self n) w₀ hw₀)
          obtain ⟨r₂, hsteps', hr₂, hkept', hended'⟩ :=
            stopped_ends hr₁ (hkept.lock.trans hlock) hw hwstop hended
          exact ⟨r₂, hsteps.trans hsteps', hr₂, hkept.trans hkept',
            fun j hj => hended' j (Nat.lt_succ_iff.mp hj)⟩

/-- The generations told to stop are those before the newest one, with or without that one. -/
theorem stopped_before {r : SegmentRecorder} (hr : GenInv r) :
    ∃ n, (∀ k < n, ∀ w, r.workers[k]? = some w → w.stop = true) ∧
      ∀ (k : ℕ) w, r.workers[k]? = some w → n ≤ k → w.stop = false ∧ k + 1 = r.workers.length := by
  cases hw : r.workers[r.workers.length - 1]? with
  | none =>
      refine ⟨0, fun k hk => absurd hk (Nat.not_lt_zero k), fun k w hk => ?_⟩
      have hlt := (List.getElem?_eq_some_iff.mp hk).1
      rw [List.getElem?_eq_none_iff] at hw
      omega
  | some last =>
      cases hstop : last.stop with
      | true =>
          refine ⟨r.workers.length, fun k hk w hwk => ?_, fun k w hk hle => ?_⟩
          · by_cases hlast : k + 1 < r.workers.length
            · exact (hr.workers k w hwk).older hlast
            · rw [show k = r.workers.length - 1 by omega, hw] at hwk
              rw [← Option.some.inj hwk]
              exact hstop
          · exact absurd (List.getElem?_eq_some_iff.mp hk).1 (by omega)
      | false =>
          refine ⟨r.workers.length - 1, fun k hk w hwk => (hr.workers k w hwk).older (by omega),
            fun k w hk hle => ?_⟩
          have hlt := (List.getElem?_eq_some_iff.mp hk).1
          rw [show k = r.workers.length - 1 by omega, hw] at hk
          exact ⟨by rw [← Option.some.inj hk]; exact hstop, by omega⟩

/-- From any configuration with no call in progress the workers can react. -/
theorem can_react {r : SegmentRecorder} {pool : List SegThread} (hr : GenInv r)
    (hlock : r.lock = none) :
    ∃ r', Steps segmentRecorder.step workersOnly ⟨r, pool⟩ ⟨r', pool⟩ ∧ CallsKept r r' ∧
      Reacted r' := by
  obtain ⟨n, hn, hlast⟩ := stopped_before hr
  -- the generations that are told to stop end first
  obtain ⟨r₁, hsteps, hr₁, hkept, hended⟩ := @older_end r pool hr hlock n hn
  have hreacted : ∀ (k : ℕ) w, r₁.workers[k]? = some w →
      ¬ (w.pc = .join ∧ r₁.joined w = true) →
      (w.stop = true → w.pc = .ended) ∧ ¬ (w.pc = .join ∧ r₁.joined w = true) := by
    intro k w hw hjoin
    refine ⟨fun hstop => ?_, hjoin⟩
    rcases Nat.lt_or_ge k n with hlt | hge
    · exact hended k hlt w hw
    · obtain ⟨w₀, hw₀, hsame⟩ := hkept.get hw
      rw [hsame, (hlast k w₀ hw₀ hge).1] at hstop
      cases hstop
  by_cases hwaiting : ∃ (k : ℕ) (w : SegWorker),
      r₁.workers[k]? = some w ∧ w.pc = .join ∧ r₁.joined w = true
  · -- the newest one passes its join
    obtain ⟨k, w, hw, hpc, hjoined⟩ := hwaiting
    have hk : n ≤ k := by
      by_contra hlt
      rw [hended k (by omega) w hw] at hpc
      cases hpc
    obtain ⟨w₀, hw₀, hsame⟩ := hkept.get hw
    obtain ⟨hrun, hkLast⟩ := hlast k w₀ hw₀ hk
    have hnext : segWorkerNext w (r₁.joined w) false = some { w with pc := .setup } := by
      simp only [segWorkerNext, hpc, hjoined, if_true]
    have hstep : r₁.workerStep k false =
        some { r₁ with workers := r₁.workers.set k { w with pc := .setup } } := by
      rw [SegmentRecorder.workerStep, hw]
      show (segWorkerNext w (r₁.joined w) false).map _ = _
      rw [hnext, Option.map_some]
    refine ⟨_, hsteps.trans (workerStep_steps hstep), hkept.trans (workerStep_kept hstep), ?_⟩
    intro j v hv
    rcases getElem?_set_cases hw hv with ⟨rfl, rfl⟩ | ⟨hne, hv⟩
    · refine ⟨fun hstop => ?_, fun h => (by cases h.1)⟩
      rw [show w.stop = true from hstop, hrun] at hsame
      cases hsame
    · have hj : v.pc = .ended := by
        refine hended j ?_ v hv
        by_contra hge
        obtain ⟨v₀, hv₀, -⟩ := hkept.get hv
        have hjLast := (hlast j v₀ hv₀ (by omega)).2
        omega
      exact ⟨fun _ => hj, fun h => (by rw [hj] at h; cases h.1)⟩
  · exact ⟨r₁, hsteps, hkept, fun k w hw => hreacted k w hw fun h => hwaiting ⟨k, w, hw, h⟩⟩

-- ============================================================================
-- Exclusion, and no start is lost
-- ============================================================================

/-- Past its join and not at its end. -/
def SegWorker.running (w : SegWorker) : Bool := w.pc.pastJoin && w.pc != .ended

theorem GenInv.exclusive {r : SegmentRecorder} (hr : GenInv r) {j k : ℕ} {v w : SegWorker}
    (hv : r.workers[j]? = some v) (hw : r.workers[k]? = some w) (hvr : v.running = true)
    (hwr : w.running = true) : j = k := by
  rw [SegWorker.running, Bool.and_eq_true, bne_iff_ne] at hvr hwr
  rcases lt_trichotomy j k with hlt | heq | hgt
  · exact absurd ((hr.workers k w hw).joined hwr.1 j hlt v hv) hvr.2
  · exact heq
  · exact absurd ((hr.workers j v hv).joined hvr.1 k hgt w hw) hwr.2

theorem GenInv.running_iff {r : SegmentRecorder} (hr : GenInv r) (hlock : r.lock = none)
    (hreacted : Reacted r) : (∃ w ∈ r.workers, w.running = true) ↔ r.lastCall = some .start := by
  have hagrees := hr.idle hlock
  constructor
  · rintro ⟨w, hmem, hrunning⟩
    obtain ⟨k, hw⟩ := List.mem_iff_getElem?.mp hmem
    rw [SegWorker.running, Bool.and_eq_true, bne_iff_ne] at hrunning
    have hstop : w.stop ≠ true := fun hstop => hrunning.2 ((hreacted k w hw).1 hstop)
    have hk := (List.getElem?_eq_some_iff.mp hw).1
    have hcurrent : r.current = some w := by
      have hlast : ¬ k + 1 < r.workers.length := fun hlt =>
        hstop ((hr.workers k w hw).older hlt)
      rw [current_eq hr.thread, show r.workers.length - 1 = k by omega]
      exact hw
    simp only [Agrees] at hagrees
    cases hcall : r.lastCall with
    | none =>
        rw [hcall] at hagrees
        rw [hagrees] at hmem
        cases hmem
    | some call =>
        cases call with
        | start => rfl
        | stop =>
            rw [hcall] at hagrees
            exact absurd (hagrees w hcurrent) hstop
  · intro hcall
    simp only [Agrees, hcall] at hagrees
    obtain ⟨w, hcurrent, hstop⟩ := hagrees
    rw [current_eq hr.thread] at hcurrent
    have hok := hr.workers _ w hcurrent
    refine ⟨w, List.mem_of_getElem? hcurrent, ?_⟩
    rw [SegWorker.running, Bool.and_eq_true, bne_iff_ne]
    refine ⟨?_, fun hended => ?_⟩
    · cases hpast : w.pc.pastJoin with
      | true => rfl
      | false =>
          exfalso
          cases hpc : w.pc with
          | created => exact (hok.created hpc).1 hlock
          | join =>
              refine (hreacted _ w hcurrent).2 ⟨hpc, ?_⟩
              rw [SegmentRecorder.joined, hok.previous]
              by_cases hfirst : r.workers.length - 1 = 0
              · rw [if_pos hfirst]
              · rw [if_neg hfirst]
                show (r.workers[r.workers.length - 1 - 1]?).all _ = true
                cases hprev : r.workers[r.workers.length - 1 - 1]? with
                | none => rfl
                | some v =>
                    have hvstop := (hr.workers _ v hprev).older (by omega)
                    rw [Option.all_some, (hreacted _ v hprev).1 hvstop]
                    rfl
          | _ =>
              rw [hpc] at hpast
              cases hpast
    · rw [hok.stopped (.inr hended)] at hstop
      cases hstop

/-- At most one worker is past its join and not at its end.  Once the workers have reacted to the
    calls made so far, one is running exactly when the last call to take the lock was `start()`;
    and while no call is in progress they can react. -/
theorem generations_exclusive {c : Conf SegmentRecorder SegThread}
    (h : Steps segmentRecorder.step free ⟨.init, []⟩ c) :
    (∀ (j k : ℕ) v w, c.shared.workers[j]? = some v → c.shared.workers[k]? = some w →
      v.running = true → w.running = true → j = k) ∧
    (c.shared.lock = none → Reacted c.shared →
      ((∃ w ∈ c.shared.workers, w.running = true) ↔ c.shared.lastCall = some .start)) ∧
    (c.shared.lock = none → ∃ c', Steps segmentRecorder.step workersOnly c c' ∧
      c'.shared.lastCall = c.shared.lastCall ∧ c'.shared.lock = none ∧ Reacted c'.shared) := by
  have hr := genInv_reachable h
  refine ⟨fun j k v w hv hw hvr hwr => hr.exclusive hv hw hvr hwr,
    fun hlock hreacted => hr.running_iff hlock hreacted, fun hlock => ?_⟩
  obtain ⟨r', hsteps, hkept, hreacted⟩ := can_react hr hlock
  exact ⟨_, hsteps, hkept.lastCall, hkept.lock.trans hlock, hreacted⟩

/-- Start, stop and start again before the first worker has ended. -/
def startStopStart : List (Event SegCall Unit (ℕ × Bool)) :=
  [.enter .start, .sched 0 (), .sched 0 (), .sched 0 (), .sched 0 (), .sched 0 (),
    .env (0, false), .env (0, false), .env (0, false), .env (0, false),
    .enter .stop, .sched 1 (), .sched 1 (), .sched 1 (),
    .enter .start, .sched 2 (), .sched 2 (), .sched 2 (), .sched 2 (), .sched 2 ()]

theorem generations_exclusive_restart :
    ∃ c : Conf SegmentRecorder SegThread, c.shared.workers.length = 2 ∧
      (∀ (j k : ℕ) v w, c.shared.workers[j]? = some v → c.shared.workers[k]? = some w →
        v.running = true → w.running = true → j = k) ∧
      (c.shared.lock = none → Reacted c.shared →
        ((∃ w ∈ c.shared.workers, w.running = true) ↔ c.shared.lastCall = some .start)) ∧
      (c.shared.lock = none → ∃ c', Steps segmentRecorder.step workersOnly c c' ∧
        c'.shared.lastCall = c.shared.lastCall ∧ c'.shared.lock = none ∧ Reacted c'.shared) := by
  have hrun : (run segmentRecorder.step ⟨.init, []⟩ startStopStart).map
      (fun c => c.shared.workers.length) = some 2 := by decide
  obtain ⟨c, hc, hlength⟩ := Option.map_eq_some_iff.mp hrun
  exact ⟨c, hlength, generations_exclusive (Steps.of_run hc)⟩

end Babycat.Recorder
