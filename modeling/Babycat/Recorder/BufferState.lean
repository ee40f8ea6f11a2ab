/-
  Babycat.Recorder.BufferState

  The three records of the state of the segment buffer (`main.py`, FR-014).

  `/buffer/start` and `/buffer/stop` set `status.buffer_active`, save the flag in
  the state file and start or stop the segment recorder, each under a lock of
  its own and in this order.  Two requests that cross leave the records of
  different requests behind, and one whose `update` raises leaves the last two
  as they were.  `InOrder` is the guard of the runs in which the last request
  that is still to write a record finds the record before it at its own value.
-/

import Babycat.Conc.Pending
import Babycat.Recorder.SegmentRecorder
import Babycat.Recorder.StateLock

namespace Babycat.Recorder

open Babycat.Conc

-- ============================================================================
-- Requests
-- ============================================================================

structure BufferState where
  /-- `status.buffer_active` -/
  active : Bool
  files : StateFiles
  recorder : SegmentRecorder
  deriving DecidableEq

/-- `state_store.load().get("buffer_active")` -/
def StateFiles.bufferActive (f : StateFiles) : Bool := f.load.bufferActive.getD false

inductive BufferPc
  | setStatus
  | save (pc : UpdatePc)
  | recorder (pc : SegCallPc)
  deriving DecidableEq

inductive BufferOutcome
  | running (pc : BufferPc)
  | returned
  | raised
  deriving DecidableEq

/-- The value that the endpoint stores. -/
def SegCall.active : SegCall → Bool
  | .start => true
  | .stop => false

def UpdateOutcome.thenRecorder : UpdateOutcome → BufferOutcome
  | .running pc => .running (.save pc)
  | .returned => .running (.recorder .acquire)
  | .raised => .raised

def SegOutcome.thenReturn : SegOutcome → BufferOutcome
  | .running pc => .running (.recorder pc)
  | .returned => .returned

/-- `buffer_start` and `buffer_stop`, by request `i`. -/
def bufferNext (call : SegCall) (i : ℕ) (s : BufferState) (raises : Bool) :
    BufferPc → Option (BufferState × BufferOutcome)
  | .setStatus => some ({ s with active := call.active }, .running (.save .acquire))
  | .save pc =>
      (updateNext (.bufferActive call.active) i s.files raises pc).map fun x =>
        ({ s with files := x.1 }, x.2.thenRecorder)
  | .recorder pc =>
      (segNext call i s.recorder pc).map fun x => ({ s with recorder := x.1 }, x.2.thenReturn)

inductive BufferEntry
  | request (call : SegCall)
  /-- An accepted event, which saves the anchor of the cooldown. -/
  | event (time : PyFloat)

inductive BufferThread
  | request (call : SegCall) (state : BufferOutcome)
  | event (time : PyFloat) (state : UpdateOutcome)
  deriving DecidableEq

def bufferThreadNext (i : ℕ) (s : BufferState) (t : BufferThread) (raises : Bool) :
    Option (BufferState × BufferThread) :=
  match t with
  | .request call (.running pc) =>
      (bufferNext call i s raises pc).map fun x => (x.1, .request call x.2)
  | .event time (.running pc) =>
      (updateNext (.lastEventAcceptedAt time) i s.files raises pc).map fun x =>
        ({ s with files := x.1 }, .event time x.2)
  | _ => none

/-- Any number of requests and events, and the workers of the segment recorder. -/
def buffer : Prog BufferState BufferThread BufferEntry Bool (ℕ × Bool) where
  enter
    | .request call => .request call (.running .setStatus)
    | .event time => .event time (.running .acquire)
  next := bufferThreadNext
  env s e := (s.recorder.workerStep e.1 e.2).map fun r => { s with recorder := r }

/-- The segment recorder after `start()` alone. -/
def SegmentRecorder.started : SegmentRecorder := ⟨none, [⟨none, false, .join⟩], some 0, some .start⟩

example : (do
    let (r, _) ← segNext .start 0 .init .acquire
    let (r, _) ← segNext .start 0 r .check
    let (r, _) ← segNext .start 0 r .create
    let (r, _) ← segNext .start 0 r .launch
    segNext .start 0 r .release) = some (.started, .returned) := by decide

/-- `lifespan`: the state before the restart is restored. -/
def BufferState.boot (f : StateFiles) : BufferState :=
  if f.boot.bufferActive then ⟨true, f.boot, .started⟩ else ⟨false, f.boot, .init⟩

/-- A buffer request that has not been answered. -/
def BufferThread.inProgress : BufferThread → Bool
  | .request _ (.running _) => true
  | _ => false

-- ============================================================================
-- Who is still to write which record
-- ============================================================================

/-- The update is still to write the file. -/
def UpdatePc.unsaved : UpdatePc → Bool
  | .release _ => false
  | _ => true

/-- The call is still to start or to stop the current generation. -/
def SegCallPc.unrecorded : SegCallPc → Bool
  | .launch | .release => false
  | _ => true

def BufferThread.toSave : BufferThread → Bool
  | .request _ (.running .setStatus) => true
  | .request _ (.running (.save pc)) => pc.unsaved
  | _ => false

def BufferThread.toRecord : BufferThread → Bool
  | .request _ (.running .setStatus) => true
  | .request _ (.running (.save pc)) => pc != .release false
  | .request _ (.running (.recorder pc)) => pc.unrecorded
  | _ => false

/-- The step replaces the state file. -/
def BufferPc.saves (pc : BufferPc) (raises : Bool) : Bool := pc == .save .replace && !raises

/-- The step is a call of the update that fails. -/
def BufferPc.fails (pc : BufferPc) (raises : Bool) : Bool :=
  match pc with
  | .save .acquire | .save (.release _) => false
  | .save _ => raises
  | _ => false

/-- The step starts or stops the current generation, or finds it at work. -/
def BufferPc.records (pc : BufferPc) (r : SegmentRecorder) : Bool :=
  match pc with
  | .recorder .check => r.current.any fun w => w.isAlive && !w.stop
  | .recorder .create | .recorder .setStop => true
  | _ => false

/-- The last request that is still to write a record finds the one before it at its own value: no
    request of the other kind has crossed it there.  One that gives up leaves its records to another
    request, or equal. -/
def inOrder (c : Conf BufferState BufferThread) : Event BufferEntry Bool (ℕ × Bool) → Bool
  | .sched i raises =>
      match c.pool[i]? with
      | some (.request call (.running pc)) =>
          let s := c.shared
          let laterSave := (c.pool.eraseIdx i).any BufferThread.toSave
          let laterRecord := (c.pool.eraseIdx i).any BufferThread.toRecord
          (!pc.saves raises || laterSave || call.active == s.active) &&
            (!pc.fails raises || laterSave || s.files.bufferActive == s.active) &&
            (!pc.fails raises || laterRecord || s.recorder.unstopped == s.files.bufferActive) &&
            (!pc.records s.recorder || laterRecord || call.active == s.files.bufferActive)
      | _ => true
  | _ => true

def InOrder (c : Conf BufferState BufferThread) (e : Event BufferEntry Bool (ℕ × Bool)) : Prop :=
  inOrder c e = true

instance (c : Conf BufferState BufferThread) (e : Event BufferEntry Bool (ℕ × Bool)) :
    Decidable (InOrder c e) :=
  inferInstanceAs (Decidable (_ = true))

theorem InOrder.request {c : Conf BufferState BufferThread} {i : ℕ} {raises : Bool} {call : SegCall}
    {pc : BufferPc} (hG : InOrder c (.sched i raises))
    (ht : c.pool[i]? = some (.request call (.running pc))) :
    (pc.saves raises = true → (c.pool.eraseIdx i).any BufferThread.toSave = true ∨
      call.active = c.shared.active) ∧
    (pc.fails raises = true → ((c.pool.eraseIdx i).any BufferThread.toSave = true ∨
      c.shared.files.bufferActive = c.shared.active) ∧
      ((c.pool.eraseIdx i).any BufferThread.toRecord = true ∨
        c.shared.recorder.unstopped = c.shared.files.bufferActive)) ∧
    (pc.records c.shared.recorder = true → (c.pool.eraseIdx i).any BufferThread.toRecord = true ∨
      call.active = c.shared.files.bufferActive) := by
  simp only [InOrder, inOrder, ht, Bool.and_eq_true, Bool.or_eq_true, Bool.not_eq_true',
    beq_iff_eq] at hG
  obtain ⟨⟨⟨hsaves, hfile⟩, hrecord⟩, hrecords⟩ := hG
  refine ⟨fun h => ?_, fun h => ⟨?_, ?_⟩, fun h => ?_⟩
  · simpa [h] using hsaves
  · simpa [h] using hfile
  · simpa [h] using hrecord
  · simpa [h] using hrecords

-- ============================================================================
-- Steps
-- ============================================================================

/-- The update that a thread is in. -/
def BufferThread.updating : BufferThread → Option (SavedField × UpdatePc)
  | .request call (.running (.save pc)) => some (.bufferActive call.active, pc)
  | .event time (.running pc) => some (.lastEventAcceptedAt time, pc)
  | _ => none

theorem buffer_usesStateFile :
    UsesStateFile buffer BufferState.files BufferThread.updating (fun k => k) where
  enter r field pc hu := by
    cases r with
    | request call => cases hu
    | event time =>
        cases hu
        rfl
  moves {i s t k s' t' field pc} hn hu := by
    cases t with
    | request call state =>
        cases state with
        | running bpc =>
            cases bpc with
            | save upc =>
                cases hu
                obtain ⟨x, hx, heq⟩ := Option.map_eq_some_iff.mp hn
                obtain ⟨y, hy, rfl⟩ := Option.map_eq_some_iff.mp hx
                cases heq
                refine ⟨y.2, hy, ?_⟩
                cases y.2 <;> rfl
            | _ => cases hu
        | _ => cases hu
    | event time state =>
        cases state with
        | running upc =>
            cases hu
            obtain ⟨x, hx, heq⟩ := Option.map_eq_some_iff.mp hn
            cases heq
            refine ⟨x.2, hx, ?_⟩
            cases x.2 <;> rfl
        | _ => cases hu
  keeps {i s t k s' t'} hn hu := by
    cases t with
    | request call state =>
        cases state with
        | running bpc =>
            obtain ⟨x, hx, heq⟩ := Option.map_eq_some_iff.mp hn
            cases heq
            cases bpc with
            | setStatus =>
                cases hx
                exact ⟨rfl, fun _ _ hu' => (by cases hu'; rfl)⟩
            | save upc => cases hu
            | recorder spc =>
                obtain ⟨y, -, rfl⟩ := Option.map_eq_some_iff.mp hx
                refine ⟨rfl, fun _ _ hu' => ?_⟩
                cases hy : y.2 <;> simp [hy, SegOutcome.thenReturn, BufferThread.updating] at hu'
        | _ => cases hn
    | event time state =>
        cases state with
        | running upc => cases hu
        | _ => cases hn
  env hx := by
    obtain ⟨r, -, rfl⟩ := Option.map_eq_some_iff.mp hx
    rfl

/-- What a step of an update means for the file. -/
theorem updateNext_saves {field : SavedField} {i : ℕ} {f f' : StateFiles} {raises : Bool}
    {pc : UpdatePc} {o : UpdateOutcome} (h : updateNext field i f raises pc = some (f', o))
    (hat : UpdateAt field f pc) :
    (∃ pc', o = .running pc' ∧ pc.unsaved = true ∧ pc'.unsaved = true ∧ f'.load = f.load) ∨
      (pc = .replace ∧ raises = false ∧ o = .running (.release true) ∧
        f'.load = f.load.update field) ∨
      (pc.unsaved = true ∧ (BufferPc.save pc).fails raises = true ∧
        o = .running (.release false) ∧ f'.load = f.load) ∨
      (∃ ok, pc = .release ok ∧ o = (if ok then .returned else .raised) ∧ f'.load = f.load) := by
  cases pc with
  | acquire =>
      obtain ⟨-, rfl, rfl⟩ := updateNext_outside h rfl
      exact .inl ⟨_, rfl, rfl, rfl, rfl⟩
  | load | mkdir state | openTemp state | write state =>
      cases raises <;> cases h
      · exact .inl ⟨_, rfl, rfl, rfl, rfl⟩
      · exact .inr (.inr (.inl ⟨rfl, rfl, rfl, rfl⟩))
  | replace =>
      have htmp : f.tmp = some (.whole (f.load.update field)) := hat
      simp only [updateNext, htmp] at h
      cases raises <;> cases h
      · exact .inr (.inl ⟨rfl, rfl, rfl, rfl⟩)
      · exact .inr (.inr (.inl ⟨rfl, rfl, rfl, rfl⟩))
  | release ok =>
      cases h
      exact .inr (.inr (.inr ⟨ok, rfl, rfl, rfl⟩))

/-- The step belongs to the call. -/
def SegCallPc.belongs (call : SegCall) : SegCallPc → Bool
  | .check | .create | .launch => call == .start
  | .setStop => call == .stop
  | .acquire | .release => true

theorem segNext_belongs {call : SegCall} {i : ℕ} {r r' : SegmentRecorder} {pc pc' : SegCallPc}
    (h : segNext call i r pc = some (r', .running pc')) (hpc : pc.belongs call = true) :
    pc'.belongs call = true := by
  cases pc with
  | acquire =>
      simp only [segNext] at h
      split at h <;> cases h
      cases call <;> rfl
  | check =>
      cases h
      split
      · rfl
      · exact hpc
  | create =>
      cases h
      exact hpc
  | launch | setStop =>
      cases h
      rfl
  | release => cases h

theorem unstopped_setCurrent (r : SegmentRecorder) (f : SegWorker → SegWorker) :
    (r.setCurrent f).unstopped = r.current.any fun w => !(f w).stop := by
  rw [SegmentRecorder.unstopped, setCurrent_current]
  cases r.current <;> rfl

/-- What a step of a call means for the current generation. -/
theorem segNext_unstopped {call : SegCall} {i : ℕ} {r r' : SegmentRecorder} {pc : SegCallPc}
    {o : SegOutcome} (h : segNext call i r pc = some (r', o)) (hpc : pc.belongs call = true) :
    (∃ pc', o = .running pc' ∧ pc'.unrecorded = true ∧ r'.unstopped = r.unstopped) ∨
      ((BufferPc.recorder pc).records r = true ∧ r'.unstopped = call.active) ∨
      (pc.unrecorded = false ∧ r'.unstopped = r.unstopped) := by
  cases pc with
  | acquire =>
      simp only [segNext] at h
      split at h <;> cases h
      exact .inl ⟨_, rfl, (by cases call <;> rfl), rfl⟩
  | check =>
      obtain rfl : call = .start := eq_of_beq hpc
      cases h
      cases hwork : r.current.any fun w => w.isAlive && !w.stop with
      | true =>
          refine .inr (.inl ⟨hwork, ?_⟩)
          obtain ⟨w, hw, halive⟩ := (Option.any_eq_true _ _).mp hwork
          rw [Bool.and_eq_true] at halive
          rw [SegmentRecorder.unstopped, hw]
          exact halive.2
      | false => exact .inl ⟨_, rfl, rfl, rfl⟩
  | create =>
      obtain rfl : call = .start := eq_of_beq hpc
      cases h
      refine .inr (.inl ⟨rfl, ?_⟩)
      simp [SegmentRecorder.unstopped, SegmentRecorder.current, SegCall.active]
  | launch =>
      cases h
      exact .inr (.inr ⟨rfl, unstopped_setCurrent r _⟩)
  | setStop =>
      obtain rfl : call = .stop := eq_of_beq hpc
      cases h
      refine .inr (.inl ⟨rfl, ?_⟩)
      rw [unstopped_setCurrent]
      cases r.current <;> rfl
  | release =>
      cases h
      exact .inr (.inr ⟨rfl, rfl⟩)

theorem CallsKept.unstopped {r r' : SegmentRecorder} (h : CallsKept r r') :
    r'.unstopped = r.unstopped := by
  have hsame := congrArg (fun x => x.any fun stop => !stop) h.current_stop
  rw [Option.any_map, Option.any_map] at hsame
  exact hsame

-- ============================================================================
-- The records agree
-- ============================================================================

/-- The state file says what the status says. -/
def SavedAgrees (s : BufferState) : Prop := s.files.bufferActive = s.active

/-- The segment recorder does what the state file says. -/
def RecorderAgrees (s : BufferState) : Prop := s.recorder.unstopped = s.files.bufferActive

theorem bufferActive_update (f : StateFiles) {f' : StateFiles} {active : Bool}
    (h : f'.load = f.load.update (.bufferActive active)) : f'.bufferActive = active := by
  rw [StateFiles.bufferActive, h]
  rfl

theorem bufferActive_kept {f f' : StateFiles}
    (h : f'.load = f.load ∨ ∃ time, f'.load = f.load.update (.lastEventAcceptedAt time)) :
    f'.bufferActive = f.bufferActive := by
  rcases h with h | ⟨time, h⟩ <;> rw [StateFiles.bufferActive, h] <;> rfl

/-- Every step of the recorder is one of the call it belongs to. -/
def OfCall (_ : ℕ) (_ : BufferState) (t : BufferThread) : Prop :=
  ∀ call pc, t = .request call (.running (.recorder pc)) → pc.belongs call = true

section Steps

variable {c : Conf BufferState BufferThread} {i : ℕ} {s' : BufferState} {t t' : BufferThread}
variable {raises : Bool}

theorem bufferThreadNext_ofCall (hn : bufferThreadNext i c.shared t raises = some (s', t'))
    (h : OfCall i c.shared t) : OfCall i s' t' := by
  rintro call pc rfl
  cases t with
  | event time state =>
      cases state with
      | running upc =>
          obtain ⟨x, -, heq⟩ := Option.map_eq_some_iff.mp hn
          cases heq
      | _ => cases hn
  | request call' state =>
      cases state with
      | running bpc =>
          obtain ⟨x, hx, heq⟩ := Option.map_eq_some_iff.mp hn
          obtain ⟨y, o⟩ := x
          cases heq
          cases bpc with
          | setStatus => cases hx
          | save upc =>
              obtain ⟨z, -, hz⟩ := Option.map_eq_some_iff.mp hx
              obtain ⟨f, o⟩ := z
              cases o <;> cases hz
              rfl
          | recorder spc =>
              obtain ⟨z, hz, heq⟩ := Option.map_eq_some_iff.mp hx
              obtain ⟨r, o⟩ := z
              cases o <;> cases heq
              exact segNext_belongs hz (h _ _ rfl)
      | _ => cases hn

theorem ofCall_outline (G : Conf BufferState BufferThread → Event BufferEntry Bool (ℕ × Bool) → Prop) :
    OwickiGries buffer G (fun _ => True) OfCall where
  enter i s r _ call pc h := by cases r <;> cases h
  own c i k t s' t' hc _ ht hn := ⟨trivial, bufferThreadNext_ofCall hn (hc.2 i t ht)⟩
  others _ _ _ _ _ _ j v hc _ _ _ _ hj := hc.2 j v hj
  env _ _ _ hc _ _ := ⟨trivial, hc.2⟩

/-- A request that stops being to save leaves the file at the status, or another to save. -/
theorem saved_paysOff (hG : InOrder c (.sched i raises)) (ht : c.pool[i]? = some t)
    (hn : bufferThreadNext i c.shared t raises = some (s', t'))
    (hk : CallKnows BufferState.files BufferThread.updating i c.shared t) :
    PaysOff SavedAgrees BufferThread.toSave c i t s' t' := by
  cases t with
  | event time state =>
      cases state with
      | running upc =>
          obtain ⟨x, hx, heq⟩ := Option.map_eq_some_iff.mp hn
          obtain ⟨f, o⟩ := x
          cases heq
          have hload := (updateNext_load hx (hk _ _ rfl)).1
          refine .inr (.inr (.inr ⟨rfl, fun hagrees => ?_⟩))
          exact (bufferActive_kept (hload.imp_right fun h => ⟨time, h⟩)).trans hagrees
      | _ => cases hn
  | request call state =>
      cases state with
      | running bpc =>
          obtain ⟨hsaves, hfails, -⟩ := hG.request ht
          obtain ⟨x, hx, heq⟩ := Option.map_eq_some_iff.mp hn
          cases bpc with
          | setStatus =>
              cases hx
              cases heq
              exact .inl rfl
          | save upc =>
              obtain ⟨y, hy, rfl⟩ := Option.map_eq_some_iff.mp hx
              obtain ⟨f, o⟩ := y
              cases heq
              rcases updateNext_saves hy (hk _ _ rfl) with ⟨pc', rfl, -, hpc', -⟩ |
                  ⟨rfl, rfl, rfl, hload⟩ | ⟨-, hfail, -, hload⟩ | ⟨ok, rfl, -, hload⟩
              · exact .inl hpc'
              · rcases hsaves rfl with hother | hactive
                · exact .inr (.inr (.inl hother))
                · exact .inr (.inl ((bufferActive_update _ hload).trans hactive))
              · rcases (hfails hfail).1 with hother | hagrees
                · exact .inr (.inr (.inl hother))
                · exact .inr (.inl ((bufferActive_kept (.inl hload)).trans hagrees))
              · refine .inr (.inr (.inr ⟨rfl, fun hagrees => ?_⟩))
                exact (bufferActive_kept (.inl hload)).trans hagrees
          | recorder spc =>
              obtain ⟨y, -, rfl⟩ := Option.map_eq_some_iff.mp hx
              cases heq
              exact .inr (.inr (.inr ⟨rfl, fun hagrees => hagrees⟩))
      | _ => cases hn

/-- A request that stops being to start or stop the segment recorder leaves it as the file says, or
    another to do so. -/
theorem recorder_paysOff (hG : InOrder c (.sched i raises)) (ht : c.pool[i]? = some t)
    (hn : bufferThreadNext i c.shared t raises = some (s', t'))
    (hk : CallKnows BufferState.files BufferThread.updating i c.shared t)
    (hcall : OfCall i c.shared t) :
    PaysOff RecorderAgrees BufferThread.toRecord c i t s' t' := by
  cases t with
  | event time state =>
      cases state with
      | running upc =>
          obtain ⟨x, hx, heq⟩ := Option.map_eq_some_iff.mp hn
          obtain ⟨f, o⟩ := x
          cases heq
          have hload := (updateNext_load hx (hk _ _ rfl)).1
          refine .inr (.inr (.inr ⟨rfl, fun hagrees => hagrees.trans ?_⟩))
          exact (bufferActive_kept (hload.imp_right fun h => ⟨time, h⟩)).symm
      | _ => cases hn
  | request call state =>
      cases state with
      | running bpc =>
          obtain ⟨-, hfails, hrecords⟩ := hG.request ht
          obtain ⟨x, hx, heq⟩ := Option.map_eq_some_iff.mp hn
          cases bpc with
          | setStatus =>
              cases hx
              cases heq
              exact .inl rfl
          | save upc =>
              obtain ⟨y, hy, rfl⟩ := Option.map_eq_some_iff.mp hx
              obtain ⟨f, o⟩ := y
              cases heq
              rcases updateNext_saves hy (hk _ _ rfl) with ⟨pc', rfl, -, hpc', -⟩ |
                  ⟨rfl, rfl, rfl, -⟩ | ⟨-, hfail, rfl, hload⟩ | ⟨ok, rfl, rfl, hload⟩
              · refine .inl ?_
                cases pc' <;> first | rfl | cases hpc'
              · exact .inl rfl
              · rcases (hfails hfail).2 with hother | hagrees
                · exact .inr (.inr (.inl hother))
                · exact .inr (.inl (hagrees.trans (bufferActive_kept (.inl hload)).symm))
              · cases ok with
                | true => exact .inl rfl
                | false =>
                    refine .inr (.inr (.inr ⟨rfl, fun hagrees => hagrees.trans ?_⟩))
                    exact (bufferActive_kept (.inl hload)).symm
          | recorder spc =>
              obtain ⟨y, hy, rfl⟩ := Option.map_eq_some_iff.mp hx
              obtain ⟨r, o⟩ := y
              cases heq
              rcases segNext_unstopped hy (hcall _ _ rfl) with ⟨pc', rfl, hpc', -⟩ |
                  ⟨hrecord, hactive⟩ | ⟨hdone, hsame⟩
              · exact .inl hpc'
              · rcases hrecords hrecord with hother | hfile
                · exact .inr (.inr (.inl hother))
                · exact .inr (.inl (hactive.trans hfile))
              · exact .inr (.inr (.inr ⟨hdone, fun hagrees => hsame.trans hagrees⟩))
      | _ => cases hn

end Steps

/-- What every run that `InOrder` allows keeps. -/
structure BufferInv (c : Conf BufferState BufferThread) : Prop where
  files : Annotated (fun _ => True) (Mutex.Holds (fun s => s.files.lock)
    (insideCall BufferThread.updating) (CallKnows BufferState.files BufferThread.updating)) c
  calls : Annotated (fun _ => True) OfCall c
  saved : Owed SavedAgrees BufferThread.toSave c
  recorder : Owed RecorderAgrees BufferThread.toRecord c

theorem bufferInv_step (c : Conf BufferState BufferThread) (e : Event BufferEntry Bool (ℕ × Bool))
    (c' : Conf BufferState BufferThread) (h : BufferInv c) (hG : InOrder c e)
    (hs : buffer.step c e = some c') : BufferInv c' where
  files := (buffer_usesStateFile.outline InOrder).step c e c' h.files hG hs
  calls := (ofCall_outline InOrder).step c e c' h.calls hG hs
  saved := by
    refine h.saved.step hs ?_ ?_
    · rintro i raises t s' t' rfl ht hn
      exact saved_paysOff hG ht hn (UsesStateFile.known h.files ht)
    · rintro x s' rfl hx hagrees
      obtain ⟨r, -, rfl⟩ := Option.map_eq_some_iff.mp hx
      exact hagrees
  recorder := by
    refine h.recorder.step hs ?_ ?_
    · rintro i raises t s' t' rfl ht hn
      exact recorder_paysOff hG ht hn (UsesStateFile.known h.files ht) (h.calls.2 i t ht)
    · rintro x s' rfl hx hagrees
      obtain ⟨r, hr, rfl⟩ := Option.map_eq_some_iff.mp hx
      exact (workerStep_kept hr).unstopped.trans hagrees

theorem boot_agrees (f : StateFiles) :
    SavedAgrees (.boot f) ∧ RecorderAgrees (.boot f) := by
  rw [BufferState.boot]
  cases hf : f.boot.bufferActive with
  | true => exact ⟨hf, hf.symm⟩
  | false => exact ⟨hf, hf.symm⟩

theorem bufferInv_boot (f : StateFiles) : BufferInv ⟨.boot f, []⟩ where
  files := ⟨trivial, fun i t ht => by cases ht⟩
  calls := ⟨trivial, fun i t ht => by cases ht⟩
  saved := .inl (boot_agrees f).1
  recorder := .inl (boot_agrees f).2

theorem idle_done {t : BufferThread} (h : t.inProgress = false) :
    t.toSave = false ∧ t.toRecord = false := by
  cases t with
  | event time state => exact ⟨rfl, rfl⟩
  | request call state =>
      cases state with
      | running pc => cases h
      | _ => exact ⟨rfl, rfl⟩

def goesBuffer (i n : ℕ) : List (Event BufferEntry Bool (ℕ × Bool)) :=
  List.replicate n (.sched i false)

/-- A start, and a stop that arrives while the start saves the file. -/
def startThenStop : List (Event BufferEntry Bool (ℕ × Bool)) :=
  .enter (.request .start) :: goesBuffer 0 3 ++ .enter (.request .stop) :: goesBuffer 0 10 ++
    goesBuffer 1 11

/-- A stop that runs to its end after the start has set the status. -/
def stopInsideStart : List (Event BufferEntry Bool (ℕ × Bool)) :=
  .enter (.request .start) :: goesBuffer 0 1 ++ .enter (.request .stop) :: goesBuffer 1 11 ++
    goesBuffer 0 12

def emptyFiles : StateFiles := ⟨none, none, none⟩

end Babycat.Recorder
