/-
  Babycat.Recorder.StateFile

  The state file of the recorder (`state_store.py`).

  `update` merges fields into the file under `_lock` and goes through a temp
  file, one file system call a step.  A step that fails raises and gives the
  lock back; a temp file that was opened and not written stays behind, torn.
-/

import Babycat.Recorder.Payload

namespace Babycat.Recorder

/-- The mapping in the state file; a field that is not there is `none`. -/
structure SavedState where
  bufferActive : Option Bool
  lastEventAcceptedAt : Option PyFloat
  deriving DecidableEq

/-- The fields of a call of `update`. -/
inductive SavedField
  | bufferActive (active : Bool)
  | lastEventAcceptedAt (t : PyFloat)
  deriving DecidableEq

/-- `state.update(fields)`. -/
def SavedState.update (state : SavedState) : SavedField → SavedState
  | .bufferActive active => { state with bufferActive := some active }
  | .lastEventAcceptedAt t => { state with lastEventAcceptedAt := some t }

inductive FileContent
  | whole (state : SavedState)
  | torn
  deriving DecidableEq

structure StateFiles where
  /-- `STATE_PATH` and its `.tmp`. -/
  path : Option FileContent
  tmp : Option FileContent
  /-- The thread that holds `_lock`. -/
  lock : Option ℕ
  deriving DecidableEq

namespace StateFiles

variable (f : StateFiles)

/-- `load`: a file that is missing or unreadable gives the defaults. -/
def load : SavedState :=
  match f.path with
  | some (.whole state) => state
  | _ => ⟨none, none⟩

/-- `_trigger_last_save` when the module is loaded. -/
def anchor : PyFloat := f.load.lastEventAcceptedAt.getD (.finite 0)

/-- After a restart: the temp file is swept and no thread holds the lock. -/
def boot : StateFiles := { f with tmp := none, lock := none }

end StateFiles

inductive UpdatePc
  | acquire
  | load
  | mkdir (state : SavedState)
  | openTemp (state : SavedState)
  | write (state : SavedState)
  | replace
  | release (ok : Bool)
  deriving DecidableEq

inductive UpdateOutcome
  | running (pc : UpdatePc)
  | returned
  | raised
  deriving DecidableEq

/-- `update`, by thread `i`; `raises` says whether the call of this step fails. -/
def updateNext (field : SavedField) (i : ℕ) (f : StateFiles) (raises : Bool) :
    UpdatePc → Option (StateFiles × UpdateOutcome)
  | .acquire => if f.lock = none then some ({ f with lock := some i }, .running .load) else none
  | .load => some (f, .running (if raises then .release false else .mkdir (f.load.update field)))
  | .mkdir state => some (f, .running (if raises then .release false else .openTemp state))
  | .openTemp state =>
      some (if raises then (f, .running (.release false))
        else ({ f with tmp := some .torn }, .running (.write state)))
  | .write state =>
      some (if raises then (f, .running (.release false))
        else ({ f with tmp := some (.whole state) }, .running .replace))
  | .replace =>
      some (match raises, f.tmp with
        | false, some content =>
            ({ f with path := some content, tmp := none }, .running (.release true))
        | _, _ => (f, .running (.release false)))
  | .release ok => some ({ f with lock := none }, if ok then .returned else .raised)

/-! ## What an update knows and does -/

/-- The thread has taken `_lock` and not given it back. -/
def UpdatePc.inside : UpdatePc → Bool
  | .acquire => false
  | _ => true

/-- What holds at each step of an update inside the lock: it has merged its field into what the
    file still is. -/
def UpdateAt (field : SavedField) (f : StateFiles) : UpdatePc → Prop
  | .acquire | .load | .release false => True
  | .mkdir state | .openTemp state | .write state => state = f.load.update field
  | .replace => f.tmp = some (.whole (f.load.update field))
  | .release true => f.load.update field = f.load

section Update

variable {field : SavedField} {i : ℕ} {f f' : StateFiles} {raises : Bool} {pc : UpdatePc}
variable {o : UpdateOutcome}

theorem SavedState.update_idem (state : SavedState) (field : SavedField) :
    (state.update field).update field = state.update field := by
  cases field <;> rfl

/-- Outside the lock an update can only take it. -/
theorem updateNext_outside (h : updateNext field i f raises pc = some (f', o))
    (hout : pc.inside = false) :
    f.lock = none ∧ f' = { f with lock := some i } ∧ o = .running .load := by
  cases pc with
  | acquire =>
      simp only [updateNext] at h
      split at h
      · rename_i hfree
        cases h
        exact ⟨hfree, rfl, rfl⟩
      · cases h
  | _ => cases hout

/-- Inside the lock an update keeps it, or gives it back and is over. -/
theorem updateNext_within (h : updateNext field i f raises pc = some (f', o))
    (hin : pc.inside = true) :
    (∃ pc', o = .running pc' ∧ pc'.inside = true ∧ f'.lock = f.lock) ∨
      ((o = .returned ∨ o = .raised) ∧ f' = { f with lock := none }) := by
  cases pc with
  | acquire => cases hin
  | load | mkdir state =>
      cases h
      exact .inl ⟨_, rfl, by split <;> rfl, rfl⟩
  | openTemp state | write state =>
      cases raises <;> cases h <;> exact .inl ⟨_, rfl, rfl, rfl⟩
  | replace =>
      simp only [updateNext] at h
      split at h <;> cases h <;> exact .inl ⟨_, rfl, rfl, rfl⟩
  | release ok =>
      cases h
      refine .inr ⟨?_, rfl⟩
      cases ok
      · exact .inr rfl
      · exact .inl rfl

/-- What a step of an update does to the file: nothing, or it merges its field. -/
theorem updateNext_load (h : updateNext field i f raises pc = some (f', o))
    (hat : UpdateAt field f pc) :
    (f'.load = f.load ∨ f'.load = f.load.update field) ∧
      ∀ pc', o = .running pc' → UpdateAt field f' pc' := by
  cases pc with
  | acquire =>
      obtain ⟨-, rfl, rfl⟩ := updateNext_outside h rfl
      exact ⟨.inl rfl, fun pc' hpc => by cases hpc; trivial⟩
  | load =>
      cases h
      refine ⟨.inl rfl, fun pc' hpc => ?_⟩
      cases raises <;> cases hpc
      · rfl
      · trivial
  | mkdir state | openTemp state | write state =>
      obtain rfl : state = f.load.update field := hat
      cases raises <;> cases h <;> refine ⟨.inl rfl, fun pc' hpc => ?_⟩ <;> cases hpc <;>
        first | rfl | trivial
  | replace =>
      have htmp : f.tmp = some (.whole (f.load.update field)) := hat
      simp only [updateNext, htmp] at h
      cases raises with
      | false =>
          cases h
          refine ⟨.inr rfl, fun pc' hpc => ?_⟩
          cases hpc
          exact SavedState.update_idem f.load field
      | true =>
          cases h
          exact ⟨.inl rfl, fun pc' hpc => by cases hpc; trivial⟩
  | release ok =>
      cases h
      exact ⟨.inl rfl, fun pc' hpc => by cases ok <;> cases hpc⟩

/-- An update that returns has its field in the file. -/
theorem updateNext_returned (h : updateNext field i f raises pc = some (f', .returned))
    (hat : UpdateAt field f pc) : f'.load.update field = f'.load := by
  cases pc with
  | release ok =>
      cases ok with
      | true =>
          cases h
          exact hat
      | false => cases h
  | acquire => exact absurd (updateNext_outside h rfl).2.2 (by simp)
  | replace =>
      simp only [updateNext] at h
      split at h <;> cases h
  | _ => cases raises <;> cases h

/-- A file that has the field of the gate has its anchor. -/
theorem StateFiles.anchor_of_update {t : PyFloat}
    (h : f.load.update (.lastEventAcceptedAt t) = f.load) : f.anchor = t := by
  simp only [StateFiles.anchor]
  rw [← h]
  rfl

theorem StateFiles.anchor_of_path (h : f'.path = f.path) : f'.anchor = f.anchor := by
  simp only [StateFiles.anchor, StateFiles.load, h]

/-- Until it is done, an update leaves the file as it is. -/
theorem updateNext_path (h : updateNext field i f raises pc = some (f', o))
    (hdone : o ≠ .running (.release true)) : f'.path = f.path := by
  cases pc with
  | acquire => rw [(updateNext_outside h rfl).2.1]
  | replace =>
      simp only [updateNext] at h
      split at h <;> cases h
      · exact absurd rfl hdone
      · rfl
  | openTemp | write => cases raises <;> cases h <;> rfl
  | load | mkdir | release => cases h; rfl

/-- An update none of whose calls fails does not raise. -/
theorem updateNext_succeeds (h : updateNext field i f false pc = some (f', o))
    (hat : UpdateAt field f pc) (hpc : pc ≠ .release false) :
    o ≠ .raised ∧ o ≠ .running (.release false) := by
  cases pc with
  | acquire =>
      rw [(updateNext_outside h rfl).2.2]
      simp
  | replace =>
      have htmp : f.tmp = some (.whole (f.load.update field)) := hat
      simp only [updateNext, htmp] at h
      cases h
      simp
  | release ok =>
      cases ok with
      | true =>
          cases h
          simp
      | false => exact absurd rfl hpc
  | load | mkdir | openTemp | write =>
      cases h
      simp

/-- What an update knows depends on the two files only. -/
theorem UpdateAt.files (h : UpdateAt field f pc) (hpath : f'.path = f.path)
    (htmp : f'.tmp = f.tmp) : UpdateAt field f' pc := by
  have hload : f'.load = f.load := by simp only [StateFiles.load, hpath]
  cases pc with
  | acquire | load => trivial
  | release ok =>
      cases ok with
      | false => trivial
      | true =>
          simp only [UpdateAt, hload]
          exact h
  | mkdir | openTemp | write | replace =>
      simp only [UpdateAt, hload, htmp]
      exact h

end Update

end Babycat.Recorder
