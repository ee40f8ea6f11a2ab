/-
  Babycat.Recorder.StateCrash

  What the state file holds after crashes (`state_store.py`, FR-014).

  A crash ends every thread at whatever step it is and leaves the files as they
  are; the temp file may stay behind.  `UpdateRun` keeps, latest first, the
  updates that were completed and those that a crash found inside `_lock`, and
  `possibleValues` is what the record allows a field to be: the value of its
  last completed update, or of one that was interrupted since.
-/

import Babycat.Recorder.Cooldown

namespace Babycat.Recorder

open Babycat.Conc

universe u

-- ============================================================================
-- Fields and records
-- ============================================================================

inductive SavedKey
  | bufferActive
  | lastEventAcceptedAt
  deriving DecidableEq

def SavedField.key : SavedField → SavedKey
  | .bufferActive _ => .bufferActive
  | .lastEventAcceptedAt _ => .lastEventAcceptedAt

/-- The field of the mapping, if it is there. -/
def SavedState.get (state : SavedState) : SavedKey → Option SavedField
  | .bufferActive => state.bufferActive.map .bufferActive
  | .lastEventAcceptedAt => state.lastEventAcceptedAt.map .lastEventAcceptedAt

theorem SavedState.get_update (state : SavedState) (field : SavedField) (key : SavedKey) :
    (state.update field).get key = if field.key = key then some field else state.get key := by
  cases field <;> cases key <;> rfl

/-- How an update ended. -/
inductive UpdateRecord
  | completed (field : SavedField)
  | interrupted (field : SavedField)
  deriving DecidableEq

/-- The values that the record allows the field to have. -/
def possibleValues (initial : SavedState) (key : SavedKey) :
    List UpdateRecord → List (Option SavedField)
  | [] => [initial.get key]
  | .completed field :: earlier =>
      if field.key = key then [some field] else possibleValues initial key earlier
  | .interrupted field :: earlier =>
      if field.key = key then some field :: possibleValues initial key earlier
      else possibleValues initial key earlier

section Records

variable {initial : SavedState} {key : SavedKey} {field : SavedField} {log : List UpdateRecord}
variable {v : Option SavedField}

theorem possibleValues_completed :
    possibleValues initial key (.completed field :: log) =
      if field.key = key then [some field] else possibleValues initial key log := rfl

theorem possibleValues_interrupted :
    possibleValues initial key (.interrupted field :: log) =
      if field.key = key then some field :: possibleValues initial key log
      else possibleValues initial key log := rfl

theorem possible_completed (h : field.key = key) :
    some field ∈ possibleValues initial key (.completed field :: log) := by
  rw [possibleValues_completed, if_pos h]
  exact List.mem_singleton_self _

theorem possible_completed_other (h : field.key ≠ key) (hv : v ∈ possibleValues initial key log) :
    v ∈ possibleValues initial key (.completed field :: log) := by
  rw [possibleValues_completed, if_neg h]
  exact hv

theorem possible_interrupted (h : field.key = key) :
    some field ∈ possibleValues initial key (.interrupted field :: log) := by
  rw [possibleValues_interrupted, if_pos h]
  exact List.mem_cons_self

/-- An interrupted update may have done nothing. -/
theorem possible_before (hv : v ∈ possibleValues initial key log) :
    v ∈ possibleValues initial key (.interrupted field :: log) := by
  rw [possibleValues_interrupted]
  split
  · exact List.mem_cons_of_mem _ hv
  · exact hv

end Records

/-! ## The step that replaces the file -/

section Replace

variable {field : SavedField} {i : ℕ} {f f' : StateFiles} {raises : Bool} {pc : UpdatePc}
variable {o : UpdateOutcome}

/-- What the replace leaves is whole and has the field merged in. -/
theorem updateNext_replaced
    (h : updateNext field i f raises pc = some (f', .running (.release true)))
    (hat : UpdateAt field f pc) :
    f'.load = f.load.update field ∧ f'.path ≠ some .torn := by
  cases pc with
  | replace =>
    have htmp : f.tmp = some (.whole (f.load.update field)) := hat
    simp only [updateNext, htmp] at h
    cases raises with
    | true => cases h
    | false =>
      cases h
      exact ⟨rfl, by simp⟩
  | acquire => exact absurd (updateNext_outside h rfl).2.2 (by simp)
  | load | mkdir | openTemp | write => cases raises <;> cases h
  | release ok => cases ok <;> cases h

theorem updateNext_whole (h : updateNext field i f raises pc = some (f', o))
    (hat : UpdateAt field f pc) (hw : f.path ≠ some .torn) : f'.path ≠ some .torn := by
  by_cases hdone : o = .running (.release true)
  · rw [hdone] at h
    exact (updateNext_replaced h hat).2
  · rw [updateNext_path h hdone]
    exact hw

theorem StateFiles.load_of_path (h : f'.path = f.path) : f'.load = f.load := by
  simp only [StateFiles.load, h]

end Replace

-- ============================================================================
-- Runs with their record
-- ============================================================================

section Runs

variable {σ τ ρ κ ε : Type u} {P : Prog σ τ ρ κ ε} {files : σ → StateFiles}
variable {updating : τ → Option (SavedField × UpdatePc)} {raises : κ → Bool}

/-- The update that is completed in a step: its thread gives back the lock after the replace. -/
def completes (updating : τ → Option (SavedField × UpdatePc)) (c : Conf σ τ) :
    Event ρ κ ε → List UpdateRecord
  | .sched i _ =>
      match c.pool[i]?.bind updating with
      | some (field, .release true) => [.completed field]
      | _ => []
  | _ => []

/-- The update that holds `_lock`. -/
def inProgress (files : σ → StateFiles) (updating : τ → Option (SavedField × UpdatePc))
    (c : Conf σ τ) : List UpdateRecord :=
  match (files c.shared).lock with
  | some i =>
      match c.pool[i]?.bind updating with
      | some (field, _) => [.interrupted field]
      | none => []
  | none => []

/-- The runs from `c₀` over any number of crashes, with the record of the updates; `boots` says
    what a crash and the next start leave. -/
inductive UpdateRun (P : Prog σ τ ρ κ ε) (files : σ → StateFiles)
    (updating : τ → Option (SavedField × UpdatePc)) (boots : σ → σ → Prop) (c₀ : Conf σ τ) :
    List UpdateRecord → Conf σ τ → Prop
  | start : UpdateRun P files updating boots c₀ [] c₀
  | step {log c e c'} : UpdateRun P files updating boots c₀ log c → P.step c e = some c' →
      UpdateRun P files updating boots c₀ (completes updating c e ++ log) c'
  | crash {log c s} : UpdateRun P files updating boots c₀ log c → boots c.shared s →
      UpdateRun P files updating boots c₀ (inProgress files updating c ++ log) ⟨s, []⟩

/-- A field is as the record says, or an update that has replaced the file has set it. -/
def Accounted (files : σ → StateFiles) (updating : τ → Option (SavedField × UpdatePc))
    (initial : SavedState) (key : SavedKey) (log : List UpdateRecord) (c : Conf σ τ) : Prop :=
  (files c.shared).load.get key ∈ possibleValues initial key log ∨
  ∃ (i : ℕ) (t : τ) (field : SavedField), c.pool[i]? = some t ∧
    updating t = some (field, .release true) ∧ field.key = key ∧ (files c.shared).load.get key = some field

/-- What is known at each step of a run. -/
structure SavedInv (files : σ → StateFiles) (updating : τ → Option (SavedField × UpdatePc))
    (initial : SavedState) (log : List UpdateRecord) (c : Conf σ τ) : Prop where
  held : Annotated (fun _ => True)
    (Mutex.Holds (fun s => (files s).lock) (insideCall updating) (CallKnows files updating)) c
  accounted : ∀ key, Accounted files updating initial key log c

section Step

variable {initial : SavedState} {key : SavedKey} {log : List UpdateRecord} {c : Conf σ τ}
variable {i : ℕ} {t t' : τ} {s : σ} {k : κ}

/-- A step that leaves the file and the record keeps the account. -/
theorem Accounted.keep (h : Accounted files updating initial key log c)
    (hload : (files s).load = (files c.shared).load) (ht : c.pool[i]? = some t)
    (hnot : ∀ field, updating t ≠ some (field, .release true)) :
    Accounted files updating initial key log ⟨s, c.pool.set i t'⟩ := by
  rcases h with hin | ⟨j, v, field, hj, hu, hkey, hval⟩
  · exact .inl (hload ▸ hin)
  · have hij : i ≠ j := by
      rintro rfl
      rw [ht] at hj
      cases hj
      exact hnot field hu
    refine .inr ⟨j, v, field, ?_, hu, hkey, hload ▸ hval⟩
    rw [getElem?_set_of_get ht, if_neg hij]
    exact hj

/-- An update that returns is the last one of its field. -/
theorem Accounted.complete {field : SavedField} (h : Accounted files updating initial key log c)
    (hload : (files s).load = (files c.shared).load) (ht : c.pool[i]? = some t)
    (hu : updating t = some (field, .release true))
    (hat : UpdateAt field (files c.shared) (.release true)) :
    Accounted files updating initial key (.completed field :: log) ⟨s, c.pool.set i t'⟩ := by
  by_cases hkey : field.key = key
  · left
    have hset : (files c.shared).load.get key = some field := by
      rw [← show (files c.shared).load.update field = (files c.shared).load from hat,
        SavedState.get_update, if_pos hkey]
    rw [show (files (Conf.mk s (c.pool.set i t')).shared).load = _ from hload, hset]
    exact possible_completed hkey
  · rcases h with hin | ⟨j, v, other, hj, hu', hkey', hval⟩
    · exact .inl (hload ▸ possible_completed_other hkey hin)
    · have hij : i ≠ j := by
        rintro rfl
        rw [ht] at hj
        cases hj
        rw [hu] at hu'
        cases hu'
        exact hkey hkey'
      refine .inr ⟨j, v, other, ?_, hu', hkey', hload ▸ hval⟩
      rw [getElem?_set_of_get ht, if_neg hij]
      exact hj

/-- The replace of an update sets its field and keeps the others. -/
theorem Accounted.replace {field : SavedField} (h : Accounted files updating initial key log c)
    (hload : (files s).load = (files c.shared).load.update field) (ht : c.pool[i]? = some t)
    (hnot : ∀ field, updating t ≠ some (field, .release true))
    (hu' : updating t' = some (field, .release true)) :
    Accounted files updating initial key log ⟨s, c.pool.set i t'⟩ := by
  have hget : (files s).load.get key =
      if field.key = key then some field else (files c.shared).load.get key := by
    rw [hload, SavedState.get_update]
  by_cases hkey : field.key = key
  · rw [if_pos hkey] at hget
    exact .inr ⟨i, t', field, by rw [getElem?_set_of_get ht, if_pos rfl], hu', hkey, hget⟩
  · rw [if_neg hkey] at hget
    rcases h with hin | ⟨j, v, other, hj, hu, hkey', hval⟩
    · exact .inl (show (files s).load.get key ∈ _ from hget ▸ hin)
    · have hij : i ≠ j := by
        rintro rfl
        rw [ht] at hj
        cases hj
        exact hnot other hu
      refine .inr ⟨j, v, other, ?_, hu, hkey', hget.trans hval⟩
      rw [getElem?_set_of_get ht, if_neg hij]
      exact hj

/-- Every step of a thread keeps the account of its update. -/
theorem Accounted.sched (h : Accounted files updating initial key log c)
    (hP : UsesStateFile P files updating raises) (hknow : CallKnows files updating i c.shared t)
    (ht : c.pool[i]? = some t) (hn : P.next i c.shared t k = some (s, t')) :
    Accounted files updating initial key
      (completes updating c (.sched i k : Event ρ κ ε) ++ log) ⟨s, c.pool.set i t'⟩ := by
  simp only [completes, ht, Option.bind_some]
  cases hu : updating t with
  | none =>
    refine h.keep ?_ ht fun field => ?_
    · rw [(hP.keeps hn hu).1]
    · rw [hu]
      exact fun heq => by cases heq
  | some u =>
    obtain ⟨field, pc⟩ := u
    obtain ⟨o, ho, hu'⟩ := hP.moves hn hu
    have hat := hknow field pc hu
    by_cases hrel : pc = .release true
    · subst hrel
      obtain ⟨hfiles, -⟩ := Prod.mk.inj (Option.some.inj ho)
      exact h.complete (by rw [← hfiles]; rfl) ht hu hat
    · have hnot : ∀ other, updating t ≠ some (other, .release true) := by
        intro other heq
        rw [hu] at heq
        cases heq
        exact hrel rfl
      have hlog : (match (some (field, pc) : Option (SavedField × UpdatePc)) with
          | some (field, .release true) => [UpdateRecord.completed field]
          | _ => []) = [] := by
        split
        · rename_i heq
          cases heq
          exact absurd rfl hrel
        · rfl
      rw [hlog, List.nil_append]
      by_cases hdone : o = .running (.release true)
      · subst hdone
        exact h.replace (updateNext_replaced ho hat).1 ht hnot hu'
      · exact h.keep (StateFiles.load_of_path (updateNext_path ho hdone)) ht hnot

end Step

/-- The update that has replaced the file is the one in progress. -/
theorem SavedInv.values {initial : SavedState} {log : List UpdateRecord} {c : Conf σ τ}
    (h : SavedInv files updating initial log c) (key : SavedKey) :
    (files c.shared).load.get key ∈
      possibleValues initial key (inProgress files updating c ++ log) := by
  rcases h.accounted key with hin | ⟨i, t, field, ht, hu, hkey, hval⟩
  · rw [inProgress]
    split
    · split
      · exact possible_before hin
      · exact hin
    · exact hin
  · have hlock := (h.held.2 i t ht (insideCall_some hu)).1
    have hprog : inProgress files updating c = [.interrupted field] := by
      simp [inProgress, hlock, ht, hu]
    rw [hprog, hval]
    exact possible_interrupted hkey

section Invariant

variable {initial : SavedState} {log : List UpdateRecord} {c c' : Conf σ τ} {e : Event ρ κ ε}

theorem SavedInv.start (hc : c.pool = []) :
    SavedInv files updating (files c.shared).load [] c := by
  refine ⟨⟨trivial, fun i t ht => ?_⟩, fun key => .inl (List.mem_singleton_self _)⟩
  rw [hc] at ht
  cases ht

theorem SavedInv.step (h : SavedInv files updating initial log c)
    (hP : UsesStateFile P files updating raises) (hs : P.step c e = some c') :
    SavedInv files updating initial (completes updating c e ++ log) c' := by
  have hheld := (hP.outline free).step c e c' h.held trivial hs
  refine ⟨hheld, fun key => ?_⟩
  rcases Prog.step_cases hs with ⟨r, rfl, rfl⟩ | ⟨i, k, t, s, t', rfl, ht, hn, rfl⟩ |
      ⟨x, s, rfl, hx, rfl⟩
  · rcases h.accounted key with hin | ⟨i, t, field, ht, hrest⟩
    · exact .inl hin
    · refine .inr ⟨i, t, field, ?_, hrest⟩
      rw [List.getElem?_append_left (List.getElem?_eq_some_iff.mp ht).1]
      exact ht
  · exact (h.accounted key).sched hP (UsesStateFile.known h.held ht) ht hn
  · have hacc := h.accounted key
    simp only [Accounted, hP.env hx] at hacc ⊢
    exact hacc

/-- No step leaves a torn file. -/
theorem SavedInv.step_whole (h : SavedInv files updating initial log c)
    (hP : UsesStateFile P files updating raises) (hs : P.step c e = some c')
    (hwhole : (files c.shared).path ≠ some .torn) : (files c'.shared).path ≠ some .torn := by
  rcases Prog.step_cases hs with ⟨r, rfl, rfl⟩ | ⟨i, k, t, s, t', rfl, ht, hn, rfl⟩ |
      ⟨x, s, rfl, hx, rfl⟩
  · exact hwhole
  · cases hu : updating t with
    | none =>
      show (files s).path ≠ _
      rw [(hP.keeps hn hu).1]
      exact hwhole
    | some u =>
      obtain ⟨o, ho, -⟩ := hP.moves hn hu
      exact updateNext_whole ho (UsesStateFile.known h.held ht u.1 u.2 hu) hwhole
  · show (files s).path ≠ _
    rw [hP.env hx]
    exact hwhole

/-- A crash makes the update in progress one that may have been made. -/
theorem SavedInv.crash {s : σ} (h : SavedInv files updating initial log c)
    (hpath : (files s).path = (files c.shared).path) :
    SavedInv files updating initial (inProgress files updating c ++ log) ⟨s, []⟩ := by
  refine ⟨⟨trivial, fun i t ht => by cases ht⟩, fun key => .inl ?_⟩
  show (files s).load.get key ∈ _
  rw [StateFiles.load_of_path hpath]
  exact h.values key

end Invariant

/-- What holds at the start holds along the run, and the file is never torn. -/
theorem UpdateRun.saved {boots : σ → σ → Prop} {c₀ c : Conf σ τ} {log : List UpdateRecord}
    (h : UpdateRun P files updating boots c₀ log c) (hP : UsesStateFile P files updating raises)
    (hboots : ∀ s s', boots s s' → (files s').path = (files s).path) (hc₀ : c₀.pool = []) :
    SavedInv files updating (files c₀.shared).load log c ∧
    ((files c₀.shared).path ≠ some .torn → (files c.shared).path ≠ some .torn) := by
  induction h with
  | start => exact ⟨SavedInv.start hc₀, id⟩
  | step _ hs ih =>
    obtain ⟨hinv, hwhole⟩ := ih
    exact ⟨hinv.step hP hs, fun h0 => hinv.step_whole hP hs (hwhole h0)⟩
  | @crash log c s _ hb ih =>
    obtain ⟨hinv, hwhole⟩ := ih
    refine ⟨hinv.crash (hboots _ _ hb), fun h0 => ?_⟩
    show (files s).path ≠ _
    rw [hboots _ _ hb]
    exact hwhole h0

end Runs

-- ============================================================================
-- The recorder
-- ============================================================================

/-- A start after a crash: the sweep of `lifespan` may not have come to the temp file. -/
def Process.restarts (s s' : Process) : Prop :=
  s' = s.boot ∨ s' = { s.boot with files := { s.boot.files with tmp := s.files.tmp } }

/-- The runs of the recorder, with the updates of the buffer endpoints and of the gate in any
    order, over any number of crashes. -/
def RecorderUpdates (cfg : RecorderConfig) (files : StateFiles) (store : Store) :
    List UpdateRecord → Conf Process RecorderThread → Prop :=
  UpdateRun (recorder cfg) Process.files RecorderThread.updating Process.restarts
    (recorderStart files store)

/-- The state file over crashes: every load finds each field as its last completed update left it,
    or as the one update in progress has set it, or, after a crash, one that was in progress then.
    The file is never torn, and a temp file that stays behind makes no difference. -/
theorem state_file_crash (cfg : RecorderConfig) (files : StateFiles) (store : Store)
    (log : List UpdateRecord) (c : Conf Process RecorderThread)
    (hrun : RecorderUpdates cfg files store log c) :
    (∀ key, c.shared.files.load.get key ∈ possibleValues files.load key
      (inProgress Process.files RecorderThread.updating c ++ log)) ∧
    (files.path ≠ some .torn → c.shared.files.path ≠ some .torn) ∧
    ∀ s, c.shared.restarts s → s.files.load = c.shared.files.load := by
  have hboots : ∀ s s', Process.restarts s s' → s'.files.path = s.files.path := by
    rintro s s' (rfl | rfl) <;> rfl
  obtain ⟨hinv, hwhole⟩ := hrun.saved (recorder_usesStateFile cfg) hboots rfl
  exact ⟨hinv.values, hwhole, fun s hs => StateFiles.load_of_path (hboots _ _ hs)⟩

/-- A state file that says that the buffer is off. -/
def savedOff : StateFiles := ⟨some (.whole ⟨some false, none⟩), none, none⟩

/-- An update is killed between the open and the write of the temp file; the torn temp file is
    still there when the state is loaded. -/
theorem state_file_crash_torn :
    ∃ c, RecorderUpdates sampleRecorder savedOff freshRecorder.shared.store
        [.interrupted (.bufferActive true)] c ∧
      c.shared.files.tmp = some .torn ∧
      c.shared.files.load.get .bufferActive ∈
        [some (.bufferActive true), some (.bufferActive false)] := by
  have h0 : RecorderUpdates sampleRecorder savedOff freshRecorder.shared.store [] _ := .start
  have h1 := h0.step (e := .enter (.buffer true)) rfl
  have h2 := h1.step (e := .sched 0 (.io .go)) rfl
  have h3 := h2.step (e := .sched 0 (.io .go)) rfl
  have h4 := h3.step (e := .sched 0 (.io .go)) rfl
  have h5 := h4.step (e := .sched 0 (.io .go)) rfl
  have hrun : RecorderUpdates sampleRecorder savedOff freshRecorder.shared.store
      [.interrupted (.bufferActive true)] _ := h5.crash (.inr rfl)
  exact ⟨_, hrun, rfl, (state_file_crash _ _ _ _ _ hrun).1 .bufferActive⟩

end Babycat.Recorder
