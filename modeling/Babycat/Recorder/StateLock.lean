/-
  Babycat.Recorder.StateLock

  The lock of the state file, for any program whose threads call `update`.

  `UsesStateFile P files updating raises` says which threads of `P` are inside a
  call of `update`, that their steps are those of `updateNext`, and that nobody
  else touches the two files.  Then `_lock` is held exactly inside the calls,
  and a call knows that the file is still what it has loaded.
-/

import Babycat.Conc.Mutex
import Babycat.Recorder.StateFile

namespace Babycat.Recorder

open Babycat.Conc

universe u

variable {σ τ ρ κ ε : Type u}

/-- The update of the thread after an outcome of its step. -/
def UpdateOutcome.updating (field : SavedField) : UpdateOutcome → Option (SavedField × UpdatePc)
  | .running pc => some (field, pc)
  | _ => none

/-- The threads of `P` change the state file by `update` only. -/
structure UsesStateFile (P : Prog σ τ ρ κ ε) (files : σ → StateFiles)
    (updating : τ → Option (SavedField × UpdatePc)) (raises : κ → Bool) : Prop where
  enter : ∀ r field pc, updating (P.enter r) = some (field, pc) → pc = .acquire
  moves : ∀ {i s t k s' t' field pc}, P.next i s t k = some (s', t') →
    updating t = some (field, pc) →
    ∃ o, updateNext field i (files s) (raises k) pc = some (files s', o) ∧
      updating t' = o.updating field
  keeps : ∀ {i s t k s' t'}, P.next i s t k = some (s', t') → updating t = none →
    files s' = files s ∧ ∀ field pc, updating t' = some (field, pc) → pc = .acquire
  env : ∀ {s x s'}, P.env s x = some s' → files s' = files s

/-- The thread is inside a call that has taken the lock. -/
def insideCall (updating : τ → Option (SavedField × UpdatePc)) (t : τ) : Bool :=
  match updating t with
  | some (_, pc) => pc.inside
  | none => false

/-- What a thread knows about the files inside its call. -/
def CallKnows (files : σ → StateFiles) (updating : τ → Option (SavedField × UpdatePc)) (_ : ℕ)
    (s : σ) (t : τ) : Prop :=
  ∀ field pc, updating t = some (field, pc) → UpdateAt field (files s) pc

section Calls

variable {updating : τ → Option (SavedField × UpdatePc)} {t : τ}

theorem insideCall_some {field : SavedField} {pc : UpdatePc} (h : updating t = some (field, pc)) :
    insideCall updating t = pc.inside := by
  rw [insideCall, h]

theorem insideCall_none (h : updating t = none) : insideCall updating t = false := by
  rw [insideCall, h]

/-- A thread that is at most at the beginning of a call is outside. -/
theorem insideCall_acquire (h : ∀ field pc, updating t = some (field, pc) → pc = .acquire) :
    insideCall updating t = false := by
  cases hu : updating t with
  | none => exact insideCall_none hu
  | some u =>
      rw [insideCall_some hu, h u.1 u.2 hu]
      rfl

end Calls

namespace UsesStateFile

variable {P : Prog σ τ ρ κ ε} {files : σ → StateFiles}
variable {updating : τ → Option (SavedField × UpdatePc)} {raises : κ → Bool}

/-- `_lock` is held exactly inside a call. -/
theorem mutex (hP : UsesStateFile P files updating raises) :
    Mutex P (fun s => (files s).lock) (insideCall updating) where
  enter r := insideCall_acquire (hP.enter r)
  outside {i s t k s' t'} hn hout := by
    cases hu : updating t with
    | none =>
        obtain ⟨hfiles, hnew⟩ := hP.keeps hn hu
        exact .inl ⟨by rw [hfiles], insideCall_acquire hnew⟩
    | some u =>
        obtain ⟨field, pc⟩ := u
        obtain ⟨o, ho, hu'⟩ := hP.moves hn hu
        obtain ⟨hfree, hfiles, rfl⟩ := updateNext_outside ho (insideCall_some hu ▸ hout)
        exact .inr ⟨hfree, by rw [hfiles], insideCall_some hu'⟩
  within {i s t k s' t'} hn hin := by
    cases hu : updating t with
    | none =>
        rw [insideCall_none hu] at hin
        cases hin
    | some u =>
        obtain ⟨field, pc⟩ := u
        obtain ⟨o, ho, hu'⟩ := hP.moves hn hu
        rcases updateNext_within ho (insideCall_some hu ▸ hin) with
          ⟨pc', rfl, hpc', hlock⟩ | ⟨hover, hfiles⟩
        · exact .inl ⟨hlock, (insideCall_some hu').trans hpc'⟩
        · refine .inr ⟨by rw [hfiles], ?_⟩
          rcases hover with rfl | rfl <;> exact insideCall_none hu'
  env hx := by rw [hP.env hx]

/-- The proof outline of the state file. -/
theorem outline (hP : UsesStateFile P files updating raises)
    (G : Conf σ τ → Event ρ κ ε → Prop) :
    OwickiGries P G (fun _ => True)
      (Mutex.Holds (fun s => (files s).lock) (insideCall updating) (CallKnows files updating)) := by
  refine hP.mutex.owickiGries
    (Q := fun s s' => (files s').path = (files s).path ∧ (files s').tmp = (files s).tmp)
    ?_ ?_ ?_ (fun _ _ _ _ => trivial) ?_
  · intro c x s' _ hx
    rw [hP.env hx]
    exact ⟨rfl, rfl⟩
  · intro c i k t s' t' _ _ _ hn hout
    cases hu : updating t with
    | none =>
        obtain ⟨hfiles, hnew⟩ := hP.keeps hn hu
        refine ⟨by rw [hfiles]; exact ⟨rfl, rfl⟩, fun _ field pc hu' => ?_⟩
        rw [hnew field pc hu']
        trivial
    | some u =>
        obtain ⟨field, pc⟩ := u
        obtain ⟨o, ho, hu'⟩ := hP.moves hn hu
        obtain ⟨-, hfiles, rfl⟩ := updateNext_outside ho (insideCall_some hu ▸ hout)
        refine ⟨by rw [hfiles]; exact ⟨rfl, rfl⟩, fun _ field' pc' hu'' => ?_⟩
        rw [hu', UpdateOutcome.updating] at hu''
        cases hu''
        trivial
  · intro c i k t s' t' _ hB _ _ hn hin
    refine ⟨trivial, fun _ field pc' hu'' => ?_⟩
    cases hu : updating t with
    | none =>
        rw [insideCall_none hu] at hin
        cases hin
    | some u =>
        obtain ⟨field₀, pc⟩ := u
        obtain ⟨o, ho, hu'⟩ := hP.moves hn hu
        have hnext := (updateNext_load ho (hB field₀ pc hu)).2
        rw [hu'] at hu''
        cases o with
        | running pc₁ =>
            cases hu''
            exact hnext _ rfl
        | returned | raised => cases hu''
  · intro i s s' t hq _ _ hB field pc hu
    exact (hB field pc hu).files hq.1 hq.2

/-- Every thread knows what it has to about the files. -/
theorem known {c : Conf σ τ}
    (h : Annotated (fun _ => True) (Mutex.Holds (fun s => (files s).lock) (insideCall updating)
      (CallKnows files updating)) c) {i : ℕ} {t : τ} (ht : c.pool[i]? = some t) :
    CallKnows files updating i c.shared t := by
  intro field pc hu
  cases hin : insideCall updating t with
  | true => exact (h.2 i t ht hin).2 field pc hu
  | false =>
      rw [insideCall_some hu] at hin
      cases pc with
      | acquire => trivial
      | _ => cases hin

end UsesStateFile

end Babycat.Recorder
