/-
  Babycat.Recorder.Gate

  The two locks of the recorder process: `_lock` of the state file, inside
  which an update knows that the file is still what it has loaded, and
  `_trigger_lock` of the gate.  The lemmas here say once what a step of a
  thread does to the files, to the gate and to the record of the gate.
-/

import Babycat.Recorder.Process
import Babycat.Recorder.StateLock

namespace Babycat.Recorder

open Babycat.Conc

section Steps

variable {cfg : RecorderConfig} {i : ℕ} {s s' : Process} {k : RecorderChoice}
variable {t t' : RecorderThread}

/-! ## The state file -/

/-- The update that a thread is in. -/
def RecorderThread.updating : RecorderThread → Option (SavedField × UpdatePc)
  | .notify _ (.update t pc) => some (.lastEventAcceptedAt t, pc)
  | .buffer active (some pc) => some (.bufferActive active, pc)
  | _ => none

/-- A step of an update moves the files on. -/
theorem next_updating {field : SavedField} {pc : UpdatePc} (hu : t.updating = some (field, pc))
    (h : recorderNext cfg i s t k = some (s', t')) :
    ∃ o, updateNext field i s.files (k = .io .raise) pc = some (s'.files, o) ∧
      t'.updating = o.updating field := by
  cases t with
  | notify p npc =>
      cases npc with
      | update time upc =>
          cases hu
          obtain ⟨⟨f, o⟩, ho, heq⟩ := Option.map_eq_some_iff.mp h
          cases heq
          exact ⟨o, ho, by cases o <;> rfl⟩
      | _ => cases hu
  | buffer active bpc =>
      cases bpc with
      | none => cases hu
      | some upc =>
          cases hu
          obtain ⟨⟨f, o⟩, ho, heq⟩ := Option.map_eq_some_iff.mp h
          cases heq
          exact ⟨o, ho, by cases o <;> rfl⟩
  | worker | deleteClips | deleteAllClips => cases hu

theorem map_time_modify {l : List Accepted} {n : ℕ} {f : Accepted → Accepted}
    (hf : ∀ a, (f a).time = a.time) :
    (l.modify n f).map Accepted.time = l.map Accepted.time := by
  refine List.ext_getElem? fun j => ?_
  simp only [List.getElem?_map, List.getElem?_modify]
  by_cases hj : n = j
  · cases l[j]? <;> simp [hj, hf]
  · simp [hj]

/-- A note changes neither the time nor the rows. -/
theorem Accepted.note_same (a : Accepted) (s : Store) (name : String) (raises : Bool)
    (pc : EventPc) :
    (a.note s name raises pc).time = a.time ∧ (a.note s name raises pc).rows = a.rows := by
  simp only [Accepted.note]
  split
  · split <;> exact ⟨rfl, rfl⟩
  · split <;> exact ⟨rfl, rfl⟩
  · exact ⟨rfl, rfl⟩
  · exact ⟨rfl, rfl⟩
  · exact ⟨rfl, rfl⟩

/-- A worker's step touches the clip tree and the record of its event only. -/
theorem workerNext_frame {n : ℕ} {p : Payload} {pc pc' : WorkerPc}
    (h : workerNext cfg n p s k pc = some (s', pc')) :
    s'.lastSave = s.lastSave ∧ s'.triggerLock = s.triggerLock ∧ s'.files = s.files ∧
      s'.suppressed = s.suppressed ∧
      s'.accepted.map Accepted.time = s.accepted.map Accepted.time := by
  cases pc with
  | keywords =>
      cases h
      exact ⟨rfl, rfl, rfl, rfl, rfl⟩
  | eventTime keywords =>
      obtain ⟨x, -, heq⟩ := Option.map_eq_some_iff.mp h
      cases heq
      exact ⟨rfl, rfl, rfl, rfl, map_time_modify fun a => rfl⟩
  | event e epc =>
      cases epc with
      | capture mode cpc =>
          cases k with
          | io c =>
              obtain ⟨r, -, heq⟩ := Option.map_eq_some_iff.mp h
              cases heq
              exact ⟨rfl, rfl, rfl, rfl, map_time_modify fun a => (a.note_same _ _ _ _).1⟩
          | fail =>
              cases h
              exact ⟨rfl, rfl, rfl, rfl, map_time_modify fun a => by split <;> rfl⟩
          | clock now => cases h
      | insert clipName =>
          simp only [workerNext] at h
          split at h <;> cases h
          · exact ⟨rfl, rfl, rfl, rfl, map_time_modify fun a => rfl⟩
          · exact ⟨rfl, rfl, rfl, rfl, rfl⟩
      | done => cases h
  | dead => cases h

/-- A thread that is in no update leaves the files as they are, and is at most at the beginning of
    one. -/
theorem next_no_update (hu : t.updating = none)
    (h : recorderNext cfg i s t k = some (s', t')) :
    s'.files = s.files ∧ ∀ field pc, t'.updating = some (field, pc) → pc = .acquire := by
  cases t with
  | notify p npc =>
      cases npc with
      | eventTime =>
          obtain ⟨x, -, heq⟩ := Option.map_eq_some_iff.mp h
          split at heq <;> cases heq <;> exact ⟨rfl, fun _ _ hu' => by cases hu'⟩
      | acquire time =>
          simp only [recorderNext, notifyNext] at h
          split at h <;> cases h
          exact ⟨rfl, fun _ _ hu' => by cases hu'⟩
      | check time =>
          simp only [recorderNext, notifyNext] at h
          split at h <;> cases h <;> exact ⟨rfl, fun _ _ hu' => by cases hu'⟩
      | move time =>
          cases h
          exact ⟨rfl, fun _ _ hu' => by cases hu'; rfl⟩
      | update time upc => cases hu
      | release time o =>
          cases o <;> cases h <;> exact ⟨rfl, fun _ _ hu' => by cases hu'⟩
      | start n =>
          cases h
          exact ⟨rfl, fun _ _ hu' => by split at hu' <;> cases hu'⟩
      | answered o => cases h
  | worker n p pc =>
      obtain ⟨⟨a, pc'⟩, ha, heq⟩ := Option.map_eq_some_iff.mp h
      cases heq
      exact ⟨(workerNext_frame ha).2.2.1, fun _ _ hu' => by cases hu'⟩
  | buffer active bpc =>
      cases bpc with
      | none => cases h
      | some upc => cases hu
  | deleteClips n pc | deleteAllClips n pc =>
      cases k with
      | io c =>
          obtain ⟨r, -, heq⟩ := Option.map_eq_some_iff.mp h
          cases heq
          exact ⟨rfl, fun _ _ hu' => by cases hu'⟩
      | _ => cases h

def RecorderThread.insideUpdate (t : RecorderThread) : Bool :=
  match t.updating with
  | some (_, pc) => pc.inside
  | none => false

/-- What the thread knows about the files inside its update. -/
def FileHeld (_ : ℕ) (s : Process) (t : RecorderThread) : Prop :=
  ∀ field pc, t.updating = some (field, pc) → UpdateAt field s.files pc

end Steps

theorem recorder_usesStateFile (cfg : RecorderConfig) :
    UsesStateFile (recorder cfg) Process.files RecorderThread.updating
      (fun k => k = .io .raise) where
  enter r field pc hu := by
    cases r with
    | buffer active =>
        cases hu
        rfl
    | _ => cases hu
  moves hn hu := next_updating hu hn
  keeps hn hu := next_no_update hu hn
  env {s x s'} _ := nomatch x

/-- The proof outline of the state file. -/
theorem file_outline (cfg : RecorderConfig)
    (G : Conf Process RecorderThread → Event RecorderRequest RecorderChoice Empty → Prop) :
    OwickiGries (recorder cfg) G (fun _ => True)
      (Mutex.Holds (fun s => s.files.lock) RecorderThread.insideUpdate FileHeld) :=
  (recorder_usesStateFile cfg).outline G

/-- Every thread knows what it has to about the files. -/
def FilesKnown (c : Conf Process RecorderThread) : Prop :=
  ∀ i t, c.pool[i]? = some t → FileHeld i c.shared t

theorem filesKnown_of_held {c : Conf Process RecorderThread}
    (h : Annotated (fun _ => True)
      (Mutex.Holds (fun s => s.files.lock) RecorderThread.insideUpdate FileHeld) c) :
    FilesKnown c := by
  intro i t ht field pc hu
  cases hin : t.insideUpdate with
  | true => exact (h.2 i t ht hin).2 field pc hu
  | false =>
      have hpc : pc.inside = false := by simpa [RecorderThread.insideUpdate, hu] using hin
      cases pc with
      | acquire => trivial
      | _ => cases hpc

theorem filesKnown_of_run {cfg : RecorderConfig}
    {G : Conf Process RecorderThread → RecorderLife → Prop} {c c' : Conf Process RecorderThread}
    (h : Steps (recorderStep cfg) G c c') (hc : c.pool = []) : FilesKnown c' :=
  filesKnown_of_held (h.invariant ((file_outline cfg _).life fun _ _ _ => trivial)
    ⟨trivial, fun i t ht => by rw [hc] at ht; cases ht⟩)

/-! ## The record of the accepted events -/

/-- The event that the thread works on. -/
def RecorderThread.event : RecorderThread → Option ℕ
  | .notify _ (.start n) | .worker n _ _ => some n
  | _ => none

/-- What a step does to the record: it adds the event that the gate lets through, adds to the
    entry of the event that its thread works on, or leaves it. -/
inductive RecordStep (s : Process) (t : RecorderThread) (s' : Process) (t' : RecorderThread) : Prop
  | accept (p : Payload) (time : PyFloat) (ht : t = .notify p (.release time .accepted))
      (ht' : t' = .notify p (.start s.accepted.length))
      (hs : s'.accepted = s.accepted ++ [.fresh time])
  | note (n : ℕ) (f : Accepted → Accepted) (ht : t.event = some n) (ht' : t'.event = some n)
      (hf : ∀ a, (f a).time = a.time ∧ a.rows <+: (f a).rows)
      (hs : s'.accepted = s.accepted.modify n f)
  | keep (ht' : t'.event = t.event ∨ t'.event = none) (hs : s'.accepted = s.accepted)

section Record

variable {cfg : RecorderConfig} {i : ℕ} {s s' : Process} {k : RecorderChoice}
variable {t t' : RecorderThread}

theorem next_record (h : recorderNext cfg i s t k = some (s', t')) : RecordStep s t s' t' := by
  cases t with
  | notify p npc =>
      cases npc with
      | eventTime =>
          obtain ⟨x, -, heq⟩ := Option.map_eq_some_iff.mp h
          split at heq <;> cases heq <;> exact .keep (.inr rfl) rfl
      | acquire time | check time =>
          simp only [recorderNext, notifyNext] at h
          split at h <;> cases h <;> exact .keep (.inr rfl) rfl
      | move time =>
          cases h
          exact .keep (.inr rfl) rfl
      | update time upc =>
          obtain ⟨⟨f, o⟩, -, heq⟩ := Option.map_eq_some_iff.mp h
          cases heq
          exact .keep (.inr (by cases o <;> rfl)) rfl
      | release time o =>
          cases o with
          | accepted =>
              cases h
              exact .accept p time rfl rfl rfl
          | suppressed | failed =>
              cases h
              exact .keep (.inr rfl) rfl
      | start n =>
          simp only [recorderNext, notifyNext] at h
          split at h <;> cases h
          · exact .keep (.inr rfl) rfl
          · exact .keep (.inl rfl) rfl
      | answered o => cases h
  | worker n p pc =>
      obtain ⟨⟨a, pc'⟩, ha, heq⟩ := Option.map_eq_some_iff.mp h
      cases heq
      cases pc with
      | keywords =>
          cases ha
          exact .keep (.inl rfl) rfl
      | eventTime keywords =>
          obtain ⟨x, -, heq⟩ := Option.map_eq_some_iff.mp ha
          cases heq
          refine .note n _ rfl rfl ?_ rfl
          exact fun a => ⟨rfl, List.prefix_refl _⟩
      | event e epc =>
          cases epc with
          | capture mode cpc =>
              cases k with
              | io c =>
                  obtain ⟨r, -, heq⟩ := Option.map_eq_some_iff.mp ha
                  cases heq
                  refine .note n _ rfl rfl (fun a => ?_) rfl
                  obtain ⟨htime, hrows⟩ := a.note_same s.store (cfg.clips.clipBase e.eventTime)
                    (c = .raise) (.capture mode cpc)
                  exact ⟨htime, hrows ▸ List.prefix_refl _⟩
              | fail =>
                  cases ha
                  refine .note n _ rfl rfl (fun a => ?_) rfl
                  split <;> exact ⟨rfl, List.prefix_refl _⟩
              | clock now => cases ha
          | insert clipName =>
              simp only [workerNext] at ha
              split at ha <;> cases ha
              · refine .note n _ rfl rfl ?_ rfl
                exact fun a => ⟨rfl, List.prefix_append _ _⟩
              · exact .keep (.inl rfl) rfl
          | done => cases ha
      | dead => cases ha
  | buffer active bpc =>
      cases bpc with
      | none => cases h
      | some upc =>
          obtain ⟨r, -, heq⟩ := Option.map_eq_some_iff.mp h
          cases heq
          exact .keep (.inr rfl) rfl
  | deleteClips n pc | deleteAllClips n pc =>
      cases k with
      | io c =>
          obtain ⟨r, -, heq⟩ := Option.map_eq_some_iff.mp h
          cases heq
          exact .keep (.inr rfl) rfl
      | _ => cases h

/-- An entry stays, and its rows with it. -/
theorem RecordStep.get (h : RecordStep s t s' t') {n : ℕ} {a : Accepted}
    (ha : s.accepted[n]? = some a) :
    ∃ a', s'.accepted[n]? = some a' ∧ a'.time = a.time ∧ a.rows <+: a'.rows := by
  cases h with
  | accept p time ht ht' hs =>
      refine ⟨a, ?_, rfl, List.prefix_refl _⟩
      rw [hs, List.getElem?_append_left (List.getElem?_eq_some_iff.mp ha).1]
      exact ha
  | note m f ht ht' hf hs =>
      rw [hs, List.getElem?_modify, ha]
      by_cases hm : m = n
      · exact ⟨f a, by simp [hm], hf a⟩
      · exact ⟨a, by simp [hm], rfl, List.prefix_refl _⟩
  | keep ht' hs => exact ⟨a, by rw [hs]; exact ha, rfl, List.prefix_refl _⟩

/-- An entry is old, or that of the event which the gate lets through. -/
theorem RecordStep.lt (h : RecordStep s t s' t') {n : ℕ} (hn : n < s'.accepted.length) :
    n < s.accepted.length ∨ (n = s.accepted.length ∧ ∃ p time,
      t = .notify p (.release time .accepted) ∧ t' = .notify p (.start n)) := by
  cases h with
  | accept p time ht ht' hs =>
      rw [hs, List.length_append, List.length_singleton] at hn
      rcases Nat.lt_succ_iff_lt_or_eq.mp hn with hold | rfl
      · exact .inl hold
      · exact .inr ⟨rfl, p, time, ht, ht'⟩
  | note m f ht ht' hf hs =>
      rw [hs, List.length_modify] at hn
      exact .inl hn
  | keep ht' hs => exact .inl (hs ▸ hn)

end Record

/-! ## The gate -/

/-- The thread is inside `with _trigger_lock`. -/
def RecorderThread.insideGate : RecorderThread → Bool
  | .notify _ (.check _) | .notify _ (.move _) | .notify _ (.update _ _)
  | .notify _ (.release _ _) => true
  | _ => false

/-- The times of the accepted events, in order. -/
def Process.acceptedTimes (s : Process) : List PyFloat := s.accepted.map Accepted.time

theorem acceptedTimes_append {s s' : Process} {t : PyFloat}
    (h : s'.accepted = s.accepted ++ [.fresh t]) :
    s'.acceptedTimes = s.acceptedTimes ++ [t] := by
  simp only [Process.acceptedTimes, h, List.map_append, List.map_singleton, Accepted.fresh]

/-- What the decisions of the gate depend on is the same, the record of an accepted event
    apart. -/
structure GateSame (s s' : Process) : Prop where
  lastSave : s'.lastSave = s.lastSave
  suppressed : s'.suppressed = s.suppressed
  times : s'.acceptedTimes = s.acceptedTimes

section Gate

variable {cfg : RecorderConfig} {i : ℕ} {s s' : Process} {k : RecorderChoice}
variable {t t' : RecorderThread}

theorem GateSame.refl (s : Process) : GateSame s s := ⟨rfl, rfl, rfl⟩

/-- Outside the gate a thread leaves it as it is, or takes the lock. -/
theorem next_outside_gate (hout : t.insideGate = false)
    (h : recorderNext cfg i s t k = some (s', t')) :
    GateSame s s' ∧
      ((s'.triggerLock = s.triggerLock ∧ t'.insideGate = false) ∨
        (s.triggerLock = none ∧ s'.triggerLock = some i ∧
          ∃ p time, t = .notify p (.acquire time) ∧ t' = .notify p (.check time))) := by
  cases t with
  | notify p npc =>
      cases npc with
      | eventTime =>
          obtain ⟨x, -, heq⟩ := Option.map_eq_some_iff.mp h
          split at heq <;> cases heq <;> exact ⟨.refl s, .inl ⟨rfl, rfl⟩⟩
      | acquire time =>
          simp only [recorderNext, notifyNext] at h
          split at h
          · rename_i hfree
            cases h
            exact ⟨⟨rfl, rfl, rfl⟩, .inr ⟨hfree, rfl, p, time, rfl, rfl⟩⟩
          · cases h
      | start n =>
          cases h
          refine ⟨.refl s, .inl ⟨rfl, ?_⟩⟩
          split <;> rfl
      | answered o => cases h
      | _ => cases hout
  | worker n p pc =>
      obtain ⟨⟨a, pc'⟩, ha, heq⟩ := Option.map_eq_some_iff.mp h
      cases heq
      obtain ⟨hlast, hlock, -, hsuppressed, htimes⟩ := workerNext_frame ha
      exact ⟨⟨hlast, hsuppressed, htimes⟩, .inl ⟨hlock, rfl⟩⟩
  | buffer active bpc =>
      cases bpc with
      | none => cases h
      | some upc =>
          obtain ⟨r, -, heq⟩ := Option.map_eq_some_iff.mp h
          cases heq
          exact ⟨⟨rfl, rfl, rfl⟩, .inl ⟨rfl, rfl⟩⟩
  | deleteClips n pc | deleteAllClips n pc =>
      cases k with
      | io c =>
          obtain ⟨r, -, heq⟩ := Option.map_eq_some_iff.mp h
          cases heq
          exact ⟨⟨rfl, rfl, rfl⟩, .inl ⟨rfl, rfl⟩⟩
      | _ => cases h

/-- Outside the gate no thread moves the anchor of the state file. -/
theorem next_anchor (hout : t.insideGate = false) (hfile : FileHeld i s t)
    (h : recorderNext cfg i s t k = some (s', t')) : s'.files.anchor = s.files.anchor := by
  cases hu : t.updating with
  | none => rw [(next_no_update hu h).1]
  | some u =>
      obtain ⟨field, pc⟩ := u
      obtain ⟨o, ho, -⟩ := next_updating hu h
      have hload := (updateNext_load ho (hfile field pc hu)).1
      cases t with
      | notify p npc =>
          cases npc with
          | update time upc => cases hout
          | _ => cases hu
      | buffer active bpc =>
          cases bpc with
          | none => cases hu
          | some upc =>
              cases hu
              rcases hload with hload | hload
              · simp only [StateFiles.anchor, hload]
              · simp only [StateFiles.anchor, hload]
                rfl
      | worker | deleteClips | deleteAllClips => cases hu

end Gate

theorem gate_mutex (cfg : RecorderConfig) :
    Mutex (recorder cfg) Process.triggerLock RecorderThread.insideGate where
  enter r := by cases r <;> rfl
  outside hn hout := by
    rcases (next_outside_gate hout hn).2 with hsame | ⟨hfree, hlock, p, time, -, rfl⟩
    · exact .inl hsame
    · exact .inr ⟨hfree, hlock, rfl⟩
  within {i s t k s' t'} hn hin := by
    cases t with
    | notify p npc =>
        cases npc with
        | check time =>
            simp only [recorder, recorderNext, notifyNext] at hn
            split at hn <;> cases hn <;> exact .inl ⟨rfl, rfl⟩
        | move time =>
            cases hn
            exact .inl ⟨rfl, rfl⟩
        | update time upc =>
            obtain ⟨⟨f, o⟩, -, heq⟩ := Option.map_eq_some_iff.mp hn
            cases heq
            refine .inl ⟨rfl, ?_⟩
            cases o <;> rfl
        | release time o => cases o <;> cases hn <;> exact .inr ⟨rfl, rfl⟩
        | _ => cases hin
    | _ => cases hin
  env {s x s'} _ := nomatch x

end Babycat.Recorder
