/-
  Babycat.Recorder.Events

  Every accepted event has one worker at most, and only that worker adds to
  its record.
-/

import Babycat.Recorder.Gate

namespace Babycat.Recorder

open Babycat.Conc

/-- The event of a thread is recorded, and no other thread works on it. -/
structure EventsOwned (c : Conf Process RecorderThread) : Prop where
  known : ∀ (i : ℕ) (t : RecorderThread) (n : ℕ), c.pool[i]? = some t → t.event = some n →
    n < c.shared.accepted.length
  distinct : ∀ (i j : ℕ) (t u : RecorderThread) (n : ℕ), c.pool[i]? = some t →
    c.pool[j]? = some u → t.event = some n → u.event = some n → i = j

/-- `A` holds of the record of every event and the thread that works on it. -/
def Recorded (A : Accepted → RecorderThread → Prop) (c : Conf Process RecorderThread) : Prop :=
  ∀ (i : ℕ) (t : RecorderThread) (n : ℕ), c.pool[i]? = some t → t.event = some n →
    ∃ a, c.shared.accepted[n]? = some a ∧ A a t

section Step

variable {cfg : RecorderConfig} {c : Conf Process RecorderThread} {i : ℕ} {k : RecorderChoice}
variable {s' : Process} {t t' : RecorderThread} {A : Accepted → RecorderThread → Prop}

/-- The event of a thread after its step: its own before, or the one that the gate has just let
    through. -/
theorem RecordStep.event {s : Process} (h : RecordStep s t s' t') {n : ℕ}
    (hn : t'.event = some n) : t.event = some n ∨ (n = s.accepted.length ∧
      s'.accepted.length = s.accepted.length + 1) := by
  cases h with
  | accept p time ht ht' hs =>
      subst ht'
      cases hn
      exact .inr ⟨rfl, by rw [hs, List.length_append, List.length_singleton]⟩
  | note m f ht ht' hf hs =>
      cases ht'.symm.trans hn
      exact .inl ht
  | keep ht' hs =>
      rcases ht' with he | he
      · exact .inl (he ▸ hn)
      · cases he.symm.trans hn

/-- The entry of an event on which the thread does not work stays as it is. -/
theorem RecordStep.other {s : Process} (h : RecordStep s t s' t') {n : ℕ}
    (hn : n < s.accepted.length) (ht : t.event ≠ some n) : s'.accepted[n]? = s.accepted[n]? := by
  cases h with
  | accept p time _ _ hs => rw [hs, List.getElem?_append_left hn]
  | note m f hm _ _ hs =>
      rw [hs, List.getElem?_modify]
      have hne : m ≠ n := fun he => ht (he ▸ hm)
      simp [hne]
  | keep _ hs => rw [hs]

/-- So does every entry but that of the thread's event after the step. -/
theorem RecordStep.old {s : Process} (h : RecordStep s t s' t') {n : ℕ}
    (hn : t'.event ≠ some n) : s'.accepted[n]? = s.accepted[n]? := by
  cases h with
  | accept p time _ ht' hs =>
      have hne : n ≠ s.accepted.length := fun he => hn (by rw [ht', he]; rfl)
      rw [hs, List.getElem?_append]
      split
      · rfl
      · rw [List.getElem?_eq_none (by simp; omega), List.getElem?_eq_none (by omega)]
  | note m f _ hm _ hs =>
      rw [hs, List.getElem?_modify]
      have hne : m ≠ n := fun he => hn (he ▸ hm)
      simp [hne]
  | keep _ hs => rw [hs]

theorem eventsOwned_next (h : EventsOwned c) (ht : c.pool[i]? = some t)
    (hn : recorderNext cfg i c.shared t k = some (s', t')) :
    EventsOwned ⟨s', c.pool.set i t'⟩ := by
  have hrecord := next_record hn
  have hlength : c.shared.accepted.length ≤ s'.accepted.length := by
    cases hrecord with
    | accept _ _ _ _ hs => rw [hs, List.length_append]; omega
    | note _ _ _ _ _ hs => rw [hs, List.length_modify]
    | keep _ hs => rw [hs]
  have hother : ∀ (j : ℕ) (u : RecorderThread) (n : ℕ), j ≠ i → c.pool[j]? = some u →
      u.event = some n → t'.event ≠ some n := by
    intro j u n hne hu hevent hevent'
    have hlt := h.known j u n hu hevent
    rcases hrecord.event hevent' with hown | ⟨rfl, -⟩
    · exact hne (h.distinct j i u t n hu ht hevent hown)
    · exact absurd hlt (lt_irrefl _)
  constructor
  · intro j u n hu hevent
    rcases getElem?_set_cases ht hu with ⟨rfl, rfl⟩ | ⟨-, hu⟩
    · show n < s'.accepted.length
      rcases hrecord.event hevent with hown | ⟨rfl, hgrown⟩
      · exact lt_of_lt_of_le (h.known _ t n ht hown) hlength
      · omega
    · exact lt_of_lt_of_le (h.known j u n hu hevent) hlength
  · intro j l u v n hu hv heventu heventv
    rcases getElem?_set_cases ht hu with ⟨rfl, rfl⟩ | ⟨hju, hu'⟩ <;>
      rcases getElem?_set_cases ht hv with ⟨rfl, rfl⟩ | ⟨hlv, hv'⟩
    · rfl
    · exact absurd heventu (hother l v n hlv hv' heventv)
    · exact absurd heventv (hother j u n hju hu' heventu)
    · exact h.distinct j l u v n hu' hv' heventu heventv

theorem eventsOwned_of_run {G : Conf Process RecorderThread → RecorderLife → Prop}
    {c' : Conf Process RecorderThread} (h : Steps (recorderStep cfg) G c c') (hc : c.pool = []) :
    EventsOwned c' := by
  refine h.invariant (fun a e b ha _ hs => ?_)
    ⟨fun i t n ht => (by rw [hc] at ht; cases ht), fun i j t u n ht => (by rw [hc] at ht; cases ht)⟩
  rcases life_cases hs with ⟨x, rfl, hx⟩ | ⟨rfl, rfl⟩
  · rcases Prog.step_cases hx with ⟨r, rfl, rfl⟩ | ⟨i, k, t, s, t', rfl, ht, hn, rfl⟩ |
        ⟨y, s, rfl, -, -⟩
    · have hfresh : (enterRecorder r).event = none := by cases r <;> rfl
      constructor
      · intro j u n hu hevent
        rcases getElem?_append_cases hu with hu | ⟨-, rfl⟩
        · exact ha.known j u n hu hevent
        · cases hfresh.symm.trans hevent
      · intro j l u v n hu hv heventu heventv
        rcases getElem?_append_cases hu with hu | ⟨-, rfl⟩
        · rcases getElem?_append_cases hv with hv | ⟨-, rfl⟩
          · exact ha.distinct j l u v n hu hv heventu heventv
          · cases hfresh.symm.trans heventv
        · cases hfresh.symm.trans heventu
    · exact eventsOwned_next ha ht hn
    · exact nomatch y
  · exact ⟨fun i t n ht => (by cases ht), fun i j t u n ht => (by cases ht)⟩

/-- The rule for a fact about the record of an event and its thread: the fresh entry has it, and
    the thread's own steps keep it. -/
theorem recorded_step (hfresh : ∀ p time n, A (.fresh time) (.notify p (.start n)))
    {e : RecorderLife} {c' : Conf Process RecorderThread} (howned : EventsOwned c)
    (h : Recorded A c) (hs : recorderStep cfg c e = some c')
    (hown : ∀ (i : ℕ) k t s' t' n a, e = .run (.sched i k) → c.pool[i]? = some t →
      recorderNext cfg i c.shared t k = some (s', t') →
      t.event = some n → t'.event = some n → c.shared.accepted[n]? = some a → A a t →
      ∃ a', s'.accepted[n]? = some a' ∧ A a' t') :
    Recorded A c' := by
  rcases life_cases hs with ⟨x, rfl, hx⟩ | ⟨rfl, rfl⟩
  · rcases Prog.step_cases hx with ⟨r, rfl, rfl⟩ | ⟨i, k, t, s, t', rfl, ht, hn, rfl⟩ |
        ⟨y, s, rfl, -, -⟩
    · intro j u n hu hevent
      rcases getElem?_append_cases hu with hu | ⟨-, rfl⟩
      · exact h j u n hu hevent
      · have hnone : (enterRecorder r).event = none := by cases r <;> rfl
        cases hnone.symm.trans hevent
    · have hrecord := next_record hn
      intro j u n hu hevent
      rcases getElem?_set_cases ht hu with ⟨rfl, rfl⟩ | ⟨hne, hu⟩
      · show ∃ a, s.accepted[n]? = some a ∧ A a u
        cases hrecord with
        | accept p time _ ht' hrows =>
            subst ht'
            cases hevent
            exact ⟨.fresh time, by rw [hrows, List.getElem?_concat_length], hfresh p time _⟩
        | note m f htm ht' _ _ =>
            cases ht'.symm.trans hevent
            obtain ⟨a, ha, hA⟩ := h _ t n ht htm
            exact hown _ k t s u n a rfl ht hn htm ht' ha hA
        | keep ht' _ =>
            rcases ht' with he | he
            · have htn := he ▸ hevent
              obtain ⟨a, ha, hA⟩ := h _ t n ht htn
              exact hown _ k t s u n a rfl ht hn htn hevent ha hA
            · cases he.symm.trans hevent
      · obtain ⟨a, ha, hA⟩ := h j u n hu hevent
        refine ⟨a, ?_, hA⟩
        show s.accepted[n]? = some a
        have hown : t.event ≠ some n := fun htn => hne (howned.distinct j i u t n hu ht hevent htn)
        rw [hrecord.other (howned.known j u n hu hevent) hown]
        exact ha
    · exact nomatch y
  · intro i t n ht
    cases ht

end Step

/-! ## The steps of a worker -/

/-- What a step of the worker of an event does to its record, from `a` to `a'`. -/
inductive WorkerStep (cfg : RecorderConfig) (p : Payload) (s s' : Process) (k : RecorderChoice)
    (a : Accepted) : Accepted → WorkerPc → WorkerPc → Prop
  | keywords (keywords : List String) (h : matchedKeywords cfg p = some keywords) :
      WorkerStep cfg p s s' k a a .keywords (.eventTime keywords)
  | noKeywords (h : matchedKeywords cfg p = none) :
      WorkerStep cfg p s s' k a a .keywords .dead
  | time (keywords : List String) (t : ℚ) (h : readEventTime cfg p k = some (some (.finite t))) :
      WorkerStep cfg p s s' k a { a with workerTime := some (.finite t) } (.eventTime keywords)
        (.event ⟨keywords, t⟩ (.capture .rollover .base))
  | noTime (keywords : List String) (x : Option PyFloat) (h : readEventTime cfg p k = some x)
      (hx : ∀ t, x ≠ some (.finite t)) :
      WorkerStep cfg p s s' k a { a with workerTime := x } (.eventTime keywords) .dead
  | capture (e : EventIn) (mode : CaptureMode) (cpc : CapturePc) (c : Choice) (epc : EventPc)
      (h : eventNext cfg.clips e s.store c (.capture mode cpc) = some (s'.store, epc)) :
      WorkerStep cfg p s s' k a
        (a.note s.store (cfg.clips.clipBase e.eventTime) (c = .raise) (.capture mode cpc))
        (.event e (.capture mode cpc)) (.event e epc)
  | fail (e : EventIn) (mode : CaptureMode) (cpc : CapturePc) :
      WorkerStep cfg p s s' k a (if cpc = .report then { a with reported := some false } else a)
        (.event e (.capture mode cpc)) (.event e (.insert none))
  | insert (e : EventIn) (clipName : Option String) (h : gmtime e.eventTime = true) :
      WorkerStep cfg p s s' k a
        { a with
          rows := a.rows ++ [⟨String.intercalate "," e.keywords, clipName, e.eventTime⟩] }
        (.event e (.insert clipName)) (.event e .done)
  | noInsert (e : EventIn) (clipName : Option String)
      (h : gmtime e.eventTime = false ∨ k = .io .raise) :
      WorkerStep cfg p s s' k a a (.event e (.insert clipName)) .dead

theorem Accepted.note_rows (a : Accepted) (s : Store) (name : String) (raises : Bool)
    (pc : EventPc) :
    (a.note s name raises pc).rows = a.rows := by
  simp only [Accepted.note]
  split <;> first | rfl | (split <;> rfl)

theorem Accepted.note_workerTime (a : Accepted) (s : Store) (name : String) (raises : Bool)
    (pc : EventPc) :
    (a.note s name raises pc).workerTime = a.workerTime := by
  simp only [Accepted.note]
  split <;> first | rfl | (split <;> rfl)

theorem worker_step {cfg : RecorderConfig} {n : ℕ} {p : Payload} {s s' : Process}
    {k : RecorderChoice} {pc pc' : WorkerPc} {a : Accepted} (ha : s.accepted[n]? = some a)
    (h : workerNext cfg n p s k pc = some (s', pc')) :
    ∃ a', s'.accepted[n]? = some a' ∧ WorkerStep cfg p s s' k a a' pc pc' := by
  have hmodify : ∀ f : Accepted → Accepted, (s.accepted.modify n f)[n]? = some (f a) := by
    intro f
    simp [ha]
  cases pc with
  | keywords =>
      cases hk : matchedKeywords cfg p with
      | none =>
          simp only [workerNext, hk] at h
          cases h
          exact ⟨a, ha, .noKeywords hk⟩
      | some keywords =>
          simp only [workerNext, hk] at h
          cases h
          exact ⟨a, ha, .keywords keywords hk⟩
  | eventTime keywords =>
      obtain ⟨x, hx, heq⟩ := Option.map_eq_some_iff.mp h
      split at heq <;> cases heq
      · exact ⟨_, hmodify _, .time keywords _ hx⟩
      · rename_i hno
        exact ⟨_, hmodify _, .noTime keywords x hx fun t he => hno t he⟩
  | event e epc =>
      cases epc with
      | capture mode cpc =>
          cases k with
          | io c =>
              obtain ⟨r, hr, heq⟩ := Option.map_eq_some_iff.mp h
              cases heq
              exact ⟨_, hmodify _, .capture e mode cpc c r.2 hr⟩
          | fail =>
              cases h
              exact ⟨_, hmodify _, .fail e mode cpc⟩
          | clock now => cases h
      | insert clipName =>
          simp only [workerNext] at h
          split at h <;> cases h
          · rename_i hok
            exact ⟨_, hmodify _, .insert e clipName hok.1⟩
          · rename_i hno
            refine ⟨a, ha, .noInsert e clipName ?_⟩
            by_cases hg : gmtime e.eventTime = true
            · exact .inr (by_contra fun hk => hno ⟨hg, hk⟩)
            · exact .inl (Bool.eq_false_iff.mpr hg)
      | done => cases h
  | dead => cases h

end Babycat.Recorder
