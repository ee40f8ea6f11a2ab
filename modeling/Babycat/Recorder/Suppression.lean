/-
  Babycat.Recorder.Suppression

  A notification that the gate suppresses lies within the cooldown of an event
  that is recorded (FR-030, FR-031).

  The gate moves its anchor in memory, then in the state file, and starts the
  worker last; the anchor survives a restart and the worker does not.  Every
  failure in between leaves an anchor without an event, and the comparison of
  the gate is also true of every time before the anchor.  `SuppressionSafe` is
  the guard of the runs in which this does not happen.
-/

import Babycat.Recorder.Cooldown
import Babycat.Recorder.Worker

namespace Babycat.Recorder

open Babycat.Conc

/-! ## The runs in which the anchor has an event -/

/-- The anchor in the state file has been moved for an event whose row is still to come. -/
def RecorderThread.owes : RecorderThread → Bool
  | .notify _ (.update _ (.release true)) | .notify _ (.release _ .accepted)
  | .notify _ (.start _) => true
  | .worker _ _ .keywords | .worker _ _ (.eventTime _) => true
  | .worker _ _ (.event _ pc) => pc != .done
  | _ => false

/-- No event is lost on its way to its row, and no notification is suppressed before the first
    accepted event or for a time before the anchor. -/
def suppressionSafe (cfg : RecorderConfig) (c : Conf Process RecorderThread) :
    RecorderLife → Bool
  | .restart => c.pool.all fun t => !t.owes
  | .run (.sched i k) =>
      match c.pool[i]? with
      | some (.notify _ (.check t)) =>
          !(t.sub c.shared.lastSave).lt cfg.cooldown ||
            (!c.shared.accepted.isEmpty && !(t.sub c.shared.lastSave).lt 0)
      | some t => t.succeeds cfg k
      | none => true
  | _ => true

def SuppressionSafe (cfg : RecorderConfig) (c : Conf Process RecorderThread) (e : RecorderLife) :
    Prop :=
  suppressionSafe cfg c e = true

instance (cfg : RecorderConfig) (c : Conf Process RecorderThread) (e : RecorderLife) :
    Decidable (SuppressionSafe cfg c e) :=
  inferInstanceAs (Decidable (_ = true))

/-- The row of event `n` is there, or a thread cannot avoid inserting it. -/
def RowComes (cfg : RecorderConfig) (c : Conf Process RecorderThread) (n : ℕ) : Prop :=
  (∃ a, c.shared.accepted[n]? = some a ∧ a.rows ≠ []) ∨
    ∃ i t, c.pool[i]? = some t ∧ t.event = some n ∧
      Inevitable (recorder cfg) (fun t k => t.succeeds cfg k = true)
        (fun s s' _ => InsertsRow n s s') i t

/-- The time lies within the cooldown of an accepted event, and not before it. -/
def Within (cfg : RecorderConfig) (times : List PyFloat) (n : ℕ) (t : PyFloat) : Prop :=
  ∃ q u : ℚ, times[n]? = some (.finite q) ∧ t = .finite u ∧ 0 ≤ u - q ∧ u - q < cfg.cooldown

/-- The suppression of `t` is backed by a recorded event. -/
def Backed (cfg : RecorderConfig) (c : Conf Process RecorderThread) (t : PyFloat) : Prop :=
  ∃ n, Within cfg c.shared.acceptedTimes n t ∧ RowComes cfg c n

/-! ## The gate -/

/-- The anchor of the state file is that of the last accepted event. -/
def FileAnchored (s : Process) : Prop := ∀ t, s.acceptedTimes.getLast? = some t → s.files.anchor = t

/-- And so is the anchor in memory. -/
def Anchored (s : Process) : Prop :=
  FileAnchored s ∧ ∀ t, s.acceptedTimes.getLast? = some t → s.lastSave = t

structure GateSound (cfg : RecorderConfig) (s : Process) : Prop where
  within : ∀ t ∈ s.suppressed, ∃ n, Within cfg s.acceptedTimes n t
  anchored : s.triggerLock = none → Anchored s

/-- What a notification knows inside the gate. -/
def AnchorHeld (cfg : RecorderConfig) (_ : ℕ) (s : Process) : RecorderThread → Prop
  | .notify _ (.check _) | .notify _ (.move _) | .notify _ (.release _ .suppressed) => Anchored s
  | .notify p (.update t pc) =>
      workable cfg p = true ∧ s.lastSave = t ∧ pc ≠ .release false ∧
        (pc = .release true → s.files.anchor = t) ∧ (pc ≠ .release true → FileAnchored s)
  | .notify p (.release t .accepted) =>
      workable cfg p = true ∧ s.lastSave = t ∧ s.files.anchor = t
  | .notify _ (.release _ .failed) => False
  | _ => True

section Gate

variable {cfg : RecorderConfig} {i : ℕ} {s s' : Process} {k : RecorderChoice}
variable {t t' : RecorderThread}

theorem GateKept.anchored (h : GateKept s s') (hs : Anchored s) : Anchored s' := by
  simp only [Anchored, FileAnchored, h.times, h.anchor, h.lastSave]
  exact hs

theorem GateKept.anchorHeld (h : GateKept s s') (ht : AnchorHeld cfg i s t) :
    AnchorHeld cfg i s' t := by
  cases t with
  | notify p npc =>
      cases npc with
      | check time | move time => exact h.anchored ht
      | update time upc =>
          obtain ⟨hp, hlast, hpc, hdone, hopen⟩ := ht
          refine ⟨hp, h.lastSave.trans hlast, hpc, fun hpc => h.anchor.trans (hdone hpc),
            fun hpc => ?_⟩
          simp only [FileAnchored, h.times, h.anchor]
          exact hopen hpc
      | release time o =>
          cases o with
          | suppressed => exact h.anchored ht
          | accepted => exact ⟨ht.1, h.lastSave.trans ht.2.1, h.anchor.trans ht.2.2⟩
          | failed => exact ht
      | _ => trivial
  | _ => trivial

/-- A time that the gate suppresses is within the cooldown of a finite anchor. -/
theorem within_of_check {times : List PyFloat} {n : ℕ} {u anchor : PyFloat}
    (hget : times[n]? = some anchor) (hlt : (u.sub anchor).lt cfg.cooldown = true)
    (hnot : ¬ (u.sub anchor).lt 0 = true) : Within cfg times n u := by
  cases u with
  | finite a =>
      cases anchor with
      | finite b =>
          refine ⟨b, a, hget, rfl, ?_, ?_⟩
          · simpa [PyFloat.sub, PyFloat.lt] using hnot
          · simpa [PyFloat.sub, PyFloat.lt] using hlt
      | infinite negative =>
          simp only [PyFloat.sub, PyFloat.lt] at hlt hnot
          exact absurd hlt hnot
      | nan => cases hlt
  | infinite negative =>
      cases anchor with
      | finite b =>
          simp only [PyFloat.sub, PyFloat.lt] at hlt hnot
          exact absurd hlt hnot
      | infinite other =>
          simp only [PyFloat.sub] at hlt hnot
          split at hlt
          · cases hlt
          · rename_i hne
            rw [if_neg hne] at hnot
            exact absurd hlt hnot
      | nan => cases hlt
  | nan => cases anchor <;> cases hlt

theorem Within.mono {times more : List PyFloat} {n : ℕ} {u : PyFloat}
    (h : Within cfg times n u) : Within cfg (times ++ more) n u := by
  obtain ⟨q, a, hget, rfl, hrest⟩ := h
  refine ⟨q, a, ?_, rfl, hrest⟩
  rw [List.getElem?_append_left (List.getElem?_eq_some_iff.mp hget).1]
  exact hget

theorem GateKept.sound (h : GateKept s s') (hs : GateSound cfg s)
    (hlock : s'.triggerLock = none → s.triggerLock = none) : GateSound cfg s' where
  within := by
    rw [h.suppressed, h.times]
    exact hs.within
  anchored hfree := h.anchored (hs.anchored (hlock hfree))

/-- Where the anchor is that of an accepted event, it is the last accepted time. -/
theorem last_get (hne : s.accepted.isEmpty = false) (h : Anchored s) :
    s.acceptedTimes[s.accepted.length - 1]? = some s.lastSave := by
  have hlast : s.acceptedTimes.getLast? = s.acceptedTimes[s.accepted.length - 1]? := by
    rw [List.getLast?_eq_getElem?, Process.acceptedTimes, List.length_map]
  cases hget : s.acceptedTimes.getLast? with
  | none =>
      rw [List.getLast?_eq_none_iff, Process.acceptedTimes, List.map_eq_nil_iff] at hget
      simp [hget] at hne
  | some t => rw [← hlast, hget, h.2 t hget]

/-- A step inside the gate. -/
theorem next_anchorHeld (hs : GateSound cfg s) (ht : AnchorHeld cfg i s t)
    (hfile : FileHeld i s t)
    (hguard : ∀ p time, t = .notify p (.check time) → (time.sub s.lastSave).lt cfg.cooldown = true →
      s.accepted.isEmpty = false ∧ ¬ (time.sub s.lastSave).lt 0 = true)
    (hok : t.succeeds cfg k = true) (hlock : s.triggerLock ≠ none)
    (hn : recorderNext cfg i s t k = some (s', t')) (hin : t.insideGate = true) :
    GateSound cfg s' ∧ (t'.insideGate = true → AnchorHeld cfg i s' t') := by
  cases t with
  | notify p npc =>
      cases npc with
      | check time =>
          simp only [recorderNext, notifyNext] at hn
          split at hn
          · rename_i hlt
            cases hn
            obtain ⟨hne, hnot⟩ := hguard p time rfl hlt
            refine ⟨⟨fun u hu => ?_, fun _ => ht⟩, fun _ => ht⟩
            rcases List.mem_cons.mp hu with rfl | hold
            · exact ⟨_, within_of_check (last_get hne ht) hlt hnot⟩
            · exact hs.within u hold
          · cases hn
            exact ⟨hs, fun _ => ht⟩
      | move time =>
          cases hn
          refine ⟨⟨hs.within, fun hfree => absurd hfree hlock⟩, fun _ => ?_⟩
          exact ⟨hok, rfl, by simp, fun hpc => (by cases hpc), fun _ => ht.1⟩
      | update time upc =>
          obtain ⟨hp, hlast, hpc, hdone, hopen⟩ := ht
          have hio : k ≠ .io .raise := by simpa [RecorderThread.succeeds] using hok
          obtain ⟨⟨f, o⟩, ho, heq⟩ := Option.map_eq_some_iff.mp hn
          cases heq
          have hat := hfile _ _ rfl
          have hraise : decide (k = .io .raise) = false := by simp [hio]
          obtain ⟨hraised, hfailed⟩ := updateNext_succeeds (hraise ▸ ho) hat hpc
          refine ⟨⟨hs.within, fun hfree => absurd hfree hlock⟩, fun _ => ?_⟩
          cases o with
          | running pc' =>
              refine ⟨hp, hlast, fun hpc' => hfailed (hpc' ▸ rfl), fun hpc' => ?_, fun hpc' => ?_⟩
              · subst hpc'
                exact StateFiles.anchor_of_update ((updateNext_load ho hat).2 _ rfl)
              · have hpath : f.path = s.files.path :=
                  updateNext_path ho fun ho' => hpc' (UpdateOutcome.running.inj ho')
                have hupc : upc ≠ .release true := by
                  rintro rfl
                  cases ho
                intro u hu
                exact (StateFiles.anchor_of_path hpath).trans (hopen hupc u hu)
          | returned =>
              exact ⟨hp, hlast, StateFiles.anchor_of_update (updateNext_returned ho hat)⟩
          | raised => exact absurd rfl hraised
      | release time o =>
          cases o with
          | accepted =>
              cases hn
              obtain ⟨-, hlast, hanchor⟩ := ht
              have htimes : Process.acceptedTimes { s with
                  triggerLock := none
                  accepted := s.accepted ++ [.fresh time] } =
                  s.acceptedTimes ++ [time] := acceptedTimes_append rfl
              refine ⟨⟨fun u hu => ?_, fun _ => ?_⟩, fun _ => trivial⟩
              · obtain ⟨n, hn⟩ := hs.within u hu
                rw [htimes]
                exact ⟨n, hn.mono⟩
              · have hgetLast : ∀ u, (s.acceptedTimes ++ [time]).getLast? = some u → time = u := by
                  simp
                simp only [Anchored, FileAnchored, htimes]
                exact ⟨fun u hu => hanchor.trans (hgetLast u hu),
                  fun u hu => hlast.trans (hgetLast u hu)⟩
          | suppressed =>
              cases hn
              exact ⟨⟨hs.within, fun _ => ht⟩, fun _ => trivial⟩
          | failed => exact absurd ht id
      | _ => cases hin
  | _ => cases hin

end Gate

/-! ## The rows -/

/-- Every accepted event has its row, or a thread that is to insert it. -/
def RowsCovered (cfg : RecorderConfig) (c : Conf Process RecorderThread) : Prop :=
  ∀ n < c.shared.accepted.length, (∃ a, c.shared.accepted[n]? = some a ∧ a.rows ≠ []) ∨
    ∃ t ∈ c.pool, t.pending cfg n = true

section Rows

variable {cfg : RecorderConfig} {c : Conf Process RecorderThread} {i : ℕ} {k : RecorderChoice}
variable {s' : Process} {t t' : RecorderThread}

theorem rowsCovered_next (h : RowsCovered cfg c) (ht : c.pool[i]? = some t)
    (hwork : ∀ p time, t = .notify p (.release time .accepted) → workable cfg p = true)
    (hok : t.succeeds cfg k = true) (hn : recorderNext cfg i c.shared t k = some (s', t')) :
    RowsCovered cfg ⟨s', c.pool.set i t'⟩ := by
  have hrecord := next_record hn
  intro n hlt
  rcases hrecord.lt hlt with hold | ⟨rfl, p, time, rfl, rfl⟩
  · obtain ⟨a, ha⟩ : ∃ a, c.shared.accepted[n]? = some a := ⟨_, List.getElem?_eq_getElem hold⟩
    rcases h n hold with ⟨b, hb, hrow⟩ | hpending
    · obtain ⟨b', hb', -, hprefix⟩ := hrecord.get hb
      refine .inl ⟨b', hb', fun hnil => hrow ?_⟩
      exact List.prefix_nil.mp (hnil ▸ hprefix)
    · by_cases hown : t.pending cfg n = true
      · rcases pending_next hown hok hn with ⟨row, -, hrows⟩ | ⟨hpending', -⟩
        · exact .inl ⟨{ a with rows := a.rows ++ [row] }, by simp [hrows, ha], by simp⟩
        · exact .inr ⟨t', mem_set_self ht, hpending'⟩
      · exact .inr (exists_mem_set ht hpending hown)
  · refine .inr ⟨_, mem_set_self ht, ?_⟩
    simp [RecorderThread.pending, hwork p time rfl]

theorem event_of_pending {n : ℕ} (h : t.pending cfg n = true) : t.event = some n := by
  cases t with
  | notify p npc =>
      cases npc with
      | start m =>
          simp only [RecorderThread.pending, Bool.and_eq_true, beq_iff_eq] at h
          rw [← h.1]
          rfl
      | _ => cases h
  | worker m p pc =>
      cases pc with
      | dead => cases h
      | _ =>
          simp only [RecorderThread.pending, Bool.and_eq_true, beq_iff_eq] at h
          simp [RecorderThread.event, h]
  | _ => cases h

/-- A thread that is to insert a row owes it. -/
theorem owes_of_pending {n : ℕ} (h : t.pending cfg n = true) : t.owes = true := by
  cases t with
  | notify p npc => cases npc <;> first | rfl | cases h
  | worker m p pc =>
      cases pc with
      | event e epc =>
          simp only [RecorderThread.pending, Bool.and_eq_true] at h
          exact h.1.2
      | dead => cases h
      | _ => rfl
  | _ => cases h

end Rows

/-! ## Whole runs -/

theorem SuppressionSafe.succeeds {cfg : RecorderConfig} {c : Conf Process RecorderThread} {i : ℕ}
    {k : RecorderChoice} {t : RecorderThread} (h : SuppressionSafe cfg c (.run (.sched i k)))
    (ht : c.pool[i]? = some t) : t.succeeds cfg k = true := by
  simp only [SuppressionSafe, suppressionSafe, ht] at h
  split at h
  · rename_i heq
    cases heq
    rfl
  · rename_i heq
    cases heq
    exact h
  · rename_i heq
    cases heq

/-- The proof outline of the gate, in the runs in which the state file is known. -/
theorem anchor_outline (cfg : RecorderConfig) :
    OwickiGries (recorder cfg) (fun c e => FilesKnown c ∧ SuppressionSafe cfg c (.run e))
      (GateSound cfg) (Mutex.Holds Process.triggerLock RecorderThread.insideGate
        fun i s t => AnchorHeld cfg i s t ∧ s.triggerLock ≠ none) := by
  refine (gate_mutex cfg).owickiGries
    (Q := fun s s' => GateKept s s' ∧ (s'.triggerLock = none → s.triggerLock = none))
    (fun _ x _ _ _ => nomatch x) ?_ ?_ (fun _ _ h hs => h.1.sound hs h.2)
    (fun _ _ _ _ h _ _ ht => ⟨h.1.anchorHeld ht.1, fun hfree => ht.2 (h.2 hfree)⟩)
  · intro c i k t s' t' hI hG ht hn hout
    obtain ⟨hsame, hlock⟩ := next_outside_gate hout hn
    have hkept : GateKept c.shared s' := ⟨hsame, next_anchor hout (hG.1 i t ht) hn⟩
    rcases hlock with ⟨hlock, hno⟩ | ⟨hfree, hlock, p, time, rfl, rfl⟩
    · refine ⟨⟨hkept, fun hfree => hlock.symm.trans hfree⟩, fun hin => ?_⟩
      rw [hno] at hin
      cases hin
    · refine ⟨⟨hkept, fun _ => hfree⟩, fun _ => ⟨hkept.anchored (hI.anchored hfree), ?_⟩⟩
      rw [hlock]
      exact Option.some_ne_none i
  · intro c i k t s' t' hI hB hG ht hn hin
    have hcheck : ∀ p time, t = .notify p (.check time) →
        (time.sub c.shared.lastSave).lt cfg.cooldown = true →
        c.shared.accepted.isEmpty = false ∧ ¬ (time.sub c.shared.lastSave).lt 0 = true := by
      rintro p time rfl hlt
      simpa [SuppressionSafe, suppressionSafe, ht, hlt] using hG.2
    obtain ⟨hsound, hheld⟩ :=
      next_anchorHeld hI hB.1 (hG.1 i t ht) hcheck (hG.2.succeeds ht) hB.2 hn hin
    refine ⟨hsound, fun hin' => ⟨hheld hin', ?_⟩⟩
    rcases (gate_mutex cfg).within hn hin with ⟨hsame, -⟩ | ⟨-, hout⟩
    · rw [hsame]
      exact hB.2
    · rw [hout] at hin'
      cases hin'

/-- What holds in every safe run. -/
structure SuppressionSound (cfg : RecorderConfig) (c : Conf Process RecorderThread) : Prop where
  gate : Annotated (GateSound cfg) (Mutex.Holds Process.triggerLock RecorderThread.insideGate
    fun i s t => AnchorHeld cfg i s t ∧ s.triggerLock ≠ none) c
  holder : Mutex.HolderInside Process.triggerLock RecorderThread.insideGate c
  rows : RowsCovered cfg c

section Run

variable {cfg : RecorderConfig} {c c' : Conf Process RecorderThread}

/-- While no thread owes a row the anchor of the file is that of the last accepted event. -/
theorem fileAnchored_of_restart (h : SuppressionSound cfg c)
    (howes : ∀ t ∈ c.pool, t.owes = false) : FileAnchored c.shared := by
  cases hlock : c.shared.triggerLock with
  | none => exact (h.gate.1.anchored hlock).1
  | some i =>
      obtain ⟨t, ht, hin⟩ := h.holder i hlock
      have hno := howes t (List.mem_of_getElem? ht)
      have hheld := (h.gate.2 i t ht hin).2.1
      cases t with
      | notify p npc =>
          cases npc with
          | check time | move time => exact hheld.1
          | update time upc =>
              obtain ⟨-, -, -, -, hopen⟩ := hheld
              refine hopen fun hpc => ?_
              rw [hpc] at hno
              cases hno
          | release time o =>
              cases o with
              | suppressed => exact hheld.1
              | accepted => cases hno
              | failed => exact absurd hheld id
          | _ => cases hin
      | _ => cases hin

theorem suppressionSound_step (e : RecorderLife) (hfile : FilesKnown c)
    (h : SuppressionSound cfg c) (hG : SuppressionSafe cfg c e)
    (hs : recorderStep cfg c e = some c') : SuppressionSound cfg c' := by
  rcases life_cases hs with ⟨x, rfl, hx⟩ | ⟨rfl, rfl⟩
  · refine ⟨(anchor_outline cfg).step c x c' h.gate ⟨hfile, hG⟩ hx,
      (gate_mutex cfg).holder_step h.holder hx, ?_⟩
    rcases Prog.step_cases hx with ⟨r, rfl, rfl⟩ | ⟨i, k, t, s, t', rfl, ht, hn, rfl⟩ |
        ⟨y, s, rfl, -, -⟩
    · intro n hn
      refine (h.rows n hn).imp_right ?_
      rintro ⟨t, ht, hpending⟩
      exact ⟨t, List.mem_append_left _ ht, hpending⟩
    · refine rowsCovered_next h.rows ht ?_ (hG.succeeds ht) hn
      rintro p time rfl
      exact (h.gate.2 i _ ht rfl).2.1.1
    · exact nomatch y
  · have howes : ∀ t ∈ c.pool, t.owes = false := by
      simpa [SuppressionSafe, suppressionSafe] using hG
    have hanchored := fileAnchored_of_restart h howes
    refine ⟨⟨⟨h.gate.1.within, fun _ => ⟨hanchored, hanchored⟩⟩, fun i t ht => (by cases ht)⟩,
      fun i hi => (by cases hi), fun n hn => ?_⟩
    rcases h.rows n hn with hrow | ⟨t, ht, hpending⟩
    · exact .inl hrow
    · have hno := howes t ht
      rw [owes_of_pending hpending] at hno
      cases hno

theorem suppressionSound_start (cfg : RecorderConfig) (files : StateFiles) (store : Store) :
    SuppressionSound cfg (recorderStart files store) where
  gate := by
    refine ⟨⟨fun t ht => ?_, fun _ => ⟨fun t ht => ?_, fun t ht => ?_⟩⟩, fun i t ht => ?_⟩ <;>
      cases ht
  holder i hi := by cases hi
  rows n hn := absurd hn (Nat.not_lt_zero n)

end Run

/-- In a run in which no event is lost on its way to its row, every suppressed notification lies
    within the cooldown of an accepted event whose row is there or comes. -/
theorem suppression_backed (cfg : RecorderConfig) (files : StateFiles) (store : Store)
    (c : Conf Process RecorderThread)
    (h : Steps (recorderStep cfg) (SuppressionSafe cfg) (recorderStart files store) c) :
    ∀ t ∈ c.shared.suppressed, Backed cfg c t := by
  have hsound : SuppressionSound cfg c :=
    h.invariant_run (fun _ e _ hrun hK hG hs =>
      suppressionSound_step e (filesKnown_of_run hrun rfl) hK hG hs)
      (suppressionSound_start cfg files store)
  intro t ht
  obtain ⟨n, hwithin⟩ := hsound.gate.1.within t ht
  refine ⟨n, hwithin, ?_⟩
  have hlt : n < c.shared.accepted.length := by
    obtain ⟨q, u, hget, -⟩ := hwithin
    have hlt := (List.getElem?_eq_some_iff.mp hget).1
    rwa [Process.acceptedTimes, List.length_map] at hlt
  rcases hsound.rows n hlt with hrow | ⟨v, hv, hpending⟩
  · exact .inl hrow
  · obtain ⟨i, hi⟩ := List.mem_iff_getElem?.mp hv
    exact .inr ⟨i, v, hi, event_of_pending hpending, pending_inevitable hpending⟩

/-! ## Executions -/

/-- A call of `accept_event` that is suppressed. -/
def suppressing (i : ℕ) (t : ℚ) : List RecorderLife := (accepting i t).take 5

/-- The state file cannot be written after the anchor was moved in memory. -/
def unwritten : List RecorderLife :=
  (accepting 0 1000).take 8 ++ [.run (.sched 0 (.io .raise)), move 0, move 0] ++ suppressing 1 1010

/-- The process is killed before the row of the accepted event. -/
def forgotten : List RecorderLife := accepting 0 1000 ++ .restart :: suppressing 0 1010

/-- A notification whose event is older than the last one. -/
def overtaken : List RecorderLife := accepting 0 1000 ++ suppressing 1 900

/-- A second notification is suppressed while the worker of the first has not started. -/
theorem suppression_backed_pending :
    ∃ c, Steps (recorderStep sampleRecorder) (SuppressionSafe sampleRecorder) freshRecorder c ∧
      .finite 1010 ∈ c.shared.suppressed ∧ Backed sampleRecorder c (.finite 1010) := by
  let c := exec (guardedStep (recorderStep sampleRecorder) (SuppressionSafe sampleRecorder))
    freshRecorder (accepting 0 1000 ++ suppressing 1 1010)
  have hrun :
      Steps (recorderStep sampleRecorder) (SuppressionSafe sampleRecorder) freshRecorder c :=
    Steps.execGuarded (by with_unfolding_all decide)
  have hmem : .finite 1010 ∈ c.shared.suppressed := by with_unfolding_all decide
  exact ⟨c, hrun, hmem, suppression_backed sampleRecorder _ _ c hrun _ hmem⟩

/-- The gate suppresses without an event: after a state file that could not be written, after a
    restart before the row, and before the anchor. -/
theorem suppression_unbacked :
    (∃ c, Steps (recorderStep sampleRecorder) FiniteTimes freshRecorder c ∧
      .finite 1010 ∈ c.shared.suppressed ∧ c.shared.accepted = [] ∧
      ¬ Backed sampleRecorder c (.finite 1010)) ∧
    (∃ c, Steps (recorderStep sampleRecorder) FiniteTimes freshRecorder c ∧
      .finite 1010 ∈ c.shared.suppressed ∧ c.shared.acceptedTimes = [.finite 1000] ∧
      ¬ Backed sampleRecorder c (.finite 1010)) ∧
    ∃ c, Steps (recorderStep sampleRecorder) FiniteTimes freshRecorder c ∧
      .finite 900 ∈ c.shared.suppressed ∧ c.shared.acceptedTimes = [.finite 1000] ∧
      ¬ Backed sampleRecorder c (.finite 900) := by
  let after (es : List RecorderLife) :=
    exec (guardedStep (recorderStep sampleRecorder) FiniteTimes) freshRecorder es
  have hnone : (after unwritten).shared.accepted = [] := by with_unfolding_all decide
  have hlost : (after forgotten).shared.accepted = [.fresh (.finite 1000)] := by
    with_unfolding_all decide
  have hgone : (after forgotten).pool.map RecorderThread.event = [none] := by
    with_unfolding_all decide
  have htimes : (after overtaken).shared.acceptedTimes = [.finite 1000] := by
    with_unfolding_all decide
  refine ⟨⟨after unwritten, Steps.execGuarded (by with_unfolding_all decide),
    by with_unfolding_all decide, hnone, ?_⟩,
    ⟨after forgotten, Steps.execGuarded (by with_unfolding_all decide),
      by with_unfolding_all decide,
      by with_unfolding_all decide, ?_⟩,
    ⟨after overtaken, Steps.execGuarded (by with_unfolding_all decide),
      by with_unfolding_all decide, htimes, ?_⟩⟩
  · rintro ⟨n, ⟨q, u, hget, -⟩, -⟩
    rw [Process.acceptedTimes, hnone] at hget
    cases hget
  · rintro ⟨n, -, ⟨a, ha, hrow⟩ | ⟨i, t, ht, hevent, -⟩⟩
    · have hmem := List.mem_of_getElem? ha
      rw [hlost, List.mem_singleton] at hmem
      exact hrow (by rw [hmem]; rfl)
    · have hmem : t.event ∈ (after forgotten).pool.map RecorderThread.event :=
        List.mem_map_of_mem (List.mem_of_getElem? ht)
      rw [hgone, List.mem_singleton, hevent] at hmem
      cases hmem
  · rintro ⟨n, ⟨q, u, hget, hu, hle, -⟩, -⟩
    have hmem := List.mem_of_getElem? hget
    rw [htimes, List.mem_singleton] at hmem
    cases hmem
    cases hu
    norm_num at hle

end Babycat.Recorder
