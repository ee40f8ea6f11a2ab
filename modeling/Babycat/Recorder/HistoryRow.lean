/-
  Babycat.Recorder.HistoryRow

  The history row of an accepted event (FR-031).

  Every worker ends.  Where the insertion succeeds, the history of its event is
  one row with the event's time and the clip that was published and counted,
  exactly when the worker can process the payload, reads the second that the
  gate has read, and its report after the count returns for a counted clip
  and raises for another (`Processable`).
-/

import Babycat.Recorder.Cooldown
import Babycat.Recorder.Events
import Babycat.Recorder.Worker
import Babycat.Time.Calendar
import Mathlib.Data.Rat.Floor

namespace Babycat.Recorder

open Babycat.Conc Babycat.Time

/-! ## The row -/

/-- `time.strftime("%Y-%m-%dT%H:%M:%SZ", time.gmtime(t))`. -/
def createdText (t : ℚ) : String := String.ofList (DateTime.ofSeconds ⌊t⌋).iso

theorem createdText_inj {t u : ℚ} : createdText t = createdText u ↔ ⌊t⌋ = ⌊u⌋ := by
  refine ⟨fun h => ?_, fun h => by rw [createdText, createdText, h]⟩
  exact DateTime.ofSeconds_injective (DateTime.iso_injective (String.ofList_injective h))

/-- The history of the event is one row, with the time that the gate has read, and with the clip
    that was published and counted. -/
def Truthful (a : Accepted) : Prop :=
  ∃ (row : EventRow) (t : ℚ), a.rows = [row] ∧ a.time = .finite t ∧
    createdText row.createdAt = createdText t ∧
    ∀ c, row.clipName = some c ↔ a.published = some c ∧ a.counted = true

/-- The keywords can be gone through, the worker reads the second that the gate has read, and a
    report that is made returns for a counted clip and raises for another. -/
structure Processable (cfg : RecorderConfig) (p : Payload) (a : Accepted) : Prop where
  keywords : (matchedKeywords cfg p).isSome = true
  time : ∃ t u : ℚ, a.time = .finite t ∧ a.workerTime = some (.finite u) ∧ gmtime u = true ∧
    ⌊u⌋ = ⌊t⌋
  report : ∀ returned, a.reported = some returned → a.counted = returned

/-- The worker has inserted its row, or ended with an exception. -/
def WorkerPc.ended : WorkerPc → Bool
  | .event _ .done | .dead => true
  | _ => false

/-- The insertion of a row succeeds. -/
def RecorderThread.inserts : RecorderThread → RecorderChoice → Bool
  | .worker _ _ (.event _ (.insert _)), k => decide (k ≠ .io .raise)
  | _, _ => true

def rowsInserted (c : Conf Process RecorderThread) : RecorderLife → Bool
  | .run (.sched i k) => (c.pool[i]?).all fun t => t.inserts k
  | _ => true

def RowsInserted (c : Conf Process RecorderThread) (e : RecorderLife) : Prop :=
  rowsInserted c e = true

instance (c : Conf Process RecorderThread) (e : RecorderLife) : Decidable (RowsInserted c e) :=
  inferInstanceAs (Decidable (_ = true))

/-! ## What the record says at each step -/

/-- Nothing has been published for the event. -/
structure Unpublished (a : Accepted) : Prop where
  published : a.published = none
  counted : a.counted = false
  reported : a.reported = none

/-- The record of the event while its capture is at `pc`. -/
def Captured (name : String) (a : Accepted) : CapturePc → Prop
  | .base | .prune _ | .select | .ffmpeg | .encode | .publish _ _ => Unpublished a
  | .stat _ | .probe _ | .buildMeta _ | .writeSidecar _ | .replaceSidecar _ _ | .count _ =>
      a.published = some name ∧ a.counted = false ∧ a.reported = none
  | .report => a.published = some name ∧ a.reported = none

/-- The record of the event when its row is to name `clipName`. -/
def Outcome (name : String) (a : Accepted) (clipName : Option String) : Prop :=
  match a.reported with
  | some true => clipName = some name ∧ a.published = some name
  | some false => clipName = none ∧ a.published = some name
  | none => clipName = none ∧ a.counted = false

theorem Unpublished.outcome {name : String} {a : Accepted} (h : Unpublished a) :
    Outcome name a none := by
  rw [Outcome, h.reported]
  exact ⟨rfl, h.counted⟩

/-- The row tells the truth about the clip exactly when the report goes with the count. -/
theorem Outcome.clip_iff {name : String} {a : Accepted} {clipName : Option String}
    (h : Outcome name a clipName) :
    (∀ c, clipName = some c ↔ a.published = some c ∧ a.counted = true) ↔
      ∀ returned, a.reported = some returned → a.counted = returned := by
  cases hreported : a.reported with
  | none =>
      rw [Outcome, hreported] at h
      simp [h.1, h.2]
  | some returned =>
      cases returned with
      | true =>
          rw [Outcome, hreported] at h
          simp [h.1, h.2]
      | false =>
          rw [Outcome, hreported] at h
          simp [h.1, h.2]

section Capture

variable {cfg : ClipConfig} {mode : CaptureMode} {name : String} {s s' : Store} {k : Choice}
variable {a : Accepted} {pc : CapturePc}

/-- What the record says after a step of the capture. -/
def CaptureTold (name : String) (a : Accepted) : CaptureOutcome → Prop
  | .running pc => Captured name a pc
  | .returned none => Unpublished a
  | .returned clipName => Outcome name a clipName
  | .raised => Outcome name a none

theorem captureTold_next {o : CaptureOutcome} (ha : Captured name a pc)
    (h : captureNext cfg mode name s k pc = some (s', o)) :
    CaptureTold name (a.note s name (k = .raise) (.capture mode pc)) o := by
  cases pc with
  | base =>
      simp only [captureNext] at h
      split at h <;> cases h
      · exact ha.outcome
      · exact ha
  | prune pc =>
      obtain ⟨⟨b, o'⟩, -, heq⟩ := Option.map_eq_some_iff.mp h
      rcases o' with pc' | ⟨_ | _⟩ | _
      · cases heq
        exact ha
      · cases heq
        exact ha
      · cases mode <;> cases heq <;> exact ha
      · cases heq
        exact ha.outcome
  | select =>
      cases k with
      | raise =>
          cases h
          exact ha.outcome
      | _ =>
          cases h
          exact ha
  | ffmpeg =>
      cases h
      exact ha
  | encode =>
      simp only [captureNext] at h
      split at h <;> cases h
      · exact ha
      · exact ha
      · exact ha.outcome
      · exact ha
      · exact ha.outcome
  | publish size mtime =>
      simp only [captureNext] at h
      split at h <;> cases h <;> rename_i hpart
      · simp only [Accepted.note, if_pos hpart]
        exact ⟨rfl, ha.counted, ha.reported⟩
      · simp only [Accepted.note, if_neg hpart]
        exact ha
  | stat written =>
      simp only [captureNext] at h
      split at h <;> cases h
      · exact ha
      · show Outcome name a none
        rw [Outcome, ha.2.2]
        exact ⟨rfl, ha.2.1⟩
  | probe size =>
      cases h
      exact ha
  | buildMeta size =>
      simp only [captureNext] at h
      split at h <;> cases h
      · show Outcome name a none
        rw [Outcome, ha.2.2]
        exact ⟨rfl, ha.2.1⟩
      · exact ha
  | writeSidecar size =>
      simp only [captureNext] at h
      split at h <;> cases h <;> exact ha
  | replaceSidecar size sidecarSize =>
      cases h
      simp only [Accepted.note]
      split <;> exact ha
  | count size =>
      cases h
      exact ⟨ha.1, ha.2.2⟩
  | report =>
      simp only [captureNext] at h
      split at h <;> cases h <;> rename_i hk
      · have hraised : (!decide (k = .raise)) = false := by simp [hk]
        simp only [Accepted.note, CaptureTold, Outcome, hraised]
        exact ⟨trivial, ha.1⟩
      · have hreturned : (!decide (k = .raise)) = true := by simp [hk]
        simp only [Accepted.note, CaptureTold, Outcome, hreturned]
        exact ⟨trivial, ha.1⟩

/-- An exception that the step itself does not raise. -/
theorem Captured.fail (ha : Captured name a pc) :
    Outcome name (if pc = .report then { a with reported := some false } else a) none := by
  cases pc with
  | report => exact ⟨rfl, ha.1⟩
  | stat | probe | buildMeta | writeSidecar | replaceSidecar | count =>
      simp only [reduceCtorEq, if_false]
      rw [Outcome, ha.2.2]
      exact ⟨rfl, ha.2.1⟩
  | _ =>
      simp only [reduceCtorEq, if_false]
      exact ha.outcome

/-- What the record says when the worker is at `pc` of its event. -/
def EventTold (name : String) (a : Accepted) : EventPc → Prop
  | .capture _ pc => a.rows = [] ∧ Captured name a pc
  | .insert clipName => a.rows = [] ∧ Outcome name a clipName
  | .done => False

theorem eventTold_next {e : EventIn} {epc : EventPc} (hrows : a.rows = [])
    (ha : Captured (cfg.clipBase e.eventTime) a pc)
    (h : eventNext cfg e s k (.capture mode pc) = some (s', epc)) :
    EventTold (cfg.clipBase e.eventTime)
      (a.note s (cfg.clipBase e.eventTime) (k = .raise) (.capture mode pc)) epc := by
  obtain ⟨⟨b, o⟩, ho, heq⟩ := Option.map_eq_some_iff.mp h
  have htold := captureTold_next ha ho
  have hrows' :=
    (Accepted.note_rows a s (cfg.clipBase e.eventTime) (k = .raise) (.capture mode pc)).trans hrows
  rcases o with pc' | ⟨_ | clip⟩ | _
  · cases heq
    exact ⟨hrows', htold⟩
  · have hnone : Unpublished _ := htold
    cases mode <;> cases heq
    · exact ⟨hrows', hnone⟩
    · exact ⟨hrows', hnone.outcome⟩
  · cases heq
    exact ⟨hrows', htold⟩
  · cases heq
    exact ⟨hrows', htold⟩

end Capture

/-- What is known of the record of an event and of the thread that works on it. -/
def RowTold (cfg : RecorderConfig) (a : Accepted) : RecorderThread → Prop
  | .notify _ (.start _) | .worker _ _ .keywords => a.rows = [] ∧ Unpublished a
  | .worker _ p (.eventTime _) =>
      (matchedKeywords cfg p).isSome = true ∧ a.rows = [] ∧ Unpublished a
  | .worker _ p (.event e .done) =>
      (matchedKeywords cfg p).isSome = true ∧ a.workerTime = some (.finite e.eventTime) ∧
        gmtime e.eventTime = true ∧ ∃ row, a.rows = [row] ∧ row.createdAt = e.eventTime ∧
          Outcome (cfg.clips.clipBase e.eventTime) a row.clipName
  | .worker _ p (.event e pc) =>
      (matchedKeywords cfg p).isSome = true ∧ a.workerTime = some (.finite e.eventTime) ∧
        EventTold (cfg.clips.clipBase e.eventTime) a pc
  | .worker _ p .dead =>
      a.rows = [] ∧ ¬ ((matchedKeywords cfg p).isSome = true ∧
        ∃ u, a.workerTime = some (.finite u) ∧ gmtime u = true)
  | _ => True

section Run

variable {cfg : RecorderConfig} {c c' : Conf Process RecorderThread}

theorem WorkerStep.told {n : ℕ} {p : Payload} {s s' : Process} {k : RecorderChoice}
    {a a' : Accepted} {pc pc' : WorkerPc} (h : WorkerStep cfg p s s' k a a' pc pc')
    (hinsert : ∀ e clipName, pc = .event e (.insert clipName) → k ≠ .io .raise)
    (ha : RowTold cfg a (.worker n p pc)) : RowTold cfg a' (.worker n p pc') := by
  cases h with
  | keywords keywords hk => exact ⟨Option.isSome_iff_exists.mpr ⟨_, hk⟩, ha⟩
  | noKeywords hk =>
      refine ⟨ha.1, fun hdone => ?_⟩
      rw [hk] at hdone
      cases hdone.1
  | time keywords t ht =>
      obtain ⟨hkeywords, hrows, hunpublished⟩ := ha
      exact ⟨hkeywords, rfl, hrows,
        ⟨hunpublished.published, hunpublished.counted, hunpublished.reported⟩⟩
  | noTime keywords x hx hno => exact ⟨ha.2.1, fun hdone => hno _ hdone.2.choose_spec.1⟩
  | capture e mode cpc c epc he =>
      obtain ⟨hkeywords, htime, hrows, hcaptured⟩ := ha
      have htold := eventTold_next hrows hcaptured he
      have htime' : ∀ raises pc',
          (a.note s.store (cfg.clips.clipBase e.eventTime) raises pc').workerTime =
          some (.finite e.eventTime) := fun raises pc' => (Accepted.note_workerTime ..).trans htime
      cases epc with
      | done => exact absurd htold id
      | _ => exact ⟨hkeywords, htime' _ _, htold⟩
  | fail e mode cpc =>
      obtain ⟨hkeywords, htime, hrows, hcaptured⟩ := ha
      refine ⟨hkeywords, ?_, ?_, hcaptured.fail⟩
      · split <;> exact htime
      · split <;> exact hrows
  | insert e clipName hg =>
      obtain ⟨hkeywords, htime, hrows, houtcome⟩ := ha
      exact ⟨hkeywords, htime, hg, ⟨_, clipName, e.eventTime⟩, by rw [hrows]; rfl, rfl, houtcome⟩
  | noInsert e clipName hfail =>
      obtain ⟨-, htime, hrows, -⟩ := ha
      refine ⟨hrows, ?_⟩
      rintro ⟨-, u, hu, hg⟩
      cases htime.symm.trans hu
      rcases hfail with hfail | hfail
      · rw [hg] at hfail
        cases hfail
      · exact hinsert e clipName rfl hfail

theorem rowTold_step {e : RecorderLife} (howned : EventsOwned c) (h : Recorded (RowTold cfg) c)
    (hG : RowsInserted c e) (hs : recorderStep cfg c e = some c') : Recorded (RowTold cfg) c' := by
  refine recorded_step (fun p time n => ⟨rfl, rfl, rfl, rfl⟩) howned h hs ?_
  intro i k t s' t' n a he ht hn htn htn' ha htold
  subst he
  cases t with
  | notify p npc =>
      cases npc with
      | start m =>
          simp only [recorderNext, notifyNext] at hn
          split at hn <;> cases hn
          · cases htn'
          · exact ⟨a, ha, htold⟩
      | _ => cases htn
  | worker m p pc =>
      cases htn
      obtain ⟨⟨b, pc'⟩, hb, heq⟩ := Option.map_eq_some_iff.mp hn
      cases heq
      obtain ⟨a', ha', hstep⟩ := worker_step ha hb
      refine ⟨a', ha', hstep.told (fun e clipName hpc => ?_) htold⟩
      subst hpc
      simpa [RowsInserted, rowsInserted, ht, RecorderThread.inserts] using hG
  | _ => cases htn

theorem rowTold_of_run {files : StateFiles} {store : Store}
    (h : Steps (recorderStep cfg) RowsInserted (recorderStart files store) c) :
    Recorded (RowTold cfg) c :=
  h.invariant_run (fun _ _ _ hrun ha hG hs => rowTold_step (eventsOwned_of_run hrun rfl) ha hG hs)
    fun i t n ht => (by cases ht)

/-- The record of an event whose worker has ended. -/
theorem truthful_iff {n : ℕ} {p : Payload} {pc : WorkerPc} {a : Accepted} (hpc : pc.ended = true)
    (h : RowTold cfg a (.worker n p pc)) : Truthful a ↔ Processable cfg p a := by
  cases pc with
  | dead =>
      obtain ⟨hrows, hdead⟩ := h
      constructor
      · rintro ⟨row, t, hrow, -⟩
        rw [hrows] at hrow
        cases hrow
      · intro hp
        obtain ⟨t, u, -, hu, hg, -⟩ := hp.time
        exact absurd ⟨hp.keywords, u, hu, hg⟩ hdead
  | event e epc =>
      cases epc with
      | done =>
          obtain ⟨hkeywords, htime, hg, row, hrow, hcreated, houtcome⟩ := h
          constructor
          · rintro ⟨row', t, hrow', ht, htext, hclip⟩
            cases hrow.symm.trans hrow'
            rw [hcreated] at htext
            exact ⟨hkeywords, ⟨t, _, ht, htime, hg, createdText_inj.mp htext⟩,
              houtcome.clip_iff.mp hclip⟩
          · intro hp
            obtain ⟨t, u, ht, hu, -, hfloor⟩ := hp.time
            cases htime.symm.trans hu
            exact ⟨row, t, hrow, ht, by rw [hcreated]; exact createdText_inj.mpr hfloor,
              houtcome.clip_iff.mpr hp.report⟩
      | _ => cases hpc
  | _ => cases hpc

/-- A worker that has not ended can move. -/
theorem worker_moves {i n : ℕ} {p : Payload} {pc : WorkerPc} (hpc : pc.ended = false)
    (s : Process) :
    ∃ k, (RecorderThread.worker n p pc).inserts k = true ∧
      ((recorder cfg).next i s (.worker n p pc) k).isSome = true := by
  cases pc with
  | keywords => exact ⟨.io .go, rfl, rfl⟩
  | eventTime keywords => exact ⟨.clock 0, rfl, eventTime_moves n p keywords s⟩
  | event e epc =>
      cases epc with
      | capture mode cpc =>
          obtain ⟨c, hc⟩ := capture_moves n p e mode cpc s
          exact ⟨.io c, rfl, hc⟩
      | insert clipName => exact ⟨.io .go, rfl, insert_moves n p e clipName s⟩
      | done => cases hpc
  | dead => cases hpc

/-- The thread is the worker of event `n`, and has ended. -/
def EndsWork (n : ℕ) (t : RecorderThread) : Prop := ∃ p pc, t = .worker n p pc ∧ pc.ended = true

/-- Every worker ends, whatever the capture raises and the other threads do. -/
theorem ending_inevitable {i n : ℕ} {p : Payload} {pc : WorkerPc} (hpc : pc.ended = false) :
    Inevitable (recorder cfg) (fun t k => t.inserts k = true) (fun _ _ t => EndsWork n t) i
      (.worker n p pc) := by
  refine Inevitable.of_rank Rank.lower_wf RecorderThread.rank
    (J := fun t => ∃ pc, t = .worker n p pc ∧ pc.ended = false) ?_ ?_ ⟨pc, rfl, hpc⟩
  · rintro _ s ⟨pc, rfl, hpc⟩
    exact worker_moves hpc s
  · rintro _ s k s' t' ⟨pc, rfl, hpc⟩ - hn
    obtain ⟨⟨b, pc'⟩, hb, heq⟩ := Option.map_eq_some_iff.mp hn
    cases heq
    cases hended : pc'.ended with
    | true => exact .inl ⟨p, pc', rfl, hended⟩
    | false => exact .inr ⟨⟨pc', rfl, hended⟩, workerNext_rank hb⟩

end Run

/-- Every worker ends, and the history of its event is one true row if and only if its payload
    could be processed. -/
theorem one_truthful_row (cfg : RecorderConfig) (files : StateFiles) (store : Store)
    (c : Conf Process RecorderThread)
    (h : Steps (recorderStep cfg) RowsInserted (recorderStart files store) c) (i n : ℕ)
    (p : Payload) (pc : WorkerPc) (ht : c.pool[i]? = some (.worker n p pc)) :
    ∃ a, c.shared.accepted[n]? = some a ∧
      if pc.ended then Truthful a ↔ Processable cfg p a
      else Inevitable (recorder cfg) (fun t k => t.inserts k = true) (fun _ _ t => EndsWork n t) i
        (.worker n p pc) := by
  obtain ⟨a, ha, htold⟩ := rowTold_of_run h i _ n ht rfl
  refine ⟨a, ha, ?_⟩
  cases hpc : pc.ended with
  | true =>
      rw [if_pos rfl]
      exact truthful_iff hpc htold
  | false =>
      rw [if_neg Bool.false_ne_true]
      exact ending_inevitable hpc

/-! ## Executions -/

/-- A worker from the publishing of its clip to its end. -/
def recording (i : ℕ) (report : Choice) : List RecorderLife :=
  List.replicate 4 (move i) ++
    [.run (.sched i (.io (.written 300))), move i, move i, .run (.sched i (.io report)), move i]

/-- An event whose clip of `size` bytes is published. -/
def clipped (size : ℕ) (report : Choice) : List RecorderLife :=
  accepting 0 1000 ++ publishing 0 size ++ recording 0 report

/-- A notification with the body `p`, to the end of the gate. -/
def accepted (p : Payload) : List RecorderLife :=
  .run (.enter (.notify p)) :: List.replicate 12 (move 0)

/-- A notification without an event time: the gate and the worker read the clock. -/
def untimed (gate worker : ℚ) : List RecorderLife :=
  .run (.enter (.notify [])) :: .run (.sched 0 (.clock gate)) ::
    List.replicate 13 (move 0) ++ [.run (.sched 0 (.clock worker)), .run (.sched 0 .fail), move 0]

/-- The state after a run in which the insertions succeed. -/
def recorded (es : List RecorderLife) : Conf Process RecorderThread :=
  exec (guardedStep (recorderStep sampleRecorder) RowsInserted) freshRecorder es

/-- The event of a worker that has ended. -/
def RecorderThread.endedEvent : RecorderThread → Option ℕ
  | .worker n _ pc => if pc.ended then some n else none
  | _ => none

/-- The worker of the first event has ended, and its history `rows` is not true. -/
def EndsUntrue (c : Conf Process RecorderThread) (rows : List EventRow) : Prop :=
  ∃ p pc a, c.pool[0]? = some (.worker 0 p pc) ∧ pc.ended = true ∧
    c.shared.accepted[0]? = some a ∧ a.rows = rows ∧ ¬ Truthful a

theorem endedEvent_eq_some {t : RecorderThread} {n : ℕ} (h : t.endedEvent = some n) :
    ∃ p pc, t = .worker n p pc ∧ pc.ended = true := by
  cases t with
  | worker m p pc =>
      simp only [RecorderThread.endedEvent] at h
      split at h
      · cases h
        exact ⟨p, pc, rfl, ‹_›⟩
      · cases h
  | _ => cases h

theorem endsUntrue (es : List RecorderLife) (a : Accepted) (Q : Process → Prop)
    (hrun : (run (guardedStep (recorderStep sampleRecorder) RowsInserted) freshRecorder es).isSome =
      true)
    (hend : ((recorded es).pool[0]?).bind RecorderThread.endedEvent = some 0)
    (hrecord : (recorded es).shared.accepted[0]? = some a)
    (hQ : Q (recorded es).shared) (h : ¬ Truthful a) :
    ∃ c, Steps (recorderStep sampleRecorder) RowsInserted freshRecorder c ∧
      Q c.shared ∧ EndsUntrue c a.rows := by
  obtain ⟨t, ht, hevent⟩ := Option.bind_eq_some_iff.mp hend
  obtain ⟨p, pc, rfl, hpc⟩ := endedEvent_eq_some hevent
  exact ⟨_, Steps.execGuarded hrun, hQ, p, pc, a, ht, hpc, hrecord, rfl, h⟩

/-- An event whose clip is counted and reported. -/
theorem one_truthful_row_clipped :
    ∃ c p pc a, Steps (recorderStep sampleRecorder) RowsInserted freshRecorder c ∧
      c.pool[0]? = some (.worker 0 p pc) ∧ pc.ended = true ∧
      c.shared.accepted[0]? = some a ∧ a.rows = [⟨"fire", some "20250101_120000_000", 1000⟩] ∧
      (Truthful a ↔ Processable sampleRecorder p a) := by
  have hrun : Steps (recorderStep sampleRecorder) RowsInserted freshRecorder
      (recorded (clipped 20000 .go)) := Steps.execGuarded (by with_unfolding_all decide)
  have hend :
      ((recorded (clipped 20000 .go)).pool[0]?).bind RecorderThread.endedEvent = some 0 := by
    with_unfolding_all decide
  have hrows : ((recorded (clipped 20000 .go)).shared.accepted[0]?).map Accepted.rows =
      some [⟨"fire", some "20250101_120000_000", 1000⟩] := by
    with_unfolding_all decide
  obtain ⟨t, ht, hevent⟩ := Option.bind_eq_some_iff.mp hend
  obtain ⟨p, pc, rfl, hpc⟩ := endedEvent_eq_some hevent
  obtain ⟨a, ha, hiff⟩ := one_truthful_row sampleRecorder _ _ _ hrun 0 0 p pc ht
  rw [if_pos hpc] at hiff
  rw [ha] at hrows
  exact ⟨_, p, pc, a, hrun, ht, hpc, ha, Option.some.inj hrows, hiff⟩

theorem not_truthful_of_no_row {a : Accepted} (h : a.rows = []) : ¬ Truthful a := by
  rintro ⟨row, t, hrow, -⟩
  rw [h] at hrow
  cases hrow

/-- Keywords that are no list and a time that is not finite end the worker without a row; a report
    that raises and a clip that is too small give the row the wrong clip, and the clock the wrong
    time. -/
theorem rows_not_truthful :
    (∃ c, Steps (recorderStep sampleRecorder) RowsInserted freshRecorder c ∧
      c.shared.acceptedTimes = [.finite 1000] ∧ EndsUntrue c []) ∧
    (∃ c, Steps (recorderStep sampleRecorder) RowsInserted freshRecorder c ∧
      c.shared.acceptedTimes = [.infinite false] ∧ EndsUntrue c []) ∧
    (∃ c, Steps (recorderStep sampleRecorder) RowsInserted freshRecorder c ∧
      c.shared.store.count = 1 ∧ EndsUntrue c [⟨"fire", none, 1000⟩]) ∧
    (∃ c, Steps (recorderStep sampleRecorder) RowsInserted freshRecorder c ∧
      c.shared.store.count = 0 ∧ EndsUntrue c [⟨"fire", some "20250101_120000_000", 1000⟩]) ∧
    ∃ c, Steps (recorderStep sampleRecorder) RowsInserted freshRecorder c ∧
      c.shared.acceptedTimes = [.finite 1000] ∧ EndsUntrue c [⟨"", none, 1002⟩] := by
  let name := "20250101_120000_000"
  refine ⟨?_, ?_, ?_, ?_, ?_⟩
  · exact endsUntrue (accepted [("event_time", .float (.finite 1000)), ("keywords", .int 5)] ++
        [move 0, move 0])
      (.fresh (.finite 1000)) (fun s => s.acceptedTimes = [.finite 1000])
      (by with_unfolding_all decide) (by with_unfolding_all decide) (by with_unfolding_all decide)
      (by with_unfolding_all decide)
      (not_truthful_of_no_row rfl)
  · exact endsUntrue (accepted [("event_time", .float (.infinite false))] ++
        List.replicate 3 (move 0))
      { Accepted.fresh (.infinite false) with workerTime := some (.infinite false) }
      (fun s => s.acceptedTimes = [.infinite false])
      (by decide) (by decide) (by decide) (by decide)
      (not_truthful_of_no_row rfl)
  · refine endsUntrue (clipped 20000 .raise)
      ⟨.finite 1000, some (.finite 1000), some name, some name, true, some false,
        [⟨"fire", none, 1000⟩]⟩
      (fun s => s.store.count = 1)
      (by with_unfolding_all decide) (by with_unfolding_all decide) (by with_unfolding_all decide)
      (by with_unfolding_all decide) ?_
    rintro ⟨row, t, hrow, -, -, hclip⟩
    cases hrow
    cases (hclip name).mpr ⟨rfl, rfl⟩
  · refine endsUntrue (clipped 5000 .go)
      ⟨.finite 1000, some (.finite 1000), some name, some name, false, some true,
        [⟨"fire", some name, 1000⟩]⟩
      (fun s => s.store.count = 0)
      (by with_unfolding_all decide) (by with_unfolding_all decide) (by with_unfolding_all decide)
      (by with_unfolding_all decide) ?_
    rintro ⟨row, t, hrow, -, -, hclip⟩
    cases hrow
    cases ((hclip name).mp rfl).2
  · refine endsUntrue (untimed 1000 1002)
      ⟨.finite 1000, some (.finite 1002), none, none, false, none, [⟨"", none, 1002⟩]⟩
      (fun s => s.acceptedTimes = [.finite 1000])
      (by with_unfolding_all decide) (by with_unfolding_all decide) (by with_unfolding_all decide)
      (by with_unfolding_all decide) ?_
    rintro ⟨row, t, hrow, ht, htext, -⟩
    cases hrow
    cases ht
    exact absurd (createdText_inj.mp htext) (by decide)

end Babycat.Recorder
