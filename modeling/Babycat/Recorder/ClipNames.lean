/-
  Babycat.Recorder.ClipNames

  The base name of a clip (`_event_base_name`) and when two events share one.

  The name is the local second of the event time with its milliseconds.  Under
  one UTC offset the cooldown keeps the seconds of two events apart; when the
  clock is set back a local second comes twice, and a worker whose payload has
  no event time reads the clock anew.  In the runs in which neither repeats a
  stamp (`NamesApart`), no capture meets the clip or the sidecar of another
  event under its name.
-/

import Babycat.Recorder.Cooldown
import Babycat.Recorder.Events
import Babycat.Time.Calendar
import Mathlib.Data.Int.Log
import Mathlib.Data.Rat.Floor

namespace Babycat.Recorder

open Babycat.Conc Babycat.Time

/-! ## The name -/

/-- `int(x)` of a float. -/
def truncate (q : ℚ) : ℤ := if 0 ≤ q then ⌊q⌋ else ⌈q⌉

/-- The float nearest to `q`, the even one of two. -/
def roundFloat (q : ℚ) : ℚ :=
  if q = 0 then 0
  else
    let ulp : ℚ := 2 ^ (Int.log 2 |q| - 52)
    let below := ⌊q / ulp⌋
    let rest := q / ulp - below
    (if rest < 1 / 2 ∨ (rest = 1 / 2 ∧ below % 2 = 0) then below else below + 1) * ulp

/-- `int((event_time - int(event_time)) * 1000)`. -/
def millis (t : ℚ) : ℤ := truncate (roundFloat ((t - truncate t) * 1000))

/-- `time.localtime` in a zone with the UTC offset `offset n` at second `n`. -/
def localSecond (offset : ℤ → ℤ) (t : ℚ) : ℤ := ⌊t⌋ + offset ⌊t⌋

def eventBaseName (offset : ℤ → ℤ) (t : ℚ) : String :=
  String.ofList ((DateTime.ofSeconds (localSecond offset t)).compact ++ '_' :: padInt 3 (millis t))

theorem eventBaseName_injective {offset : ℤ → ℤ} {t u : ℚ}
    (h : eventBaseName offset t = eventBaseName offset u) :
    localSecond offset t = localSecond offset u ∧ millis t = millis u := by
  obtain ⟨hstamp, hmillis⟩ := DateTime.compact_numbered_injective (String.ofList_injective h)
  exact ⟨DateTime.ofSeconds_injective hstamp, hmillis⟩

example : eventBaseName (fun _ => 32400) (1767225600 + 1 / 4) = "20260101_090000_250" := by
  with_unfolding_all decide

/-- While the offset does not go back, times a second apart have different local seconds. -/
theorem localSecond_lt {offset : ℤ → ℤ} {t u : ℚ} (hgap : 1 ≤ u - t)
    (hoffset : offset ⌊t⌋ ≤ offset ⌊u⌋) : localSecond offset t < localSecond offset u := by
  have hfloor : ⌊t⌋ + 1 ≤ ⌊u⌋ := by
    have hle : ⌊t + 1⌋ ≤ ⌊u⌋ := Int.floor_le_floor (by linarith)
    rwa [Int.floor_add_one] at hle
  simp only [localSecond]
  omega

/-- The recorder in a zone. -/
def RecorderConfig.zoned (cfg : RecorderConfig) (offset : ℤ → ℤ) : RecorderConfig :=
  { cfg with clips := { cfg.clips with clipBase := eventBaseName offset } }

/-! ## The runs in which no stamp comes twice -/

/-- The time `u` of event `n` does not repeat the stamp of the time `v` that the worker of event
    `m` has read; it cannot when both are the times of the gate and the offset has not gone
    back. -/
def stampApart (offset : ℤ → ℤ) (accepted : List Accepted) (m n : ℕ) (v u : ℚ) : Bool :=
  let first := if m < n then v else u
  let second := if m < n then u else v
  (((accepted[m]?).map Accepted.time == some (.finite v)) &&
    ((accepted[n]?).map Accepted.time == some (.finite u)) &&
    decide (offset ⌊first⌋ ≤ offset ⌊second⌋)) ||
  decide (¬ (localSecond offset v = localSecond offset u ∧ millis v = millis u))

/-- A worker does not read a time with the stamp of another event. -/
def namesApart (cfg : RecorderConfig) (offset : ℤ → ℤ) (c : Conf Process RecorderThread) :
    RecorderLife → Bool
  | .run (.sched i k) =>
      match c.pool[i]? with
      | some (.worker n p (.eventTime _)) =>
          match readEventTime cfg p k with
          | some (some (.finite u)) => (List.range c.shared.accepted.length).all fun m =>
              m == n || match (c.shared.accepted[m]?).bind Accepted.workerTime with
                | some (.finite v) => stampApart offset c.shared.accepted m n v u
                | _ => true
          | _ => true
      | _ => true
  | _ => true

def NamesApart (cfg : RecorderConfig) (offset : ℤ → ℤ) (c : Conf Process RecorderThread)
    (e : RecorderLife) : Prop :=
  FiniteTimes c e ∧ namesApart cfg offset c e = true

instance (cfg : RecorderConfig) (offset : ℤ → ℤ) (c : Conf Process RecorderThread)
    (e : RecorderLife) : Decidable (NamesApart cfg offset c e) :=
  inferInstanceAs (Decidable (_ ∧ _ = true))

/-! ## The names of the recorded events -/

/-- The files of an event have the name of the time that its worker has read. -/
def EntryNamed (offset : ℤ → ℤ) (a : Accepted) : Prop :=
  ∀ name, a.published = some name ∨ a.sidecar = some name →
    ∃ v, a.workerTime = some (.finite v) ∧ name = eventBaseName offset v

/-- What the thread of an event knows of its record. -/
def EventNamed (offset : ℤ → ℤ) (a : Accepted) (t : RecorderThread) : Prop :=
  EntryNamed offset a ∧
    match t with
    | .notify _ (.start _) | .worker _ _ .keywords | .worker _ _ (.eventTime _) =>
        a.workerTime = none
    | .worker _ _ (.event e _) => a.workerTime = some (.finite e.eventTime)
    | _ => True

/-- No two workers have read times with the same stamp. -/
def StampsApart (offset : ℤ → ℤ) (accepted : List Accepted) : Prop :=
  ∀ (m n : ℕ) (a b : Accepted) (v u : ℚ), m ≠ n → accepted[m]? = some a → accepted[n]? = some b →
    a.workerTime = some (.finite v) → b.workerTime = some (.finite u) →
    ¬ (localSecond offset v = localSecond offset u ∧ millis v = millis u)

section Step

variable {cfg : RecorderConfig} {offset : ℤ → ℤ} {n : ℕ} {p : Payload} {s s' : Process}
variable {k : RecorderChoice} {a a' : Accepted} {pc pc' : WorkerPc} {t : RecorderThread}

theorem EntryNamed.congr (h : EntryNamed offset a) (htime : a'.workerTime = a.workerTime)
    (hpublished : a'.published = a.published) (hsidecar : a'.sidecar = a.sidecar) :
    EntryNamed offset a' := by
  intro name hname
  rw [hpublished, hsidecar] at hname
  rw [htime]
  exact h name hname

/-- A note of the worker keeps the name of the event's files. -/
theorem EntryNamed.note (h : EntryNamed offset a) {store : Store} {u : ℚ} {raises : Bool}
    {epc : EventPc} (hu : a.workerTime = some (.finite u)) :
    EntryNamed offset (a.note store (eventBaseName offset u) raises epc) ∧
      (a.note store (eventBaseName offset u) raises epc).workerTime = some (.finite u) := by
  simp only [Accepted.note]
  split
  · split
    · refine ⟨fun name hname => ?_, hu⟩
      rcases hname with hname | hname
      · exact ⟨u, hu, (Option.some.inj hname).symm⟩
      · exact h name (.inr hname)
    · exact ⟨h, hu⟩
  · split
    · exact ⟨h, hu⟩
    · refine ⟨fun name hname => ?_, hu⟩
      rcases hname with hname | hname
      · exact h name (.inl hname)
      · exact ⟨u, hu, (Option.some.inj hname).symm⟩
  · exact ⟨h, hu⟩
  · exact ⟨h, hu⟩
  · exact ⟨h, hu⟩

theorem WorkerStep.named (h : WorkerStep (cfg.zoned offset) p s s' k a a' pc pc')
    (ha : EventNamed offset a (.worker n p pc)) : EventNamed offset a' (.worker n p pc') := by
  obtain ⟨hentry, htime⟩ := ha
  cases h with
  | keywords keywords h => exact ⟨hentry, htime⟩
  | noKeywords h => exact ⟨hentry, trivial⟩
  | time keywords u h | noTime keywords u h hx =>
      have hnone : a.workerTime = none := htime
      have hclear : ∀ name, ¬ (a.published = some name ∨ a.sidecar = some name) := by
        intro name hname
        obtain ⟨v, hv, -⟩ := hentry name hname
        rw [hnone] at hv
        cases hv
      exact ⟨fun name hname => absurd hname (hclear name), by trivial⟩
  | capture e mode cpc c epc h => exact hentry.note htime
  | fail e mode cpc =>
      split
      · exact ⟨hentry.congr rfl rfl rfl, htime⟩
      · exact ⟨hentry, htime⟩
  | insert e clipName h => exact ⟨hentry.congr rfl rfl rfl, htime⟩
  | noInsert e clipName h => exact ⟨hentry, trivial⟩

/-- Only the reading of the clock or of the payload changes the time of a worker. -/
theorem WorkerStep.workerTime (h : WorkerStep cfg p s s' k a a' pc pc') :
    a'.workerTime = a.workerTime ∨
      ∃ keywords x, pc = .eventTime keywords ∧ readEventTime cfg p k = some x ∧
        a'.workerTime = x := by
  cases h with
  | time keywords t h => exact .inr ⟨keywords, _, rfl, h, rfl⟩
  | noTime keywords x h hx => exact .inr ⟨keywords, x, rfl, h, rfl⟩
  | capture e mode cpc c epc h =>
      exact .inl (Accepted.note_workerTime ..)
  | fail e mode cpc => left; split <;> rfl
  | _ => exact .inl rfl

/-- The stamps stay apart when only the time of one event changes, to one apart from the others. -/
theorem StampsApart.change {l l' : List Accepted} (h : StampsApart offset l)
    (hother : ∀ m, m ≠ n → ∀ b, l'[m]? = some b → l[m]? = some b)
    (hown : ∀ m a b v u, m ≠ n → l'[n]? = some a → l[m]? = some b →
      a.workerTime = some (.finite u) → b.workerTime = some (.finite v) →
      ¬ (localSecond offset v = localSecond offset u ∧ millis v = millis u)) :
    StampsApart offset l' := by
  intro m m' a b v u hne ha hb hv hu hsame
  by_cases hm : m = n
  · subst hm
    exact hown m' a b u v hne.symm ha (hother m' hne.symm b hb) hv hu
      ⟨hsame.1.symm, hsame.2.symm⟩
  · by_cases hm' : m' = n
    · subst hm'
      exact hown m b a v u hm hb (hother m hm a ha) hu hv hsame
    · exact h m m' a b v u hne (hother m hm a ha) (hother m' hm' b hb) hv hu hsame

/-- Times of the gate under an offset that has not gone back have different stamps. -/
theorem stampApart_sound {m : ℕ} {v u : ℚ} (hcool : 1 ≤ cfg.cooldown) (hne : m ≠ n)
    (hspaced : s.acceptedTimes.Pairwise (Apart cfg.cooldown))
    (h : stampApart offset s.accepted m n v u = true) :
    ¬ (localSecond offset v = localSecond offset u ∧ millis v = millis u) := by
  simp only [stampApart, Bool.or_eq_true, Bool.and_eq_true, decide_eq_true_eq, beq_iff_eq] at h
  rcases h with ⟨⟨hv, hu⟩, hoffset⟩ | happart
  · have hcool' : (1 : ℚ) ≤ cfg.cooldown := by exact_mod_cast hcool
    have hlt : ∀ {j l : ℕ} {x y : ℚ}, j < l →
        (s.accepted[j]?).map Accepted.time = some (.finite x) →
        (s.accepted[l]?).map Accepted.time = some (.finite y) → offset ⌊x⌋ ≤ offset ⌊y⌋ →
        localSecond offset x < localSecond offset y := by
      intro j l x y hjl hx hy hoff
      rw [← List.getElem?_map] at hx hy
      obtain ⟨hj, hx⟩ := List.getElem?_eq_some_iff.mp hx
      obtain ⟨hl, hy⟩ := List.getElem?_eq_some_iff.mp hy
      obtain ⟨x', y', hx', hy', -, hgap⟩ := List.pairwise_iff_getElem.mp hspaced j l hj hl hjl
      cases hx.symm.trans hx'
      cases hy.symm.trans hy'
      exact localSecond_lt (by linarith) hoff
    rintro ⟨hsecond, -⟩
    by_cases hmn : m < n
    · simp only [if_pos hmn] at hoffset
      exact absurd hsecond (ne_of_lt (hlt hmn hv hu hoffset))
    · simp only [if_neg hmn] at hoffset
      exact absurd hsecond (ne_of_gt (hlt (by omega) hu hv hoffset))
  · exact happart

end Step

/-- What holds in every run in which no stamp comes twice. -/
structure NamesSound (offset : ℤ → ℤ) (c : Conf Process RecorderThread) : Prop where
  entries : ∀ (n : ℕ) (a : Accepted), c.shared.accepted[n]? = some a → EntryNamed offset a
  threads : Recorded (EventNamed offset) c
  apart : StampsApart offset c.shared.accepted

section Run

variable {cfg : RecorderConfig} {offset : ℤ → ℤ} {c c' : Conf Process RecorderThread}

/-- The guard at the step at which a worker has its time. -/
theorem NamesApart.clear {i n : ℕ} {k : RecorderChoice} {p : Payload} {keywords : List String}
    {u : ℚ} (hG : NamesApart cfg offset c (.run (.sched i k)))
    (ht : c.pool[i]? = some (.worker n p (.eventTime keywords)))
    (hread : readEventTime cfg p k = some (some (.finite u))) (m : ℕ) (b : Accepted) (v : ℚ)
    (hne : m ≠ n) (hb : c.shared.accepted[m]? = some b) (hv : b.workerTime = some (.finite v)) :
    stampApart offset c.shared.accepted m n v u = true := by
  have hall := hG.2
  simp only [namesApart, ht, hread, List.all_eq_true, List.mem_range] at hall
  have hm := hall m (List.getElem?_eq_some_iff.mp hb).1
  simpa [hb, hv, hne] using hm

/-- The stamp of an event after a step of its thread. -/
theorem own_apart {i m n : ℕ} {k : RecorderChoice} {t t' : RecorderThread} {s' : Process}
    {a b : Accepted} {v u : ℚ} (hcool : 1 ≤ cfg.cooldown) (hspaced : Spaced cfg c.shared)
    (h : NamesSound offset c) (hG : NamesApart (cfg.zoned offset) offset c (.run (.sched i k)))
    (ht : c.pool[i]? = some t) (hn : recorderNext (cfg.zoned offset) i c.shared t k = some (s', t'))
    (htn : t.event = some n) (hm : m ≠ n) (ha : s'.accepted[n]? = some a)
    (hb : c.shared.accepted[m]? = some b) (hu : a.workerTime = some (.finite u))
    (hv : b.workerTime = some (.finite v)) :
    ¬ (localSecond offset v = localSecond offset u ∧ millis v = millis u) := by
  obtain ⟨a₀, ha₀, -⟩ := h.threads i t n ht htn
  cases t with
  | notify p npc =>
      cases npc with
      | start l =>
          simp only [recorderNext, notifyNext] at hn
          cases hn
          exact h.apart m n b a v u hm hb ha hv hu
      | _ => cases htn
  | worker l p pc =>
      cases htn
      obtain ⟨⟨s₁, pc'⟩, hs₁, heq⟩ := Option.map_eq_some_iff.mp hn
      cases heq
      obtain ⟨a', ha', hstep⟩ := worker_step ha₀ hs₁
      cases ha.symm.trans ha'
      rcases hstep.workerTime with hsame | ⟨keywords, x, rfl, hread, hx⟩
      · exact h.apart m _ b a₀ v u hm hb ha₀ hv (hsame ▸ hu)
      · rw [← hx, hu] at hread
        exact stampApart_sound hcool hm hspaced.apart (hG.clear ht hread m b v hm hb hv)
  | _ => cases htn

theorem namesSound_step (hcool : 1 ≤ cfg.cooldown) {e : RecorderLife} (howned : EventsOwned c)
    (hspaced : Spaced cfg c.shared) (h : NamesSound offset c)
    (hG : NamesApart (cfg.zoned offset) offset c e)
    (hs : recorderStep (cfg.zoned offset) c e = some c') : NamesSound offset c' := by
  have hthreads : Recorded (EventNamed offset) c' := by
    have hfresh : ∀ time, EntryNamed offset (.fresh time) := fun time name hname => by
      rcases hname with hname | hname <;> cases hname
    refine recorded_step (fun p time n => ⟨hfresh time, rfl⟩) howned h.threads hs ?_
    intro i k t s' t' n a _ ht hn htn htn' ha hA
    cases t with
    | notify p npc =>
        cases npc with
        | start m =>
            simp only [recorderNext, notifyNext] at hn
            split at hn <;> cases hn
            · cases htn'
            · exact ⟨a, ha, hA⟩
        | _ => cases htn
    | worker m p pc =>
        cases htn
        obtain ⟨⟨b, pc'⟩, hb, heq⟩ := Option.map_eq_some_iff.mp hn
        cases heq
        obtain ⟨a', ha', hstep⟩ := worker_step ha hb
        exact ⟨a', ha', hstep.named hA⟩
    | _ => cases htn
  rcases life_cases hs with ⟨x, rfl, hx⟩ | ⟨rfl, rfl⟩
  · rcases Prog.step_cases hx with ⟨r, rfl, rfl⟩ | ⟨i, k, t, s, t', rfl, ht, hn, rfl⟩ |
        ⟨y, s, rfl, -, -⟩
    · exact ⟨h.entries, hthreads, h.apart⟩
    · have hrecord := next_record hn
      have hi : (c.pool.set i t')[i]? = some t' := by rw [getElem?_set_of_get ht, if_pos rfl]
      refine ⟨fun m a ha => ?_, hthreads, ?_⟩
      · by_cases hm : t'.event = some m
        · obtain ⟨b, hb, hnamed⟩ := hthreads i t' m hi hm
          cases ha.symm.trans hb
          exact hnamed.1
        · exact h.entries m a (hrecord.old hm ▸ ha)
      · cases hevent : t'.event with
        | none =>
            have hold : ∀ m, s.accepted[m]? = c.shared.accepted[m]? := fun m =>
              hrecord.old (by rw [hevent]; exact (Option.some_ne_none m).symm)
            intro m m' a b v u hne ha hb
            exact h.apart m m' a b v u hne (hold m ▸ ha) (hold m' ▸ hb)
        | some n =>
            refine h.apart.change (n := n) (fun m hm b hb => ?_) fun m a b v u hm ha hb hu hv => ?_
            · rw [← hrecord.old (n := m) (by rw [hevent]; simpa using hm.symm)]
              exact hb
            · rcases hrecord.event hevent with htn | ⟨rfl, hgrown⟩
              · exact own_apart hcool hspaced h hG ht hn htn hm ha hb hu hv
              · -- the event that the gate has let through has no worker yet
                cases hrecord with
                | accept p time _ _ hs =>
                    rw [hs, List.getElem?_concat_length] at ha
                    cases ha
                    cases hu
                | note _ _ _ _ _ hs => rw [hs, List.length_modify] at hgrown; omega
                | keep _ hs => rw [hs] at hgrown; omega
    · exact y.elim
  · exact ⟨h.entries, hthreads, h.apart⟩

theorem namesSound_of_run {files : StateFiles} {store : Store} (hcool : 1 ≤ cfg.cooldown)
    (h : Steps (recorderStep (cfg.zoned offset)) (NamesApart (cfg.zoned offset) offset)
      (recorderStart files store) c) : NamesSound offset c := by
  refine h.invariant_run (fun a e b hrun ha hG hs => ?_)
    ⟨fun n a ha => (by cases ha), fun i t n ht => (by cases ht),
      fun m n a b v u _ ha => (by cases ha)⟩
  have hspaced : Spaced (cfg.zoned offset) a.shared := spaced_of_run (fun _ _ hG => hG.1) hrun
  exact namesSound_step hcool (eventsOwned_of_run hrun rfl)
    ⟨hspaced.apart, hspaced.anchored⟩ ha hG hs

end Run

/-- No capture is at work under a name that a clip or a sidecar of another event has got. -/
def NamesFree (offset : ℤ → ℤ) (c : Conf Process RecorderThread) : Prop :=
  ∀ (i n m : ℕ) (p : Payload) (e : EventIn) (mode : CaptureMode) (pc : CapturePc) (a : Accepted),
    c.pool[i]? = some (.worker n p (.event e (.capture mode pc))) →
    c.shared.accepted[m]? = some a → m ≠ n →
    a.published ≠ some (eventBaseName offset e.eventTime) ∧
      a.sidecar ≠ some (eventBaseName offset e.eventTime)

/-- In every zone and with a cooldown of a second or more: no clip or sidecar of an event is
    published over, in the runs in which no stamp comes twice. -/
theorem clips_not_overwritten (cfg : RecorderConfig) (offset : ℤ → ℤ) (hcool : 1 ≤ cfg.cooldown)
    (files : StateFiles) (store : Store) (c : Conf Process RecorderThread)
    (h : Steps (recorderStep (cfg.zoned offset)) (NamesApart (cfg.zoned offset) offset)
      (recorderStart files store) c) : NamesFree offset c := by
  have hsound := namesSound_of_run hcool h
  intro i n m p e mode pc a ht ha hne
  obtain ⟨b, hb, -, htime⟩ := hsound.threads i _ n ht rfl
  have hother : ∀ name, a.published = some name ∨ a.sidecar = some name →
      name ≠ eventBaseName offset e.eventTime := by
    intro name hname heq
    obtain ⟨v, hv, rfl⟩ := hsound.entries m a ha name hname
    exact hsound.apart m n a b v _ hne ha hb hv htime (eventBaseName_injective heq)
  exact ⟨fun hname => hother _ (.inl hname) rfl, fun hname => hother _ (.inr hname) rfl⟩

/-! ## Executions -/

/-- Two events that are captured one after the other; the second is about to publish. -/
def twoCaptures (t u : ℚ) : List RecorderLife :=
  accepting 0 t ++ publishing 0 20000 ++ move 0 :: accepting 1 u ++ publishing 1 30000

/-- Two events 40 seconds apart in a zone nine hours ahead. -/
theorem clips_not_overwritten_ahead :
    ∃ c, Steps (recorderStep (sampleRecorder.zoned fun _ => 32400))
        (NamesApart (sampleRecorder.zoned fun _ => 32400) fun _ => 32400) freshRecorder c ∧
      c.shared.accepted.map Accepted.published = [some "19700101_091640_000", none] ∧
      NamesFree (fun _ => 32400) c := by
  let cfg := sampleRecorder.zoned fun _ => 32400
  let c := exec (guardedStep (recorderStep cfg) (NamesApart cfg fun _ => 32400)) freshRecorder
    (twoCaptures 1000 1040)
  have hrun : Steps (recorderStep cfg) (NamesApart cfg fun _ => 32400) freshRecorder c :=
    Steps.execGuarded (by with_unfolding_all decide)
  exact ⟨c, hrun, by with_unfolding_all decide,
    clips_not_overwritten sampleRecorder (fun _ => 32400) (by decide) _ _ c hrun⟩

/-- The event that a worker captures. -/
def RecorderThread.capturing : RecorderThread → Option (ℕ × EventIn)
  | .worker n _ (.event e (.capture _ _)) => some (n, e)
  | _ => none

theorem capturing_eq_some {t : RecorderThread} {n : ℕ} {e : EventIn}
    (h : t.capturing = some (n, e)) :
    ∃ p mode pc, t = .worker n p (.event e (.capture mode pc)) := by
  simp only [RecorderThread.capturing] at h
  split at h
  · cases h
    exact ⟨_, _, _, rfl⟩
  · cases h

/-- At second 10000 the clock is set back by an hour. -/
def setBack (n : ℤ) : ℤ := if n < 10000 then 3600 else 0

/-- Two events an hour apart, on either side of the change: the second one's clip replaces the
    first one's. -/
theorem clips_overwritten :
    1 ≤ sampleRecorder.cooldown ∧
    ∃ c c', Steps (recorderStep (sampleRecorder.zoned setBack)) FiniteTimes freshRecorder c ∧
      recorderStep (sampleRecorder.zoned setBack) c (move 1) = some c' ∧
      c.shared.acceptedTimes = [.finite 8000, .finite 11600] ∧
      c.shared.store.clips.files = [⟨"19700101_031320_000", 20000, 0⟩] ∧
      c'.shared.store.clips.files = [⟨"19700101_031320_000", 30000, 0⟩] ∧
      c'.shared.accepted.map Accepted.published =
        [some "19700101_031320_000", some "19700101_031320_000"] ∧
      ¬ NamesFree setBack c := by
  let cfg := sampleRecorder.zoned setBack
  let c := exec (guardedStep (recorderStep cfg) FiniteTimes) freshRecorder (twoCaptures 8000 11600)
  have hrun : Steps (recorderStep cfg) FiniteTimes freshRecorder c :=
    Steps.execGuarded (by with_unfolding_all decide)
  have hworker : (c.pool[1]?).bind RecorderThread.capturing = some (1, ⟨["fire"], 11600⟩) := by
    with_unfolding_all decide
  have hfirst : (c.shared.accepted[0]?).bind Accepted.published =
      some (eventBaseName setBack 11600) := by
    with_unfolding_all decide
  refine ⟨by decide, c, exec (recorderStep cfg) c [move 1], hrun,
    step_exec (by with_unfolding_all decide),
    by with_unfolding_all decide, by with_unfolding_all decide, by with_unfolding_all decide,
    by with_unfolding_all decide, fun hfree => ?_⟩
  obtain ⟨t, ht, hcapturing⟩ := Option.bind_eq_some_iff.mp hworker
  obtain ⟨a, ha, hpublished⟩ := Option.bind_eq_some_iff.mp hfirst
  obtain ⟨p, mode, pc, rfl⟩ := capturing_eq_some hcapturing
  exact (hfree 1 1 0 p _ mode pc a ht ha (by decide)).1 hpublished

end Babycat.Recorder
