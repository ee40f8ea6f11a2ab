/-
  Babycat.Recorder.Cooldown

  Accepted events are at least the cooldown apart, over all restarts (FR-030).

  Every accepted time lies at or before the anchor in memory and the anchor in
  the state file, at every step: the gate writes the file before it accepts,
  and the buffer endpoints write back the anchor that they have loaded.  A
  process that starts again therefore goes on from an anchor that no accepted
  event has passed.
-/

import Babycat.Recorder.Gate
import Mathlib.Tactic.Linarith

namespace Babycat.Recorder

open Babycat.Conc

/-- The notifications that come to the gate have finite event times. -/
def finiteTimes (c : Conf Process RecorderThread) : RecorderLife → Bool
  | .run (.sched i _) =>
      match c.pool[i]? with
      | some (.notify _ (.acquire t)) => t.isFinite
      | _ => true
  | _ => true

def FiniteTimes (c : Conf Process RecorderThread) (e : RecorderLife) : Prop :=
  finiteTimes c e = true

instance (c : Conf Process RecorderThread) (e : RecorderLife) : Decidable (FiniteTimes c e) :=
  inferInstanceAs (Decidable (_ = true))

/-- `later` follows `earlier` by the cooldown at least. -/
def Apart (cooldown : ℚ≥0) (earlier later : PyFloat) : Prop :=
  ∃ a b : ℚ, earlier = .finite a ∧ later = .finite b ∧ a ≤ b ∧ cooldown ≤ b - a

/-- Not before `q`. -/
def PyFloat.AtLeast (q : ℚ) : PyFloat → Prop
  | .finite a => q ≤ a
  | .infinite negative => negative = false
  | .nan => False

/-- The accepted times are apart, and neither anchor is before one of them. -/
structure Spaced (cfg : RecorderConfig) (s : Process) : Prop where
  apart : s.acceptedTimes.Pairwise (Apart cfg.cooldown)
  anchored : ∀ t ∈ s.acceptedTimes, ∃ q, t = .finite q ∧ s.lastSave.AtLeast q ∧
    s.files.anchor.AtLeast q

/-- The event can be accepted. -/
def Ahead (cfg : RecorderConfig) (s : Process) (t : PyFloat) : Prop :=
  ∀ u ∈ s.acceptedTimes, Apart cfg.cooldown u t

/-- What a notification knows inside the gate. -/
def GateHeld (cfg : RecorderConfig) (_ : ℕ) (s : Process) : RecorderThread → Prop
  | .notify _ (.check t) => ∃ b, t = .finite b
  | .notify _ (.move t) => (∃ b, t = .finite b) ∧ Ahead cfg s t
  | .notify _ (.update t pc) =>
      (∃ b, t = .finite b) ∧ Ahead cfg s t ∧ s.lastSave = t ∧
        (pc = .release true → s.files.anchor = t)
  | .notify _ (.release t .accepted) =>
      (∃ b, t = .finite b) ∧ Ahead cfg s t ∧ s.lastSave = t ∧ s.files.anchor = t
  | _ => True

section Gate

variable {cfg : RecorderConfig} {i : ℕ} {s s' : Process} {k : RecorderChoice}
variable {t t' : RecorderThread}

/-- A time that passes the gate is ahead of every time that the anchor has not passed. -/
theorem apart_of_check {q b : ℚ} {anchor : PyFloat} {cooldown : ℚ≥0} (hq : anchor.AtLeast q)
    (hcheck : ¬ (PyFloat.sub (.finite b) anchor).lt cooldown = true) :
    Apart cooldown (.finite q) (.finite b) := by
  cases anchor with
  | finite a =>
      have hle : (cooldown : ℚ) ≤ b - a := by simpa [PyFloat.sub, PyFloat.lt] using hcheck
      have hqa : q ≤ a := hq
      have hpos : (0 : ℚ) ≤ cooldown := cooldown.2
      exact ⟨q, b, rfl, rfl, by linarith, by linarith⟩
  | infinite negative =>
      obtain rfl : negative = false := hq
      exact absurd rfl hcheck
  | nan => exact absurd hq id

/-- What the steps outside the gate do to it, the lock apart. -/
structure GateKept (s s' : Process) : Prop extends GateSame s s' where
  anchor : s'.files.anchor = s.files.anchor

theorem GateKept.spaced (h : GateKept s s') (hs : Spaced cfg s) : Spaced cfg s' := by
  constructor
  · rw [h.times]
    exact hs.apart
  · rw [h.times, h.lastSave, h.anchor]
    exact hs.anchored

/-- A restart takes the anchor from the file. -/
theorem Spaced.boot (hs : Spaced cfg s) : Spaced cfg s.boot where
  apart := hs.apart
  anchored t ht := by
    obtain ⟨q, rfl, -, hfile⟩ := hs.anchored t ht
    exact ⟨q, rfl, hfile, hfile⟩

theorem GateKept.held (h : GateKept s s') (ht : GateHeld cfg i s t) : GateHeld cfg i s' t := by
  have hahead : ∀ u, Ahead cfg s u → Ahead cfg s' u := fun u hu v hv => hu v (h.times ▸ hv)
  cases t with
  | notify p npc =>
      cases npc with
      | check time => exact ht
      | move time => exact ⟨ht.1, hahead _ ht.2⟩
      | update time upc =>
          obtain ⟨hfin, hgo, hlast, hfile⟩ := ht
          exact ⟨hfin, hahead _ hgo, h.lastSave.trans hlast, fun hpc => h.anchor.trans (hfile hpc)⟩
      | release time o =>
          cases o with
          | accepted =>
              obtain ⟨hfin, hgo, hlast, hfile⟩ := ht
              exact ⟨hfin, hahead _ hgo, h.lastSave.trans hlast, h.anchor.trans hfile⟩
          | _ => trivial
      | _ => trivial
  | _ => trivial

/-- A step inside the gate. -/
theorem next_spaced (hs : Spaced cfg s) (ht : GateHeld cfg i s t) (hfile : FileHeld i s t)
    (hn : recorderNext cfg i s t k = some (s', t')) (hin : t.insideGate = true) :
    Spaced cfg s' ∧ GateHeld cfg i s' t' := by
  cases t with
  | notify p npc =>
      cases npc with
      | check time =>
          obtain ⟨b, rfl⟩ := ht
          simp only [recorderNext, notifyNext] at hn
          split at hn
          · cases hn
            exact ⟨⟨hs.apart, hs.anchored⟩, trivial⟩
          · rename_i hcheck
            cases hn
            refine ⟨hs, ⟨b, rfl⟩, fun u hu => ?_⟩
            obtain ⟨q, rfl, hq, -⟩ := hs.anchored u hu
            exact apart_of_check hq hcheck
      | move time =>
          cases hn
          obtain ⟨⟨b, rfl⟩, hgo⟩ := ht
          refine ⟨⟨hs.apart, fun u hu => ?_⟩, ⟨b, rfl⟩, hgo, rfl, fun hpc => by cases hpc⟩
          obtain ⟨q, b', rfl, hb, hle, -⟩ := hgo u hu
          cases hb
          obtain ⟨q', hq', -, hfile'⟩ := hs.anchored _ hu
          cases hq'
          exact ⟨q, rfl, hle, hfile'⟩
      | update time upc =>
          obtain ⟨⟨b, rfl⟩, hgo, hlast, hdone⟩ := ht
          obtain ⟨⟨f, o⟩, ho, heq⟩ := Option.map_eq_some_iff.mp hn
          cases heq
          obtain ⟨hload, hnext⟩ := updateNext_load ho (hfile _ _ rfl)
          have hanchor : f.anchor = s.files.anchor ∨ f.anchor = .finite b := by
            rcases hload with hload | hload
            · exact .inl (by simp only [StateFiles.anchor, hload])
            · exact .inr (by simp only [StateFiles.anchor, hload]; rfl)
          refine ⟨⟨hs.apart, fun u hu => ?_⟩, ?_⟩
          · obtain ⟨q, hq, hlast', hfile'⟩ := hs.anchored u hu
            refine ⟨q, hq, hlast', ?_⟩
            rcases hanchor with ha | ha
            · exact ha ▸ hfile'
            · obtain ⟨q', b', hq', hb, hle, -⟩ := hgo u hu
              cases hb
              cases hq.symm.trans hq'
              exact ha ▸ hle
          · cases o with
            | running pc' =>
                refine ⟨⟨b, rfl⟩, hgo, hlast, fun hpc => ?_⟩
                subst hpc
                exact StateFiles.anchor_of_update (hnext _ rfl)
            | returned =>
                exact ⟨⟨b, rfl⟩, hgo, hlast,
                  StateFiles.anchor_of_update (updateNext_returned ho (hfile _ _ rfl))⟩
            | raised => trivial
      | release time o =>
          cases o with
          | accepted =>
              cases hn
              obtain ⟨⟨b, rfl⟩, hgo, hlast, hfile'⟩ := ht
              have htimes : Process.acceptedTimes { s with
                  triggerLock := none
                  accepted := s.accepted ++ [.fresh (.finite b)] } =
                  s.acceptedTimes ++ [.finite b] := acceptedTimes_append rfl
              refine ⟨⟨?_, ?_⟩, trivial⟩
              · rw [htimes, List.pairwise_append]
                refine ⟨hs.apart, List.pairwise_singleton _ _, fun u hu v hv => ?_⟩
                rw [List.mem_singleton.mp hv]
                exact hgo u hu
              · rw [htimes]
                intro u hu
                rcases List.mem_append.mp hu with hold | hnew
                · exact hs.anchored u hold
                · rw [List.mem_singleton.mp hnew]
                  refine ⟨b, rfl, ?_, ?_⟩
                  · show s.lastSave.AtLeast b
                    rw [hlast]
                    exact le_refl b
                  · show s.files.anchor.AtLeast b
                    rw [hfile']
                    exact le_refl b
          | suppressed | failed =>
              cases hn
              exact ⟨⟨hs.apart, hs.anchored⟩, trivial⟩
      | _ => cases hin
  | _ => cases hin

end Gate

/-- The proof outline of the gate, in the runs in which the state file is known. -/
theorem gate_outline (cfg : RecorderConfig) :
    OwickiGries (recorder cfg)
      (fun c e => FilesKnown c ∧ FiniteTimes c (.run e))
      (Spaced cfg) (Mutex.Holds Process.triggerLock RecorderThread.insideGate (GateHeld cfg)) := by
  refine (gate_mutex cfg).owickiGries (Q := GateKept) (fun _ x _ _ _ => nomatch x) ?_ ?_
    (fun _ _ h hs => h.spaced hs) (fun _ _ _ _ h _ _ ht => h.held ht)
  · intro c i k t s' t' _ hG ht hn hout
    obtain ⟨hsame, hlock⟩ := next_outside_gate hout hn
    refine ⟨⟨hsame, next_anchor hout (hG.1 i t ht) hn⟩, fun hin => ?_⟩
    rcases hlock with ⟨-, hno⟩ | ⟨-, -, p, time, rfl, rfl⟩
    · rw [hno] at hin
      cases hin
    · have hfinite : time.isFinite = true := by
        simpa [FiniteTimes, finiteTimes, ht] using hG.2
      cases time with
      | finite b => exact ⟨b, rfl⟩
      | _ => cases hfinite
  · intro c i k t s' t' hI hB hG ht hn hin
    obtain ⟨hspaced, hheld⟩ := next_spaced hI hB (hG.1 i t ht) hn hin
    exact ⟨hspaced, fun _ => hheld⟩

theorem spaced_of_run {cfg : RecorderConfig} {files : StateFiles} {store : Store}
    {G : Conf Process RecorderThread → RecorderLife → Prop} {c : Conf Process RecorderThread}
    (hG : ∀ c e, G c e → FiniteTimes c e)
    (h : Steps (recorderStep cfg) G (recorderStart files store) c) : Spaced cfg c.shared := by
  have hstart : Annotated (Spaced cfg)
      (Mutex.Holds Process.triggerLock RecorderThread.insideGate (GateHeld cfg))
      (recorderStart files store) :=
    ⟨⟨List.Pairwise.nil, fun t ht => by cases ht⟩, fun i t ht => by cases ht⟩
  have hgate := h.invariant_run (fun a e b hrun hheld hge hs =>
    OwickiGries.life (G := fun c e => FilesKnown c ∧ FiniteTimes c e) (gate_outline cfg)
      (fun c hc _ => hc.1.boot) a e b hheld ⟨filesKnown_of_run hrun rfl, hG a e hge⟩ hs) hstart
  exact hgate.1

/-- Accepted events are apart by the cooldown at least and in the order of their times, over
    every run of the process and its restarts. -/
theorem accepted_apart (cfg : RecorderConfig) (files : StateFiles) (store : Store)
    (c : Conf Process RecorderThread)
    (h : Steps (recorderStep cfg) FiniteTimes (recorderStart files store) c) :
    c.shared.acceptedTimes.Pairwise (Apart cfg.cooldown) :=
  (spaced_of_run (fun _ _ hG => hG) h).apart

/-! ## Executions -/

def sampleRecorder : RecorderConfig where
  cooldown := 30
  clips :=
    { clipBase := fun _ => "20250101_120000_000", minFreeBytes := 100, targetFreeBytes := 200 }
  toFloat
    | .float x => some x
    | _ => none
  toStr
    | .str s => s
    | _ => ""

def move (i : ℕ) : RecorderLife := .run (.sched i (.io .go))

def notifyAt (t : ℚ) : RecorderLife :=
  .run (.enter (.notify [("event_time", .float (.finite t)), ("keywords", .list [.str "fire"])]))

/-- `accept_event` of thread `i`, from its entry to the end of the gate. -/
def accepting (i : ℕ) (t : ℚ) : List RecorderLife := notifyAt t :: List.replicate 12 (move i)

/-- A worker from the end of the gate to the publishing of its clip. -/
def publishing (i size : ℕ) : List RecorderLife :=
  List.replicate 5 (move i) ++
    [.run (.sched i (.io (.free 200))), move i, move i,
      .run (.sched i (.io (.encoded (some (size, 0)))))]

abbrev freshRecorder : Conf Process RecorderThread :=
  recorderStart ⟨none, none, none⟩ (startUp ⟨[], List.nodup_nil⟩ [] []).shared

/-- A process that is killed when the anchor is in the file and the event is not accepted yet. -/
def killed : List RecorderLife :=
  accepting 0 1000 ++ (accepting 1 1040).take 12 ++ .restart :: (accepting 0 1060).take 5 ++
    accepting 1 1080

/-- Of four events the second is lost in the restart and the third is suppressed by it. -/
theorem accepted_apart_killed :
    ∃ c, Steps (recorderStep sampleRecorder) FiniteTimes freshRecorder c ∧
      c.shared.acceptedTimes = [.finite 1000, .finite 1080] ∧
      c.shared.acceptedTimes.Pairwise (Apart sampleRecorder.cooldown) := by
  let c := exec (guardedStep (recorderStep sampleRecorder) FiniteTimes) freshRecorder killed
  have hrun : Steps (recorderStep sampleRecorder) FiniteTimes freshRecorder c :=
    Steps.execGuarded (by with_unfolding_all decide)
  exact ⟨c, hrun, by with_unfolding_all decide, accepted_apart sampleRecorder _ _ c hrun⟩

end Babycat.Recorder
