/-
  Babycat.Recorder.CrashFiles

  What the recorder finds under `CLIP_DIR` after it was killed (SDD 5.4).

  ffmpeg writes to a `.mp4.part` file and the sidecar to a `.json.tmp` file;
  each gets its final name by a rename once it is whole, and the start-up
  sweeps what is left of them.  `Disk` is what the files hold: a rename moves
  the content as it is at that moment.  A final name therefore only ever gets
  whole content as long as no second capture opens the partial file of the
  first (`OneWriter`), which only two captures of one base name can do.
-/

import Babycat.Recorder.ClipNames
import Babycat.Recorder.ClipPairs

namespace Babycat.Recorder

open Babycat.Conc

/-! ## Names under `CLIP_DIR` -/

/-- The names of the files; the directories follow from them. -/
def Store.fileNames (s : Store) : List (List Char) :=
  (s.clips.files.map fun f => f.name.toList ++ ".mp4".toList) ++
    (s.sidecars.map fun f => f.name.toList ++ ".json".toList) ++
    (s.parts.map fun name => name.toList ++ ".mp4.part".toList) ++
    s.temps.map fun name => name.toList ++ ".json.tmp".toList

/-- `rglob("*" + suffix)` finds the file. -/
def globbed (suffix : String) (file : List Char) : Bool := suffix.toList.isSuffixOf file

/-- What the sweep of `lifespan` leaves. -/
def sweep (files : List (List Char)) : List (List Char) :=
  files.filter fun file => !(globbed ".part" file || globbed ".json.tmp" file)

/-- A suffix of a file name ends as the file name does. -/
theorem globbed_append {suffix tail : String} {name : List Char}
    (h : globbed suffix (name ++ tail.toList) = true) (htail : tail.toList ≠ []) :
    suffix.toList = [] ∨ suffix.toList.getLast? = tail.toList.getLast? := by
  obtain ⟨front, hfront⟩ := List.isSuffixOf_iff_suffix.mp h
  cases hs : suffix.toList with
  | nil => exact .inl rfl
  | cons a l =>
      right
      have hlast := congrArg List.getLast? hfront
      rw [hs] at hlast
      rw [List.getLast?_append_of_ne_nil _ (by simp), List.getLast?_append_of_ne_nil _ htail]
        at hlast
      exact hlast

theorem globbed_self (suffix : String) (name : List Char) :
    globbed suffix (name ++ suffix.toList) = true :=
  List.isSuffixOf_iff_suffix.mpr (List.suffix_append name _)

/-- The sweep of the names is the one of `Store.boot`: it takes the partial files only. -/
theorem sweep_fileNames (s : Store) : sweep s.fileNames = s.boot.fileNames := by
  have hkept : ∀ (name : List Char), ∀ tail ∈ [".mp4", ".json"],
      (!(globbed ".part" (name ++ tail.toList) || globbed ".json.tmp" (name ++ tail.toList))) =
        true := by
    intro name tail htail
    rw [Bool.not_eq_true', Bool.or_eq_false_iff, Bool.eq_false_iff, Bool.eq_false_iff]
    simp only [List.mem_cons, List.not_mem_nil, or_false] at htail
    rcases htail with rfl | rfl <;>
      exact ⟨fun h => absurd (globbed_append h (by decide)) (by decide),
        fun h => absurd (globbed_append h (by decide)) (by decide)⟩
  have hpart : ∀ name : List Char, globbed ".part" (name ++ ".mp4.part".toList) = true := by
    intro name
    have happ : name ++ ".mp4.part".toList = (name ++ ".mp4".toList) ++ ".part".toList := by
      rw [List.append_assoc]
      rfl
    rw [happ]
    exact globbed_self ".part" _
  have htemp : ∀ name : List Char, globbed ".json.tmp" (name ++ ".json.tmp".toList) = true :=
    globbed_self ".json.tmp"
  simp only [sweep, Store.fileNames, Store.boot, List.filter_append, List.filter_map,
    Function.comp_def, hpart, htemp, Bool.or_true, Bool.true_or, Bool.not_true, List.filter_false,
    List.map_nil, List.append_nil]
  rw [List.filter_eq_self.mpr fun f _ => hkept f.name.toList ".mp4" (by simp),
    List.filter_eq_self.mpr fun f _ => hkept f.name.toList ".json" (by simp)]

/-- The listing sees the clips only, while partial files are there too. -/
theorem listing_fileNames (s : Store) : s.fileNames.filter (globbed ".mp4") =
    s.clips.files.map fun f => f.name.toList ++ ".mp4".toList := by
  have hother : ∀ (name : List Char), ∀ tail ∈ [".json", ".mp4.part", ".json.tmp"],
      ¬ globbed ".mp4" (name ++ tail.toList) = true := by
    intro name tail htail h
    simp only [List.mem_cons, List.not_mem_nil, or_false] at htail
    rcases htail with rfl | rfl | rfl <;>
      exact absurd (globbed_append h (by decide)) (by decide)
  simp only [Store.fileNames, List.filter_append, List.filter_map, Function.comp_def, globbed_self,
    List.filter_true]
  rw [List.filter_eq_nil_iff.mpr fun f _ => hother f.name.toList ".json" (by simp),
    List.filter_eq_nil_iff.mpr fun f _ => hother f.toList ".mp4.part" (by simp),
    List.filter_eq_nil_iff.mpr fun f _ => hother f.toList ".json.tmp" (by simp)]
  simp

/-! ## What the files hold -/

inductive Content
  /-- The ffmpeg run of thread `i` is writing it, and no other. -/
  | writing (i : ℕ)
  /-- Cut short, or written by two at once. -/
  | torn
  /-- All that an ffmpeg run that exited 0 has written, or a whole JSON document. -/
  | complete
  deriving DecidableEq

/-- The content of the file of each kind with the base name. -/
structure Disk where
  parts : String → Content
  clips : String → Content
  temps : String → Content
  sidecars : String → Content

/-- The ffmpeg run of thread `i` is over. -/
def Content.closed (i : ℕ) (ok : Bool) (c : Content) : Content :=
  if c = .writing i then if ok then .complete else .torn else c

namespace Disk

variable (d : Disk)

/-- ffmpeg opens the partial file and truncates it; a run that still has it open writes on. -/
def openPart (i : ℕ) (name : String) (present : Bool) : Disk :=
  { d with parts := Function.update d.parts name (match present, d.parts name with
      | true, .writing _ => .torn
      | _, _ => .writing i) }

def closed (i : ℕ) (ok : Bool) : Disk :=
  { d with
    parts := fun name => (d.parts name).closed i ok
    clips := fun name => (d.clips name).closed i ok }

/-- `os.replace(part_path, out_path)`. -/
def publish (name : String) : Disk :=
  { d with clips := Function.update d.clips name (d.parts name) }

/-- The temp file of a sidecar is opened and written. -/
def write (name : String) (c : Content) : Disk :=
  { d with temps := Function.update d.temps name c }

/-- `os.replace(tmp, meta_path)`. -/
def replaceSidecar (name : String) : Disk :=
  { d with sidecars := Function.update d.sidecars name (d.temps name) }

/-- What is left of the files when the process and its ffmpeg runs are killed. -/
def boot : Disk :=
  let cut (c : Content) : Content := if c = .complete then .complete else .torn
  { parts := fun name => cut (d.parts name)
    clips := fun name => cut (d.clips name)
    temps := fun name => cut (d.temps name)
    sidecars := fun name => cut (d.sidecars name) }

end Disk

/-- What the step of thread `i` does to the contents. -/
def diskNext (cfg : RecorderConfig) (i : ℕ) (s : Process) (t : RecorderThread) (k : RecorderChoice)
    (d : Disk) : Disk :=
  match t with
  | .worker _ _ (.event e (.capture _ pc)) =>
      let name := cfg.clips.clipBase e.eventTime
      match pc, k with
      | .ffmpeg, .io _ => d.openPart i name (s.store.parts.contains name)
      | .encode, .io (.encoded _) => d.closed i true
      -- failed, timed out, not run or without output: `subprocess.run` has ended the child
      | .encode, _ => d.closed i false
      | .publish _ _, .io _ => if s.store.parts.contains name then d.publish name else d
      | .writeSidecar _, .io (.written _) => d.write name .complete
      | .writeSidecar _, .io .torn => d.write name .torn
      | .replaceSidecar _ _, .io c => if c = .raise then d else d.replaceSidecar name
      | _, _ => d
  | _ => d

/-- The recorder with what its files hold. -/
def diskRecorder (cfg : RecorderConfig) :
    Prog (Process × Disk) RecorderThread RecorderRequest RecorderChoice Empty :=
  (recorder cfg).beside (diskNext cfg)

/-- One step of it over its restarts. -/
def diskStep (cfg : RecorderConfig) :
    Conf (Process × Disk) RecorderThread → RecorderLife →
      Option (Conf (Process × Disk) RecorderThread) :=
  (diskRecorder cfg).life fun s => (s.1.boot, s.2.boot)

/-- The first start on a clip tree of whole files. -/
def diskStart (files : StateFiles) (store : Store) : Conf (Process × Disk) RecorderThread where
  shared := ((recorderStart files store).shared,
    ⟨fun _ => .complete, fun _ => .complete, fun _ => .complete, fun _ => .complete⟩)
  pool := []

/-! ## The runs with one writer for each file -/

/-- The partial file that the thread has open or is about to rename. -/
inductive FilePhase
  | idle
  | encoding (name : String)
  | publishing (name : String)
  | attaching (name : String)
  deriving DecidableEq

def CapturePc.filePhase (name : String) : CapturePc → FilePhase
  | .encode => .encoding name
  | .publish _ _ => .publishing name
  | .replaceSidecar _ _ => .attaching name
  | _ => .idle

def RecorderThread.filePhase (cfg : RecorderConfig) : RecorderThread → FilePhase
  | .worker _ _ (.event e (.capture _ pc)) => pc.filePhase (cfg.clips.clipBase e.eventTime)
  | _ => .idle

/-- A capture opens a partial file only while no other capture has it open or is about to rename
    it. -/
def oneWriter (cfg : RecorderConfig) (c : Conf (Process × Disk) RecorderThread) :
    RecorderLife → Bool
  | .run (.sched i (.io _)) =>
      (List.range c.pool.length).all fun j =>
        j == i || match c.pool[i]?, c.pool[j]? with
          | some (.worker _ _ (.event e (.capture _ .ffmpeg))), some v =>
              decide (v.filePhase cfg ≠ .encoding (cfg.clips.clipBase e.eventTime) ∧
                v.filePhase cfg ≠ .publishing (cfg.clips.clipBase e.eventTime))
          | some (.worker _ _ (.event e (.capture _ (.writeSidecar _)))), some v =>
              decide (v.filePhase cfg ≠ .attaching (cfg.clips.clipBase e.eventTime))
          | _, _ => true
  | _ => true

def OneWriter (cfg : RecorderConfig) (c : Conf (Process × Disk) RecorderThread)
    (e : RecorderLife) : Prop :=
  oneWriter cfg c e = true

instance (cfg : RecorderConfig) (c : Conf (Process × Disk) RecorderThread) (e : RecorderLife) :
    Decidable (OneWriter cfg c e) :=
  inferInstanceAs (Decidable (_ = true))

/-- The clips and the sidecars hold whole content. -/
structure Whole (s : Process × Disk) : Prop where
  clips : ∀ name, s.1.store.clips.find name ≠ none → s.2.clips name = .complete
  sidecars : ∀ name, s.1.store.sidecar name ≠ none → s.2.sidecars name = .complete

/-- What the files that a thread is about to rename hold. -/
def PartHeld (cfg : RecorderConfig) (i : ℕ) (s : Process × Disk) (t : RecorderThread) : Prop :=
  match t.filePhase cfg with
  | .encoding name => s.2.parts name = .writing i
  | .publishing name => s.2.parts name = .complete
  | .attaching name => s.2.temps name = .complete
  | .idle => True

/-- A partial file that is being written belongs to a thread that waits for its ffmpeg. -/
def WritersKnown (cfg : RecorderConfig) (c : Conf (Process × Disk) RecorderThread) : Prop :=
  ∀ name j, c.shared.2.parts name = .writing j →
    ∃ t, c.pool[j]? = some t ∧ t.filePhase cfg = .encoding name

/-! ## The recorder and the clip tree -/

/-- The thread of the clip tree that the thread of the recorder is. -/
def RecorderThread.clipThread : RecorderThread → Option ClipThread
  | .worker _ _ (.event e pc) => some (.event e pc)
  | .deleteClips n pc => some (.deleteClips n pc)
  | .deleteAllClips n pc => some (.deleteAllClips n pc)
  | _ => none

section Step

variable {cfg : RecorderConfig} {i j : ℕ} {s s' : Process} {d : Disk} {k : RecorderChoice}
variable {t t' v : RecorderThread} {name : String}

/-- A notification does not touch the clip tree and comes into no file phase. -/
theorem notify_idle {p : Payload} {pc : NotifyPc}
    (h : recorderNext cfg i s (.notify p pc) k = some (s', t')) :
    s'.store = s.store ∧ t'.filePhase cfg = .idle := by
  cases pc with
  | eventTime =>
      obtain ⟨x, -, heq⟩ := Option.map_eq_some_iff.mp h
      cases x <;> cases heq <;> exact ⟨rfl, rfl⟩
  | acquire time | check time =>
      simp only [recorderNext, notifyNext] at h
      split at h <;> cases h <;> exact ⟨rfl, rfl⟩
  | update time pc =>
      obtain ⟨r, -, heq⟩ := Option.map_eq_some_iff.mp h
      cases heq
      exact ⟨rfl, rfl⟩
  | release time o => cases o <;> cases h <;> exact ⟨rfl, rfl⟩
  | start n =>
      cases h
      exact ⟨rfl, by split <;> rfl⟩
  | move time =>
      cases h
      exact ⟨rfl, rfl⟩
  | answered o => cases h

/-- Nor do the buffer endpoints. -/
theorem buffer_idle {active : Bool} {pc : Option UpdatePc}
    (h : recorderNext cfg i s (.buffer active pc) k = some (s', t')) :
    s'.store = s.store ∧ t'.filePhase cfg = .idle := by
  cases pc with
  | none => cases h
  | some pc =>
      obtain ⟨r, -, heq⟩ := Option.map_eq_some_iff.mp h
      cases heq
      exact ⟨rfl, rfl⟩

/-- The recorder does to its clip tree what a thread of the clip tree does. -/
theorem next_clipTree (h : recorderNext cfg i s t k = some (s', t')) :
    s'.store = s.store ∨ ∃ v c v', t.clipThread = some v ∧
      next cfg.clips i s.store v c = some (s'.store, v') := by
  cases t with
  | notify p npc => exact .inl (notify_idle h).1
  | worker n p pc =>
      obtain ⟨⟨b, pc'⟩, hb, heq⟩ := Option.map_eq_some_iff.mp h
      cases heq
      cases pc with
      | keywords =>
          cases hb
          exact .inl rfl
      | eventTime keywords =>
          obtain ⟨x, -, heq⟩ := Option.map_eq_some_iff.mp hb
          cases heq
          exact .inl rfl
      | event e epc =>
          cases epc with
          | capture mode cpc =>
              cases k with
              | io c =>
                  obtain ⟨r, hr, heq⟩ := Option.map_eq_some_iff.mp hb
                  cases heq
                  exact .inr ⟨_, c, .event e r.2, rfl, by simp only [next, hr, Option.map_some]⟩
              | fail =>
                  cases hb
                  exact .inl rfl
              | clock now => cases hb
          | insert clipName =>
              simp only [workerNext] at hb
              split at hb <;> cases hb
              · exact .inr ⟨_, .go, .event e .done, rfl, rfl⟩
              · exact .inl rfl
          | done => cases hb
      | dead => cases hb
  | buffer active upc => exact .inl (buffer_idle h).1
  | deleteClips n pc =>
      cases k with
      | io c =>
          obtain ⟨r, hr, heq⟩ := Option.map_eq_some_iff.mp h
          cases heq
          exact .inr ⟨_, c, .deleteClips r.2.1 r.2.2, rfl, by simp only [next, hr, Option.map_some]⟩
      | _ => cases h
  | deleteAllClips n pc =>
      cases k with
      | io c =>
          obtain ⟨r, hr, heq⟩ := Option.map_eq_some_iff.mp h
          cases heq
          exact .inr ⟨_, c, .deleteAllClips r.2.1 r.2.2, rfl,
            by simp only [next, hr, Option.map_some]⟩
      | _ => cases h

theorem filePhase_of_publishing {v : ClipThread} {f : ClipFile} (hv : t.clipThread = some v)
    (hstake : v.stake cfg.clips = .publishing f) : t.filePhase cfg = .publishing f.name := by
  cases t with
  | worker n p pc =>
      cases pc with
      | event e epc =>
          cases hv
          cases epc with
          | capture mode cpc =>
              cases cpc with
              | prune pc => cases pc <;> cases hstake
              | publish size mtime =>
                  cases hstake
                  rfl
              | _ => cases hstake
          | _ => cases hstake
      | _ => cases hv
  | deleteClips n pc | deleteAllClips n pc =>
      cases hv
      cases pc <;> cases hstake
  | _ => cases hv

theorem filePhase_of_attaching {v : ClipThread} (hv : t.clipThread = some v)
    (hphase : v.pairPhase cfg.clips = .attaching name) : t.filePhase cfg = .attaching name := by
  cases t with
  | worker n p pc =>
      cases pc with
      | event e epc =>
          cases hv
          cases epc with
          | capture mode cpc =>
              cases cpc with
              | prune pc => cases pc <;> cases hphase
              | replaceSidecar size sidecarSize =>
                  cases hphase
                  rfl
              | _ => cases hphase
          | _ => cases hphase
      | _ => cases hv
  | deleteClips n pc | deleteAllClips n pc =>
      cases hv
      cases pc <;> cases hphase
  | _ => cases hv

/-- A clip or a sidecar appears only under the name that the thread publishes or attaches. -/
theorem next_grows (h : recorderNext cfg i s t k = some (s', t')) :
    (∀ name, s'.store.clips.find name ≠ none →
      s.store.clips.find name ≠ none ∨ t.filePhase cfg = .publishing name) ∧
    ∀ name, s'.store.sidecar name ≠ none →
      s.store.sidecar name ≠ none ∨ t.filePhase cfg = .attaching name := by
  rcases next_clipTree h with hsame | ⟨v, c, v', hv, hnext⟩
  · rw [hsame]
    exact ⟨fun _ h => .inl h, fun _ h => .inl h⟩
  · refine ⟨fun name hfind => ?_, fun name hsidecar => ?_⟩
    · obtain ⟨f, hf⟩ := Option.ne_none_iff_exists'.mp hfind
      by_cases hfresh : ∀ g, v.stake cfg.clips = .publishing g → g.name ≠ name
      · left
        rw [(next_count hnext).find hfresh hf]
        exact Option.some_ne_none f
      · right
        push Not at hfresh
        obtain ⟨g, hg, rfl⟩ := hfresh
        exact filePhase_of_publishing hv hg
    · exact ((next_pair hnext).attached name hsidecar).imp_right (filePhase_of_attaching hv)

/-! ## One step and the contents -/

theorem closed_complete (ok : Bool) : Content.complete.closed i ok = .complete := rfl

theorem closed_other {c : Content} {ok : Bool} (hne : j ≠ i) (h : c = .writing j) :
    c.closed i ok = .writing j := by
  rw [h, Content.closed, if_neg fun he => hne (Content.writing.inj he)]

/-- Whole clips stay whole, also where a capture publishes what it has. -/
theorem diskNext_clips (ht : PartHeld cfg i (s, d) t) (h : d.clips name = .complete) :
    (diskNext cfg i s t k d).clips name = .complete := by
  unfold diskNext
  dsimp only
  split
  · rename_i e mode pc
    split
    · exact h
    · simp only [Disk.closed, h, closed_complete]
    · simp only [Disk.closed, h, closed_complete]
    · split
      · have hpart : d.parts (cfg.clips.clipBase e.eventTime) = .complete := ht
        simp only [Disk.publish, Function.update_apply]
        split
        · exact hpart
        · exact h
      · exact h
    · exact h
    · exact h
    · split <;> exact h
    · exact h
  · exact h

theorem diskNext_sidecars (ht : PartHeld cfg i (s, d) t) (h : d.sidecars name = .complete) :
    (diskNext cfg i s t k d).sidecars name = .complete := by
  unfold diskNext
  dsimp only
  split
  · rename_i e mode pc
    split
    · exact h
    · exact h
    · exact h
    · split <;> exact h
    · exact h
    · exact h
    · split
      · exact h
      · have htemp : d.temps (cfg.clips.clipBase e.eventTime) = .complete := ht
        simp only [Disk.replaceSidecar, Function.update_apply]
        split
        · exact htemp
        · exact h
    · exact h
  · exact h

/-- Only captures have partial files. -/
theorem capture_of_filePhase (h : t.filePhase cfg ≠ .idle) :
    ∃ n p e mode pc, t = .worker n p (.event e (.capture mode pc)) := by
  cases t with
  | worker n p pc =>
      cases pc with
      | event e epc =>
          cases epc with
          | capture mode cpc => exact ⟨n, p, e, mode, cpc, rfl⟩
          | _ => exact absurd rfl h
      | _ => exact absurd rfl h
  | _ => exact absurd rfl h

theorem of_publishing (h : t.filePhase cfg = .publishing name) :
    ∃ n p e mode size mtime, t = .worker n p (.event e (.capture mode (.publish size mtime))) ∧
      name = cfg.clips.clipBase e.eventTime := by
  obtain ⟨n, p, e, mode, pc, rfl⟩ := capture_of_filePhase fun hidle => by
    rw [h] at hidle
    cases hidle
  cases pc with
  | publish size mtime =>
      cases h
      exact ⟨n, p, e, mode, size, mtime, rfl, rfl⟩
  | _ => cases h

theorem of_attaching (h : t.filePhase cfg = .attaching name) :
    ∃ n p e mode size sidecarSize,
      t = .worker n p (.event e (.capture mode (.replaceSidecar size sidecarSize))) ∧
        name = cfg.clips.clipBase e.eventTime := by
  obtain ⟨n, p, e, mode, pc, rfl⟩ := capture_of_filePhase fun hidle => by
    rw [h] at hidle
    cases hidle
  cases pc with
  | replaceSidecar size sidecarSize =>
      cases h
      exact ⟨n, p, e, mode, size, sidecarSize, rfl, rfl⟩
  | _ => cases h

theorem whole_next (hw : Whole (s, d)) (ht : PartHeld cfg i (s, d) t)
    (hn : recorderNext cfg i s t k = some (s', t')) :
    Whole (s', diskNext cfg i s t k d) := by
  obtain ⟨hclips, hsidecars⟩ := next_grows hn
  constructor
  · intro name hfind
    rcases hclips name hfind with hold | hpublishing
    · exact diskNext_clips ht (hw.clips name hold)
    · obtain ⟨n, p, e, mode, size, mtime, rfl, rfl⟩ := of_publishing hpublishing
      have hpart : d.parts (cfg.clips.clipBase e.eventTime) = .complete := ht
      obtain ⟨⟨b, pc'⟩, hb, heq⟩ := Option.map_eq_some_iff.mp hn
      cases heq
      cases k with
      | io c =>
          by_cases hcontains : s.store.parts.contains (cfg.clips.clipBase e.eventTime) = true
          · simp only [diskNext, if_pos hcontains, Disk.publish, Function.update_self]
            exact hpart
          · simp only [workerNext, eventNext, captureNext, if_neg hcontains] at hb
            cases hb
            exact diskNext_clips ht (hw.clips _ hfind)
      | fail =>
          cases hb
          exact hw.clips _ hfind
      | clock now => cases hb
  · intro name hsidecar
    rcases hsidecars name hsidecar with hold | hattaching
    · exact diskNext_sidecars ht (hw.sidecars name hold)
    · obtain ⟨n, p, e, mode, size, sidecarSize, rfl, rfl⟩ := of_attaching hattaching
      have htemp : d.temps (cfg.clips.clipBase e.eventTime) = .complete := ht
      obtain ⟨⟨b, pc'⟩, hb, heq⟩ := Option.map_eq_some_iff.mp hn
      cases heq
      cases k with
      | io c =>
          by_cases hraise : c = .raise
          · simp only [workerNext, eventNext, captureNext, if_pos hraise] at hb
            cases hb
            exact diskNext_sidecars ht (hw.sidecars _ hsidecar)
          · simp only [diskNext, if_neg hraise, Disk.replaceSidecar, Function.update_self]
            exact htemp
      | fail =>
          cases hb
          exact hw.sidecars _ hsidecar
      | clock now => cases hb

/-- The steps of a capture into a file phase: ffmpeg starts, exits 0, or the sidecar is written. -/
inductive EntersPhase : Choice → CapturePc → CapturePc → Prop
  | encode (c : Choice) : EntersPhase c .ffmpeg .encode
  | publish (size : ℕ) (mtime : ℚ) :
      EntersPhase (.encoded (some (size, mtime))) .encode (.publish size mtime)
  | attach (size sidecarSize : ℕ) :
      EntersPhase (.written sidecarSize) (.writeSidecar size) (.replaceSidecar size sidecarSize)

theorem captureNext_enters_phase {mode : CaptureMode} {b b' : Store} {c : Choice}
    {pc pc' : CapturePc} (h : captureNext cfg.clips mode name b c pc = some (b', .running pc'))
    (hphase : pc'.filePhase name ≠ .idle) : EntersPhase c pc pc' := by
  cases pc with
  | ffmpeg =>
      cases h
      exact .encode c
  | encode =>
      simp only [captureNext] at h
      split at h <;> cases h
      exact .publish _ _
  | writeSidecar size =>
      simp only [captureNext] at h
      split at h <;> cases h
      · exact .attach size _
      · exact absurd rfl hphase
      · exact absurd rfl hphase
  | prune pc =>
      obtain ⟨⟨b, o⟩, -, heq⟩ := Option.map_eq_some_iff.mp h
      rcases o with pc₁ | ⟨_ | _⟩ | _
      · cases heq
        exact absurd rfl hphase
      · cases heq
      · cases mode <;> cases heq <;> exact absurd rfl hphase
      · cases heq
  | select => cases c <;> cases h <;> exact absurd rfl hphase
  | base | publish | stat | buildMeta | report =>
      simp only [captureNext] at h
      split at h <;> cases h <;> exact absurd rfl hphase
  | probe | replaceSidecar | count =>
      cases h
      exact absurd rfl hphase

/-- A thread that is in a file phase after its step is a capture that has entered it. -/
theorem next_enters_phase (h : recorderNext cfg i s t k = some (s', t'))
    (hphase : t'.filePhase cfg ≠ .idle) :
    ∃ n p e mode pc pc' c, t = .worker n p (.event e (.capture mode pc)) ∧ k = .io c ∧
      t' = .worker n p (.event e (.capture mode pc')) ∧ EntersPhase c pc pc' := by
  cases t with
  | worker n p pc =>
      obtain ⟨⟨b, pc'⟩, hb, heq⟩ := Option.map_eq_some_iff.mp h
      cases heq
      cases pc with
      | keywords =>
          cases hb
          exact absurd (by split <;> rfl) hphase
      | eventTime keywords =>
          obtain ⟨x, -, heq⟩ := Option.map_eq_some_iff.mp hb
          split at heq <;> cases heq <;> exact absurd rfl hphase
      | event e epc =>
          cases epc with
          | capture mode cpc =>
              cases k with
              | io c =>
                  obtain ⟨⟨b, epc'⟩, hr, heq⟩ := Option.map_eq_some_iff.mp hb
                  cases heq
                  obtain ⟨⟨b, o⟩, ho, heq⟩ := Option.map_eq_some_iff.mp hr
                  cases heq
                  rcases o with pc' | ⟨_ | clip⟩ | _
                  · exact ⟨n, p, e, mode, cpc, pc', c, rfl, rfl, rfl,
                      captureNext_enters_phase ho hphase⟩
                  · exact absurd (by cases mode <;> rfl) hphase
                  · exact absurd rfl hphase
                  · exact absurd rfl hphase
              | fail =>
                  cases hb
                  exact absurd rfl hphase
              | clock now => cases hb
          | insert clipName =>
              simp only [workerNext] at hb
              split at hb <;> cases hb <;> exact absurd rfl hphase
          | done => cases hb
      | dead => cases hb
  | notify p npc => exact absurd (notify_idle h).2 hphase
  | buffer active upc => exact absurd (buffer_idle h).2 hphase
  | deleteClips n pc | deleteAllClips n pc =>
      cases k with
      | io c =>
          obtain ⟨r, -, heq⟩ := Option.map_eq_some_iff.mp h
          cases heq
          exact absurd rfl hphase
      | _ => cases h

/-- The thread opens the partial file of the clip `name` in this step. -/
def OpensPart (cfg : RecorderConfig) (t : RecorderThread) (k : RecorderChoice) (name : String) :
    Prop :=
  ∃ n p e mode c, t = .worker n p (.event e (.capture mode .ffmpeg)) ∧ k = .io c ∧
    cfg.clips.clipBase e.eventTime = name

/-- The thread opens the temp file of the sidecar `name` in this step. -/
def OpensTemp (cfg : RecorderConfig) (t : RecorderThread) (k : RecorderChoice) (name : String) :
    Prop :=
  ∃ n p e mode size c, t = .worker n p (.event e (.capture mode (.writeSidecar size))) ∧
    k = .io c ∧ cfg.clips.clipBase e.eventTime = name

/-- A thread comes into a file phase only with the content it needs. -/
theorem partHeld_own (ht : PartHeld cfg i (s, d) t)
    (hfree : ∀ name, OpensPart cfg t k name → ∀ j, d.parts name ≠ .writing j)
    (hn : recorderNext cfg i s t k = some (s', t')) :
    PartHeld cfg i (s', diskNext cfg i s t k d) t' := by
  by_cases hidle : t'.filePhase cfg = .idle
  · simp only [PartHeld, hidle]
  · obtain ⟨n, p, e, mode, pc, pc', c, rfl, rfl, rfl, henters⟩ := next_enters_phase hn hidle
    cases henters with
    | encode =>
        have hnew := hfree _ ⟨n, p, e, mode, c, rfl, rfl, rfl⟩
        simp only [PartHeld, RecorderThread.filePhase, CapturePc.filePhase, diskNext,
          Disk.openPart, Function.update_self]
        split
        · rename_i j _ hj
          exact absurd hj (hnew j)
        · rfl
    | publish size mtime =>
        have hwriting : d.parts (cfg.clips.clipBase e.eventTime) = .writing i := ht
        simp only [PartHeld, RecorderThread.filePhase, CapturePc.filePhase, diskNext, Disk.closed,
          hwriting, Content.closed, if_true]
    | attach size sidecarSize =>
        simp only [PartHeld, RecorderThread.filePhase, CapturePc.filePhase, diskNext, Disk.write,
          Function.update_self]

/-- What a step does to a partial file that it does not open: at most a run is over. -/
theorem diskNext_parts (hopen : ¬ OpensPart cfg t k name) :
    ((diskNext cfg i s t k d).parts name = d.parts name ∧
        ∀ other, t.filePhase cfg ≠ .encoding other) ∨
      ∃ ok, (diskNext cfg i s t k d).parts name = (d.parts name).closed i ok := by
  by_cases hphase : t.filePhase cfg = .idle
  · left
    refine ⟨?_, fun other h => by rw [hphase] at h; cases h⟩
    unfold diskNext
    dsimp only
    split
    · rename_i n p e mode pc
      split
      · rename_i c
        have hne : name ≠ cfg.clips.clipBase e.eventTime :=
          fun he => hopen ⟨n, p, e, mode, c, rfl, rfl, he.symm⟩
        simp only [Disk.openPart, Function.update_of_ne hne]
      · cases hphase
      · cases hphase
      · cases hphase
      · rfl
      · rfl
      · cases hphase
      · rfl
    · rfl
  · obtain ⟨n, p, e, mode, pc, rfl⟩ := capture_of_filePhase hphase
    cases pc with
    | encode =>
        right
        cases k with
        | io c =>
            cases c with
            | encoded part => exact ⟨true, rfl⟩
            | _ => exact ⟨false, rfl⟩
        | _ => exact ⟨false, rfl⟩
    | publish size mtime =>
        left
        refine ⟨?_, fun other h => by cases h⟩
        cases k with
        | io c =>
            simp only [diskNext]
            split <;> rfl
        | _ => rfl
    | replaceSidecar size sidecarSize =>
        left
        refine ⟨?_, fun other h => by cases h⟩
        cases k with
        | io c =>
            simp only [diskNext]
            split <;> rfl
        | _ => rfl
    | _ => exact absurd rfl hphase

theorem diskNext_temps (hopen : ¬ OpensTemp cfg t k name) :
    (diskNext cfg i s t k d).temps name = d.temps name := by
  unfold diskNext
  dsimp only
  split
  · rename_i n p e mode pc
    split
    · rfl
    · rfl
    · rfl
    · split <;> rfl
    · rename_i size c
      have hne : name ≠ cfg.clips.clipBase e.eventTime :=
        fun he => hopen ⟨n, p, e, mode, size, _, rfl, rfl, he.symm⟩
      simp only [Disk.write, Function.update_of_ne hne]
    · rename_i size
      have hne : name ≠ cfg.clips.clipBase e.eventTime :=
        fun he => hopen ⟨n, p, e, mode, size, _, rfl, rfl, he.symm⟩
      simp only [Disk.write, Function.update_of_ne hne]
    · split <;> rfl
    · rfl
  · rfl

/-- A step of thread `i` that opens none of its files leaves thread `j` what it has. -/
theorem PartHeld.others (hne : j ≠ i) (hv : PartHeld cfg j (s, d) v)
    (hpart : ∀ name, v.filePhase cfg = .encoding name ∨ v.filePhase cfg = .publishing name →
      ¬ OpensPart cfg t k name)
    (htemp : ∀ name, v.filePhase cfg = .attaching name → ¬ OpensTemp cfg t k name) :
    PartHeld cfg j (s', diskNext cfg i s t k d) v := by
  simp only [PartHeld] at hv ⊢
  split at hv
  · rename_i name hphase
    rcases diskNext_parts (i := i) (s := s) (d := d) (hpart name (.inl hphase)) with
        ⟨hsame, -⟩ | ⟨ok, hclosed⟩
    · exact hsame.trans hv
    · exact hclosed.trans (closed_other hne hv)
  · rename_i name hphase
    rcases diskNext_parts (i := i) (s := s) (d := d) (hpart name (.inr hphase)) with
        ⟨hsame, -⟩ | ⟨ok, hclosed⟩
    · exact hsame.trans hv
    · rw [hclosed, hv, closed_complete]
  · rename_i name hphase
    rw [diskNext_temps (htemp name hphase)]
    exact hv
  · trivial

/-- Who writes a partial file after the step was writing it before and goes on, or has just
    opened it. -/
theorem diskNext_writing (hn : recorderNext cfg i s t k = some (s', t'))
    (h : (diskNext cfg i s t k d).parts name = .writing j) :
    (j = i ∧ t'.filePhase cfg = .encoding name) ∨
      (d.parts name = .writing j ∧ (j = i → t.filePhase cfg ≠ .encoding name)) := by
  by_cases hopens : OpensPart cfg t k name
  · left
    obtain ⟨n, p, e, mode, c, rfl, rfl, rfl⟩ := hopens
    cases hn
    simp only [diskNext, Disk.openPart, Function.update_self] at h
    split at h
    · cases h
    · cases h
      exact ⟨rfl, rfl⟩
  · right
    rcases diskNext_parts (i := i) (s := s) (d := d) hopens with ⟨hsame, hno⟩ | ⟨ok, hclosed⟩
    · exact ⟨hsame ▸ h, fun _ => hno name⟩
    · rw [hclosed, Content.closed] at h
      split at h
      · split at h <;> cases h
      · rename_i hne
        exact ⟨h, fun hji => absurd (hji ▸ h) hne⟩

end Step

/-! ## Runs -/

section Run

variable {cfg : RecorderConfig} {c c' : Conf (Process × Disk) RecorderThread} {i j : ℕ}
variable {k : RecorderChoice} {t v : RecorderThread} {name : String}

theorem OneWriter.part (hG : OneWriter cfg c (.run (.sched i k))) (ht : c.pool[i]? = some t)
    (hv : c.pool[j]? = some v) (hne : j ≠ i)
    (hphase : v.filePhase cfg = .encoding name ∨ v.filePhase cfg = .publishing name) :
    ¬ OpensPart cfg t k name := by
  rintro ⟨n, p, e, mode, x, rfl, rfl, rfl⟩
  have hj := List.all_eq_true.mp hG j (List.mem_range.mpr (List.getElem?_eq_some_iff.mp hv).1)
  simp only [ht, hv, Bool.or_eq_true, beq_iff_eq, hne, false_or, decide_eq_true_eq] at hj
  rcases hphase with hphase | hphase
  · exact hj.1 hphase
  · exact hj.2 hphase

theorem OneWriter.temp (hG : OneWriter cfg c (.run (.sched i k))) (ht : c.pool[i]? = some t)
    (hv : c.pool[j]? = some v) (hne : j ≠ i) (hphase : v.filePhase cfg = .attaching name) :
    ¬ OpensTemp cfg t k name := by
  rintro ⟨n, p, e, mode, size, x, rfl, rfl, rfl⟩
  have hj := List.all_eq_true.mp hG j (List.mem_range.mpr (List.getElem?_eq_some_iff.mp hv).1)
  simp only [ht, hv, Bool.or_eq_true, beq_iff_eq, hne, false_or, decide_eq_true_eq] at hj
  exact hj hphase

/-- The proof outline, in the runs in which the writers are known. -/
theorem whole_outline (cfg : RecorderConfig) :
    OwickiGries (diskRecorder cfg)
      (fun c e => WritersKnown cfg c ∧ OneWriter cfg c (.run e)) Whole (PartHeld cfg) where
  enter i s r _ := by cases r <;> exact trivial
  own c i k t s' t' hc hG ht hn := by
    obtain ⟨hn, hdisk⟩ := Prog.beside_next hn
    have hfree : ∀ name, OpensPart cfg t k name → ∀ j, c.shared.2.parts name ≠ .writing j := by
      intro name hopens j hwriting
      obtain ⟨v, hv, hphase⟩ := hG.1 name j hwriting
      by_cases hij : j = i
      · subst hij
        cases ht.symm.trans hv
        obtain ⟨n, p, e, mode, x, rfl, -, -⟩ := hopens
        cases hphase
      · exact hG.2.part ht hv hij (.inl hphase) hopens
    have hwhole := whole_next hc.1 (hc.2 i t ht) hn
    have hheld := partHeld_own (hc.2 i t ht) hfree hn
    rw [← hdisk] at hwhole hheld
    exact ⟨hwhole, hheld⟩
  others c i k t s' t' j v hc hG ht hn hne hj := by
    obtain ⟨-, hdisk⟩ := Prog.beside_next hn
    have hheld : PartHeld cfg j (s'.1, _) v := (hc.2 j v hj).others hne
      (fun name hphase => hG.2.part ht hj hne hphase)
      fun name hphase => hG.2.temp ht hj hne hphase
    rw [← hdisk] at hheld
    exact hheld
  env c x s' _ _ _ := nomatch x

theorem writersKnown_step {e : RecorderLife} (h : WritersKnown cfg c)
    (hs : diskStep cfg c e = some c') : WritersKnown cfg c' := by
  rcases life_cases hs with ⟨x, rfl, hx⟩ | ⟨rfl, rfl⟩
  · rcases Prog.step_cases hx with ⟨r, rfl, rfl⟩ | ⟨i, k, t, s, t', rfl, ht, hn, rfl⟩ |
        ⟨y, s, rfl, -, -⟩
    · intro name j hwriting
      obtain ⟨v, hv, hphase⟩ := h name j hwriting
      refine ⟨v, ?_, hphase⟩
      rw [List.getElem?_append_left (List.getElem?_eq_some_iff.mp hv).1]
      exact hv
    · obtain ⟨hn, hdisk⟩ := Prog.beside_next hn
      intro name j hwriting
      have hwriting' : s.2.parts name = .writing j := hwriting
      rw [hdisk] at hwriting'
      show ∃ v, (c.pool.set i t')[j]? = some v ∧ _
      rcases diskNext_writing hn hwriting' with ⟨rfl, hphase⟩ | ⟨hold, hgone⟩
      · exact ⟨t', by rw [getElem?_set_of_get ht, if_pos rfl], hphase⟩
      · obtain ⟨v, hv, hphase⟩ := h name j hold
        have hij : i ≠ j := by
          rintro rfl
          cases ht.symm.trans hv
          exact hgone rfl hphase
        exact ⟨v, by rw [getElem?_set_of_get ht, if_neg hij]; exact hv, hphase⟩
    · exact nomatch y
  · intro name j hwriting
    have hcut : (if c.shared.2.parts name = .complete then Content.complete else .torn) =
        .writing j := hwriting
    split at hcut <;> cases hcut

theorem Whole.boot {s : Process × Disk} (h : Whole s) : Whole (s.1.boot, s.2.boot) where
  clips name hfind := by
    simp only [Disk.boot, h.clips name hfind, if_true]
  sidecars name hsidecar := by
    simp only [Disk.boot, h.sidecars name hsidecar, if_true]

theorem whole_of_run {files : StateFiles} {store : Store}
    (h : Steps (diskStep cfg) (OneWriter cfg) (diskStart files store) c) : Whole c.shared := by
  have hstart : Annotated Whole (PartHeld cfg) (diskStart files store) ∧
      WritersKnown cfg (diskStart files store) := by
    refine ⟨⟨⟨fun _ _ => rfl, fun _ _ => rfl⟩, fun i t ht => ?_⟩, fun name j hwriting => ?_⟩
    · cases ht
    · cases hwriting
  have hsound := h.invariant (K := fun c => Annotated Whole (PartHeld cfg) c ∧ WritersKnown cfg c)
    (fun a e b ha hG hs =>
      ⟨OwickiGries.life (G := fun c e => WritersKnown cfg c ∧ OneWriter cfg c e)
        (whole_outline cfg) (fun c hc _ => hc.1.boot) a e b ha.1 ⟨ha.2, hG⟩ hs,
        writersKnown_step ha.2 hs⟩) hstart
  exact hsound.1.1

end Run

/-- What the claim of a clean start-up is: no partial file under `CLIP_DIR`, whole clips and
    sidecars, and the count of the clips that are big enough. -/
structure Consistent (s : Process × Disk) : Prop where
  swept : ∀ file ∈ s.1.store.fileNames,
    globbed ".part" file = false ∧ globbed ".json.tmp" file = false
  clips : ∀ f ∈ s.1.store.clips.files, s.2.clips f.name = .complete
  sidecars : ∀ f ∈ s.1.store.sidecars, s.2.sidecars f.name = .complete
  count : s.1.store.count =
    (s.1.store.clips.files.filter fun f => decide (minClipSize ≤ f.size)).length

theorem Whole.consistent {s : Process × Disk} (h : Whole s) :
    Consistent (s.1.boot, s.2.boot) where
  swept file hfile := by
    have hswept : file ∈ sweep s.1.store.fileNames := by
      rw [sweep_fileNames]
      exact hfile
    have hkept := (List.mem_filter.mp hswept).2
    rw [Bool.not_eq_true', Bool.or_eq_false_iff] at hkept
    exact hkept
  clips f hf := by
    refine h.boot.clips f.name fun hnone => ?_
    exact ClipDir.not_mem_of_find hnone f hf rfl
  sidecars f hf := by
    refine h.boot.sidecars f.name fun hnone => ?_
    have hno := List.find?_eq_none.mp hnone f hf
    simp at hno
  count := rfl

/-- The recorder is killed after any run in which every partial file has one writer: the next
    start-up finds and leaves a consistent clip tree. -/
theorem start_up_consistent (cfg : RecorderConfig) (files : StateFiles) (store : Store)
    (c : Conf (Process × Disk) RecorderThread)
    (h : Steps (diskStep cfg) (OneWriter cfg) (diskStart files store) c) :
    ∃ c', diskStep cfg c .restart = some c' ∧
      c'.shared.1.store.fileNames = sweep c.shared.1.store.fileNames ∧ Consistent c'.shared :=
  ⟨_, rfl, (sweep_fileNames c.shared.1.store).symm, (whole_of_run h).consistent⟩

/-! ## Executions -/

abbrev wholeStart : Conf (Process × Disk) RecorderThread :=
  diskStart ⟨none, none, none⟩ (startUp ⟨[], List.nodup_nil⟩ [] []).shared

/-- The recorder is killed with one clip published and ffmpeg at work for another. -/
theorem start_up_consistent_encoding :
    ∃ c c', Steps (diskStep (sampleRecorder.zoned fun _ => 0))
        (OneWriter (sampleRecorder.zoned fun _ => 0)) wholeStart c ∧
      c.shared.1.store.parts = ["19700101_001720_000"] ∧
      diskStep (sampleRecorder.zoned fun _ => 0) c .restart = some c' ∧
      c'.shared.1.store.fileNames = ["19700101_001640_000.mp4".toList] ∧ Consistent c'.shared := by
  let cfg := sampleRecorder.zoned fun _ => 0
  let c := exec (guardedStep (diskStep cfg) (OneWriter cfg)) wholeStart
    (accepting 0 1000 ++ publishing 0 20000 ++ move 0 :: accepting 1 1040 ++
      (publishing 1 30000).take 8)
  have hrun : Steps (diskStep cfg) (OneWriter cfg) wholeStart c :=
    Steps.execGuarded (by with_unfolding_all decide)
  obtain ⟨c', hc', hfiles, hconsistent⟩ := start_up_consistent cfg _ _ c hrun
  refine ⟨c, c', hrun, by with_unfolding_all decide, hc', ?_, hconsistent⟩
  rw [hfiles]
  with_unfolding_all decide

/-- A notification without an event time that the gate lets through. -/
def acceptingNow (i : ℕ) (now : ℚ) : List RecorderLife :=
  .run (.enter (.notify [])) :: .run (.sched i (.clock now)) :: List.replicate 11 (move i)

/-- A worker that reads the clock, up to the start of its ffmpeg. -/
def encodingNow (i : ℕ) (now : ℚ) : List RecorderLife :=
  [move i, move i, .run (.sched i (.clock now)), move i, move i,
    .run (.sched i (.io (.free 200))), move i, move i]

/-- The first of two workers that have read the same millisecond is about to publish when the
    second starts its ffmpeg. -/
def overwritten : List RecorderLife :=
  acceptingNow 0 1000 ++ acceptingNow 1 1040 ++ encodingNow 0 (1040 + 1 / 2) ++
    .run (.sched 0 (.io (.encoded (some (20000, 0))))) ::
      encodingNow 1 (1040 + 1 / 2 + 1 / 4096) ++ [move 0]

/-- The recorder is killed then: the clip is listed and counted, and its content is cut short. -/
theorem start_up_inconsistent :
    ∃ c c', Steps (diskStep (sampleRecorder.zoned fun _ => 0)) free wholeStart c ∧
      c.shared.1.acceptedTimes = [.finite 1000, .finite 1040] ∧
      diskStep (sampleRecorder.zoned fun _ => 0) c .restart = some c' ∧
      c'.shared.1.store.clips.files = [⟨"19700101_001720_500", 20000, 0⟩] ∧
      c'.shared.1.store.count = 1 ∧
      c'.shared.2.clips "19700101_001720_500" = .torn ∧ ¬ Consistent c'.shared := by
  let cfg := sampleRecorder.zoned fun _ => 0
  let c := exec (diskStep cfg) wholeStart overwritten
  let c' := exec (diskStep cfg) c [.restart]
  have hfiles : c'.shared.1.store.clips.files = [⟨"19700101_001720_500", 20000, 0⟩] := by
    decide +kernel
  have htorn : c'.shared.2.clips "19700101_001720_500" = .torn := by decide +kernel
  refine ⟨c, c', Steps.exec (by with_unfolding_all decide), by with_unfolding_all decide,
    step_exec (by with_unfolding_all decide),
    hfiles, by with_unfolding_all decide, htorn, fun h => ?_⟩
  have hwhole := h.clips ⟨"19700101_001720_500", 20000, 0⟩
    (by rw [hfiles]; exact List.mem_singleton_self _)
  rw [htorn] at hwhole
  cases hwhole

end Babycat.Recorder
