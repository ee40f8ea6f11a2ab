/-
  Babycat.Recorder.Clips

  The clip tree under `CLIP_DIR` and the threads that change it: the event
  worker with its two capture paths and their capacity pruning (`finalize.py`,
  `clip_storage.py`) and the deletion endpoints (`main.py`).

  One step of a thread is one file system call, one query of the database or
  one acquisition of `_count_lock`.  The choice of a step is what the program
  does not decide: the answer of ffmpeg or of the disk, the next entry of a
  directory scan, an exception.  A clip, its sidecar and its partial output
  share one base name and are known by it.
-/

import Babycat.Conc.Pool
import Mathlib.Data.List.Sort
import Mathlib.Algebra.Order.Field.Rat

namespace Babycat.Recorder

open Babycat.Conc

/-- `MIN_CLIP_SIZE`: smaller files cannot hold a playable clip. -/
def minClipSize : ℕ := 10240

/-- Deployment values, and the base name that the local time gives an event. -/
structure ClipConfig where
  clipBase : ℚ → String
  minFreeBytes : ℕ
  targetFreeBytes : ℕ

/-- A published `.mp4`. -/
structure ClipFile where
  name : String
  size : ℕ
  mtime : ℚ
  deriving DecidableEq

/-- The `.mp4` files under `CLIP_DIR`; the date directories follow from the name. -/
structure ClipDir where
  files : List ClipFile
  unique : (files.map ClipFile.name).Nodup
  deriving DecidableEq

namespace ClipDir

variable (d : ClipDir)

/-- The file of the clip `name`, when it exists. -/
def find (name : String) : Option ClipFile := d.files.find? fun f => f.name == name

def unlink (name : String) : ClipDir where
  files := d.files.filter fun f => f.name != name
  unique := d.unique.sublist (List.filter_sublist.map _)

/-- `os.replace` onto the name of `f`. -/
def replace (f : ClipFile) : ClipDir where
  files := (d.unlink f.name).files ++ [f]
  unique := by
    rw [List.map_append, List.nodup_append]
    refine ⟨(d.unlink f.name).unique, List.nodup_singleton _, ?_⟩
    rintro name hname other hother rfl
    obtain ⟨g, hg, hgname⟩ := List.mem_map.mp hname
    have hne : g.name ≠ f.name := by simpa using (List.mem_filter.mp hg).2
    exact hne (hgname.trans (List.mem_singleton.mp hother))

/-- `list_clip_files`: oldest first. -/
def list : List String := (d.files.insertionSort fun f g => f.mtime ≤ g.mtime).map ClipFile.name

/-- What `recount_clips` counts: damaged files are left out. -/
def recount : ℕ := (d.files.filter fun f => decide (minClipSize ≤ f.size)).length

end ClipDir

structure Sidecar where
  name : String
  size : ℕ
  deriving DecidableEq

/-- A row of the event history. -/
structure EventRow where
  trigger : String
  clipName : Option String
  createdAt : ℚ
  deriving DecidableEq

structure Store where
  clips : ClipDir
  sidecars : List Sidecar
  /-- The `.mp4.part` and `.json.tmp` files. -/
  parts : List String
  temps : List String
  /-- `_clip_count`. -/
  count : ℕ
  events : List EventRow
  deriving DecidableEq

namespace Store

variable (s : Store)

def sidecar (name : String) : Option Sidecar := s.sidecars.find? fun f => f.name == name

def unlinkClip (name : String) : Store := { s with clips := s.clips.unlink name }

def unlinkSidecar (name : String) : Store :=
  { s with sidecars := s.sidecars.filter fun f => f.name != name }

def unlinkPart (name : String) : Store := { s with parts := s.parts.filter fun p => p != name }

def unlinkTemp (name : String) : Store := { s with temps := s.temps.filter fun p => p != name }

/-- The partial output gets its final name. -/
def publish (f : ClipFile) : Store := { s.unlinkPart f.name with clips := s.clips.replace f }

/-- `cleanup_partial_outputs(part_path, meta_path)`. -/
def cleanupPartialOutputs (name : String) : Store := (s.unlinkPart name).unlinkSidecar name

/-- The end of `_write_sidecar`: the temp file gets its final name. -/
def replaceSidecar (f : Sidecar) : Store :=
  { s.unlinkTemp f.name with sidecars := (s.unlinkSidecar f.name).sidecars ++ [f] }

def countAddedClip (size : ℕ) : Store :=
  if size < minClipSize then s else { s with count := s.count + 1 }

/-- The counter does not go below zero. -/
def countRemovedClip (size : ℕ) : Store :=
  if size < minClipSize then s else { s with count := s.count - 1 }

def deleteEventsForClips (names : List String) : Store :=
  { s with events := s.events.filter fun row =>
      match row.clipName with
      | some name => !names.contains name
      | none => true }

end Store

/-- What a step leaves open. -/
inductive Choice
  | go
  | raise
  /-- The free bytes of the disk. -/
  | free (bytes : ℕ)
  /-- ffmpeg exits with 0, with this partial output or none. -/
  | encoded (part : Option (ℕ × ℚ))
  /-- ffmpeg has written no file, and the report of it raises. -/
  | unreported
  /-- ffmpeg fails, times out or cannot be run. -/
  | ffmpegFailed
  /-- No segment covers the window. -/
  | noSegments
  /-- The size of the sidecar that was written. -/
  | written (size : ℕ)
  /-- Writing the sidecar fails half way. -/
  | torn
  /-- The next entry of a directory scan. -/
  | entry (name : Option String)
  deriving DecidableEq

/-! ## Capacity pruning -/

/-- The locals of `_prune_with_history` and `ensure_clip_capacity`. -/
structure Pruning where
  before : List String
  deletedFiles : ℕ
  deletedBytes : ℕ
  currentFree : ℕ
  deriving DecidableEq

/-- `rest` are the clips that the loop has not come to. -/
inductive PrunePc
  | before
  | free (before : List String)
  | list (p : Pruning)
  | present (p : Pruning) (name : String) (rest : List String)
  | stat (p : Pruning) (name : String) (rest : List String)
  | unlink (p : Pruning) (name : String) (size : ℕ) (rest : List String)
  | count (p : Pruning) (name : String) (size : ℕ) (rest : List String)
  | sidecar (p : Pruning) (name : String) (rest : List String)
  | statSidecar (p : Pruning) (name : String) (rest : List String)
  | unlinkSidecar (p : Pruning) (name : String) (rest : List String)
  | refree (p : Pruning) (rest : List String)
  | after (p : Pruning)
  | history (p : Pruning) (removed : List String)
  deriving DecidableEq

inductive PruneOutcome
  | running (pc : PrunePc)
  | returned (ok : Bool)
  | raised
  deriving DecidableEq

/-- The result of `ensure_clip_capacity` once its loop has ended. -/
def pruneEnd (cfg : ClipConfig) (p : Pruning) : PruneOutcome :=
  if p.deletedFiles = 0 then .returned (decide (cfg.minFreeBytes ≤ p.currentFree))
  else .running (.after p)

/-- The next round of the loop over the clips. -/
def pruneLoop (cfg : ClipConfig) (p : Pruning) : List String → PruneOutcome
  | [] => pruneEnd cfg p
  | name :: rest => .running (.present p name rest)

def pruneNext (cfg : ClipConfig) (s : Store) (k : Choice) : PrunePc → Option (Store × PruneOutcome)
  -- sorting by `st_mtime` raises when a file vanishes under the listing
  | .before => some (s, if k = .raise then .raised else .running (.free s.clips.list))
  | .free before =>
      match k with
      | .free bytes =>
          some (s, if cfg.minFreeBytes ≤ bytes then .returned true
            else .running (.list ⟨before, 0, 0, bytes⟩))
      | _ => none
  | .list p => some (s, if k = .raise then .raised else pruneLoop cfg p s.clips.list)
  | .present p name rest =>
      some (s, .running (if (s.clips.find name).isSome then .stat p name rest
        else .sidecar p name rest))
  | .stat p name rest =>
      some (s, match s.clips.find name with
        | some f =>
            .running (.unlink { p with deletedBytes := p.deletedBytes + f.size } name f.size rest)
        | none => .raised)
  | .unlink p name size rest =>
      match s.clips.find name with
      | some _ => some (s.unlinkClip name, .running (.count p name size rest))
      | none => some (s, .raised)
  | .count p name size rest => some (s.countRemovedClip size, .running (.sidecar p name rest))
  | .sidecar p name rest =>
      some (s, .running (if (s.sidecar name).isSome then .statSidecar p name rest
        else .refree { p with deletedFiles := p.deletedFiles + 1 } rest))
  | .statSidecar p name rest =>
      some (s, match s.sidecar name with
        | some f =>
            .running (.unlinkSidecar { p with deletedBytes := p.deletedBytes + f.size } name rest)
        | none => .raised)
  | .unlinkSidecar p name rest =>
      match s.sidecar name with
      | some _ => some (s.unlinkSidecar name,
          .running (.refree { p with deletedFiles := p.deletedFiles + 1 } rest))
      | none => some (s, .raised)
  | .refree p rest =>
      match k with
      | .free bytes =>
          some (s, if max cfg.minFreeBytes cfg.targetFreeBytes ≤ bytes
            then pruneEnd cfg { p with currentFree := bytes }
            else pruneLoop cfg { p with currentFree := bytes } rest)
      | _ => none
  | .after p =>
      some (s, if k = .raise then .raised
        else .running (.history p (p.before.filter fun name => !s.clips.list.contains name)))
  -- rows go by the names that were listed before and are not any more
  | .history p removed =>
      if k = .raise then some (s, .raised)
      else some (s.deleteEventsForClips removed,
        .returned (decide (cfg.minFreeBytes ≤ p.currentFree)))

/-! ## The capture paths -/

inductive CaptureMode
  | rollover
  | direct
  deriving DecidableEq

/-- From `stat` on, `written` is the size of the file that ffmpeg wrote. -/
inductive CapturePc
  | base
  | prune (pc : PrunePc)
  | select
  | ffmpeg
  | encode
  | publish (size : ℕ) (mtime : ℚ)
  | stat (written : ℕ)
  | probe (size : ℕ)
  | buildMeta (size : ℕ)
  | writeSidecar (size : ℕ)
  | replaceSidecar (size sidecarSize : ℕ)
  | count (size : ℕ)
  | report
  deriving DecidableEq

inductive CaptureOutcome
  | running (pc : CapturePc)
  | returned (clipName : Option String)
  | raised
  deriving DecidableEq

/-- `_finalize_rollover_clip` and `_record_direct_clip` for the base name `name`: only the first
    selects segments, the rest of the two is the same. -/
def captureNext (cfg : ClipConfig) (mode : CaptureMode) (name : String) (s : Store) (k : Choice) :
    CapturePc → Option (Store × CaptureOutcome)
  | .base => some (s, if k = .raise then .raised else .running (.prune .before))
  | .prune pc =>
      (pruneNext cfg s k pc).map fun r => (r.1, match r.2 with
        | .running pc' => .running (.prune pc')
        | .returned true => .running (if mode = .rollover then .select else .ffmpeg)
        | .returned false => .returned none
        | .raised => .raised)
  | .select =>
      some (s, match k with
        | .raise => .raised
        | .noSegments => .returned none
        | _ => .running .ffmpeg)
  | .ffmpeg => some ({ s with parts := name :: s.parts }, .running .encode)
  | .encode =>
      match k with
      | .encoded (some part) => some (s, .running (.publish part.1 part.2))
      | .encoded none => some (s.unlinkPart name, .returned none)
      | .unreported => some (s.unlinkPart name, .raised)
      | .ffmpegFailed => some (s.cleanupPartialOutputs name, .returned none)
      | .raise => some (s.cleanupPartialOutputs name, .raised)
      | _ => none
  -- `os.replace`: from here on the clip is listed, and can be deleted
  | .publish size mtime =>
      if s.parts.contains name then some (s.publish ⟨name, size, mtime⟩, .running (.stat size))
      else some (s, .returned none)
  | .stat _ =>
      some (s, match s.clips.find name with
        | some f => .running (.probe f.size)
        | none => .raised)
  | .probe size => some (s, .running (.buildMeta size))
  -- `build_trigger_clip_meta` takes the times of the payload as they come
  | .buildMeta size => some (s, if k = .raise then .raised else .running (.writeSidecar size))
  | .writeSidecar size =>
      match k with
      | .written sidecarSize =>
          some ({ s with temps := name :: s.temps }, .running (.replaceSidecar size sidecarSize))
      | .torn => some ({ s with temps := name :: s.temps }, .running (.count size))
      | .raise => some (s, .running (.count size))
      | _ => none
  | .replaceSidecar size sidecarSize =>
      some (if k = .raise then s else s.replaceSidecar ⟨name, sidecarSize⟩, .running (.count size))
  -- counted last: the count is the signal to refresh the list
  | .count size => some (s.countAddedClip size, .running .report)
  | .report => some (s, if k = .raise then .raised else .returned (some name))

/-! ## The event worker -/

/-- An accepted notification. -/
structure EventIn where
  keywords : List String
  eventTime : ℚ
  deriving DecidableEq

inductive EventPc
  | capture (mode : CaptureMode) (pc : CapturePc)
  | insert (clipName : Option String)
  | done
  deriving DecidableEq

/-- `_process_event`: the rollover clip, else the direct recording, and the history row. -/
def eventNext (cfg : ClipConfig) (e : EventIn) (s : Store) (k : Choice) :
    EventPc → Option (Store × EventPc)
  | .capture mode pc =>
      (captureNext cfg mode (cfg.clipBase e.eventTime) s k pc).map fun r => (r.1, match r.2 with
        | .running pc' => .capture mode pc'
        | .returned none =>
            if mode = .rollover then .capture .direct .base else .insert none
        | .returned (some name) => .insert (some name)
        -- an exception skips the fallback
        | .raised => .insert none)
  | .insert clipName =>
      some (if k = .raise then s else { s with
        events := s.events ++ [⟨String.intercalate "," e.keywords, clipName, e.eventTime⟩] }, .done)
  | .done => none

/-! ## The deletion endpoints -/

/-- `rest` are the names still to come to. -/
inductive DeletePc
  | next (rest : List String)
  | stat (name : String) (rest : List String)
  | unlink (name : String) (size : ℕ) (rest : List String)
  | count (name : String) (size : ℕ) (rest : List String)
  | sidecar (name : String) (rest : List String)
  | finished
  deriving DecidableEq

/-- Deletes the clip `name` when it exists, and goes on with `rest`. -/
def deletePick (s : Store) (name : String) (rest : List String) : DeletePc :=
  if (s.clips.find name).isSome then .stat name rest else .next rest

/-- The deletion of one clip, shared by the two endpoints, with the count of the deleted. -/
def deleteNext (s : Store) (deleted : ℕ) (pick : List String → Option DeletePc) :
    DeletePc → Option (Store × ℕ × DeletePc)
  | .next rest => (pick rest).map fun pc => (s, deleted, pc)
  | .stat name rest =>
      some (s, deleted, match s.clips.find name with
        | some f => .unlink name f.size rest
        | none => .next rest)
  | .unlink name size rest =>
      match s.clips.find name with
      | some _ => some (s.unlinkClip name, deleted, .count name size rest)
      | none => some (s, deleted, .next rest)
  -- a clip that vanished before is not ours to count
  | .count name size rest => some (s.countRemovedClip size, deleted, .sidecar name rest)
  | .sidecar name rest => some (s.unlinkSidecar name, deleted + 1, .next rest)
  | .finished => none

def hasWildcard (name : String) : Bool :=
  name.toList.any fun c => c == '*' || c == '?' || c == '['

/-- `_resolve_clip`: a name with wildcards stands for the clip that `rglob` comes to first. -/
def resolvedName (k : Choice) (name : String) : String :=
  match k with
  | .entry (some found) => if hasWildcard name then found else name
  | _ => name

/-- `delete_clips`: the names of the request, in order. -/
def deleteClips (s : Store) (k : Choice) (deleted : ℕ) : DeletePc → Option (Store × ℕ × DeletePc) :=
  deleteNext s deleted fun
    | [] => some .finished
    | name :: rest => some (deletePick s (resolvedName k name) rest)

/-- `delete_all_clips`: what the directory scan comes to. -/
def deleteAllClips (s : Store) (k : Choice) (deleted : ℕ) :
    DeletePc → Option (Store × ℕ × DeletePc) :=
  deleteNext s deleted fun rest =>
    match k with
    | .entry (some name) => some (deletePick s name rest)
    | .entry none => some .finished
    | _ => none

/-! ## The process -/

inductive ClipThread
  | event (e : EventIn) (pc : EventPc)
  | deleteClips (deleted : ℕ) (pc : DeletePc)
  | deleteAllClips (deleted : ℕ) (pc : DeletePc)
  deriving DecidableEq

inductive ClipRequest
  | event (e : EventIn)
  | deleteClips (names : List String)
  | deleteAllClips
  deriving DecidableEq

def enter : ClipRequest → ClipThread
  | .event e => .event e (.capture .rollover .base)
  | .deleteClips names => .deleteClips 0 (.next names)
  | .deleteAllClips => .deleteAllClips 0 (.next [])

def next (cfg : ClipConfig) (_ : ℕ) (s : Store) : ClipThread → Choice → Option (Store × ClipThread)
  | .event e pc, k => (eventNext cfg e s k pc).map fun r => (r.1, .event e r.2)
  | .deleteClips n pc, k => (deleteClips s k n pc).map fun r => (r.1, .deleteClips r.2.1 r.2.2)
  | .deleteAllClips n pc, k =>
      (deleteAllClips s k n pc).map fun r => (r.1, .deleteAllClips r.2.1 r.2.2)

/-- The threads of the recorder that work on the clip tree. -/
def clipTree (cfg : ClipConfig) : Prog Store ClipThread ClipRequest Choice Empty where
  enter := enter
  next := next cfg
  env _ x := nomatch x

/-- The process after its start-up: no partial file, and the clips are recounted. -/
def startUp (clips : ClipDir) (sidecars : List Sidecar) (events : List EventRow) :
    Conf Store ClipThread where
  shared :=
    { clips := clips
      sidecars := sidecars
      parts := []
      temps := []
      count := clips.recount
      events := events }
  pool := []

end Babycat.Recorder
