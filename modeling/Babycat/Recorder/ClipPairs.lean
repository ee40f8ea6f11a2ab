/-
  Babycat.Recorder.ClipPairs

  Every sidecar has its clip (`finalize.py`, `clip_storage.py`, `main.py`).

  A capture publishes the `.mp4`, measures and probes it, and only then puts
  the sidecar in place; a deletion takes the `.mp4` first and then the sidecar
  it finds.  A thread that has taken a clip and not yet its sidecar is
  `removing` it, and one that has written a sidecar is `attaching` it.  A
  sidecar that is attached while its clip is neither there nor being removed
  stays behind as an orphan; in the runs without such a step (`Attached`) there
  is none.
-/

import Babycat.Recorder.ClipCount

namespace Babycat.Recorder

open Babycat.Conc

/-! ## Sidecars -/

namespace Store

variable {s : Store} {name : String} {f : Sidecar}

theorem sidecar_unlinkSidecar (other : String) :
    (s.unlinkSidecar name).sidecar other = if other = name then none else s.sidecar other :=
  find?_filter_key Sidecar.name s.sidecars name other

theorem sidecar_replaceSidecar (other : String) :
    (s.replaceSidecar f).sidecar other = if other = f.name then some f else s.sidecar other := by
  have happ : (s.replaceSidecar f).sidecar other =
      ((s.unlinkSidecar f.name).sidecar other).or
        (if f.name == other then some f else none) := by
    simp only [sidecar, replaceSidecar, List.find?_append, List.find?_singleton]
  rw [happ, sidecar_unlinkSidecar]
  by_cases h : other = f.name
  · subst h; simp
  · have hne : ¬ f.name = other := fun he => h he.symm
    simp [h, hne]

end Store

/-! ## The steps as they concern pairs -/

inductive PairPhase
  | quiet
  /-- Has taken the clip and is about to take its sidecar. -/
  | removing (name : String)
  /-- Is about to put the sidecar in place. -/
  | attaching (name : String)
  deriving DecidableEq

def PrunePc.pairPhase : PrunePc → PairPhase
  | .count _ name _ _ | .sidecar _ name _ | .statSidecar _ name _ | .unlinkSidecar _ name _ =>
      .removing name
  | _ => .quiet

def CapturePc.pairPhase (name : String) : CapturePc → PairPhase
  | .prune pc => pc.pairPhase
  | .replaceSidecar _ _ => .attaching name
  | _ => .quiet

def DeletePc.pairPhase : DeletePc → PairPhase
  | .count name _ _ | .sidecar name _ => .removing name
  | _ => .quiet

def ClipThread.pairPhase (cfg : ClipConfig) : ClipThread → PairPhase
  | .event e (.capture _ pc) => pc.pairPhase (cfg.clipBase e.eventTime)
  | .event _ _ => .quiet
  | .deleteClips _ pc | .deleteAllClips _ pc => pc.pairPhase

/-- What a step may do to the pairs: a sidecar comes by being attached, who takes a clip goes on
    to its sidecar, and does not leave before that is gone. -/
structure PairStep (s : Store) (p : PairPhase) (s' : Store) (p' : PairPhase) : Prop where
  attached : ∀ name, s'.sidecar name ≠ none → s.sidecar name ≠ none ∨ p = .attaching name
  taken : ∀ name, s.clips.find name ≠ none →
    s'.clips.find name ≠ none ∨ p' = .removing name
  removed : ∀ name, p = .removing name → p' = .removing name ∨ s'.sidecar name = none

/-! ## The threads' steps -/

section Refines

variable {cfg : ClipConfig} {s s' : Store} {k : Choice} {p p' : PairPhase}

/-- A step that leaves clips and sidecars alone. -/
theorem PairStep.same (hclips : s'.clips = s.clips) (hsidecars : s'.sidecars = s.sidecars)
    (hp : ∀ name, p = .removing name → p' = .removing name ∨ s.sidecar name = none) :
    PairStep s p s' p' where
  attached name h := by
    rw [Store.sidecar, hsidecars] at h
    exact .inl h
  taken name h := .inl (by rw [hclips]; exact h)
  removed name h := by
    rw [Store.sidecar, hsidecars]
    exact hp name h

theorem PairStep.quiet (hclips : s'.clips = s.clips) (hsidecars : s'.sidecars = s.sidecars)
    (hp : ∀ name, p ≠ .removing name) : PairStep s p s' p' :=
  .same hclips hsidecars fun name h => absurd h (hp name)

theorem pairStep_unlinkClip (name : String) :
    PairStep s .quiet (s.unlinkClip name) (.removing name) where
  attached _ h := .inl h
  taken other h := by
    by_cases hname : other = name
    · exact .inr (by rw [hname])
    · refine .inl ?_
      rw [Store.unlinkClip, ClipDir.find_unlink, if_neg hname]
      exact h
  removed _ h := by cases h

/-- A sidecar is removed. -/
theorem pairStep_unlinkSidecar (name : String) (hp : p = .removing name ∨ p = .quiet)
    (p' : PairPhase) (hclips : s'.clips = s.clips)
    (hsidecars : s'.sidecars = (s.unlinkSidecar name).sidecars) : PairStep s p s' p' := by
  have hget : ∀ other, s'.sidecar other = if other = name then none else s.sidecar other := by
    intro other
    rw [Store.sidecar, hsidecars]
    exact Store.sidecar_unlinkSidecar other
  refine ⟨fun other h => ?_, fun other h => .inl (by rw [hclips]; exact h), fun other h => ?_⟩
  · rw [hget] at h
    split at h
    · exact absurd rfl h
    · exact .inl h
  · rcases hp with rfl | rfl
    · cases h
      exact .inr (by rw [hget, if_pos rfl])
    · cases h

theorem pairStep_replaceSidecar (f : Sidecar) (p' : PairPhase) :
    PairStep s (.attaching f.name) (s.replaceSidecar f) p' where
  attached other h := by
    rw [Store.sidecar_replaceSidecar] at h
    by_cases hname : other = f.name
    · exact .inr (by rw [hname])
    · rw [if_neg hname] at h
      exact .inl h
  taken _ h := .inl h
  removed _ h := by cases h

theorem pairStep_publish (f : ClipFile) (p' : PairPhase) :
    PairStep s .quiet (s.publish f) p' where
  attached _ h := .inl h
  taken other h := by
    refine .inl ?_
    rw [Store.publish, ClipDir.find_replace]
    split
    · simp
    · exact h
  removed _ h := by cases h

def PruneOutcome.pairPhase : PruneOutcome → PairPhase
  | .running pc => pc.pairPhase
  | .returned _ | .raised => .quiet

def CaptureOutcome.pairPhase (name : String) : CaptureOutcome → PairPhase
  | .running pc => pc.pairPhase name
  | .returned _ | .raised => .quiet

theorem countRemovedClip_same (size : ℕ) : (s.countRemovedClip size).clips = s.clips ∧
    (s.countRemovedClip size).sidecars = s.sidecars := by
  simp only [Store.countRemovedClip]
  split <;> exact ⟨rfl, rfl⟩

theorem countAddedClip_same (size : ℕ) : (s.countAddedClip size).clips = s.clips ∧
    (s.countAddedClip size).sidecars = s.sidecars := by
  simp only [Store.countAddedClip]
  split <;> exact ⟨rfl, rfl⟩

theorem pruneNext_pair {pc : PrunePc} {o : PruneOutcome}
    (h : pruneNext cfg s k pc = some (s', o)) : PairStep s pc.pairPhase s' o.pairPhase := by
  cases pc with
  | before | list p | present p name rest | stat p name rest | after p =>
      cases h
      exact .quiet rfl rfl fun _ h => by cases h
  | free before | refree p rest =>
      simp only [pruneNext] at h
      split at h <;> cases h
      exact .quiet rfl rfl fun _ h => by cases h
  | unlink p name size rest =>
      simp only [pruneNext] at h
      split at h <;> cases h
      · exact pairStep_unlinkClip name
      · exact .quiet rfl rfl fun _ h => by cases h
  | count p name size rest =>
      cases h
      exact .same (countRemovedClip_same size).1 (countRemovedClip_same size).2
        fun _ h => .inl h
  | sidecar p name rest =>
      cases h
      refine .same rfl rfl fun other h => ?_
      cases h
      cases hf : s.sidecar name with
      | none => exact .inr rfl
      | some f => exact .inl rfl
  | statSidecar p name rest =>
      cases h
      refine .same rfl rfl fun other h => ?_
      cases h
      cases hf : s.sidecar name with
      | none => exact .inr rfl
      | some f => exact .inl rfl
  | unlinkSidecar p name rest =>
      simp only [pruneNext] at h
      split at h <;> cases h
      · exact pairStep_unlinkSidecar name (.inl rfl) _ rfl rfl
      · rename_i hnone
        refine .same rfl rfl fun other h => ?_
        cases h
        exact .inr hnone
  | history p removed =>
      simp only [pruneNext] at h
      split at h <;> cases h <;> exact .quiet rfl rfl fun _ h => by cases h

theorem captureNext_pair {mode : CaptureMode} {name : String} {pc : CapturePc}
    {o : CaptureOutcome} (h : captureNext cfg mode name s k pc = some (s', o)) :
    PairStep s (pc.pairPhase name) s' (o.pairPhase name) := by
  cases pc with
  | base | select | stat written | probe size | buildMeta size | report =>
      cases h
      exact .quiet rfl rfl fun _ h => by cases h
  | prune pc =>
      obtain ⟨⟨a, o⟩, ha, heq⟩ := Option.map_eq_some_iff.mp h
      cases heq
      have hpair := pruneNext_pair ha
      rcases o with pc' | ⟨_ | _⟩ | _
      · exact hpair
      · exact hpair
      · have hquiet : (CaptureOutcome.running
            (if mode = .rollover then .select else .ffmpeg)).pairPhase name = .quiet := by
          simp only [CaptureOutcome.pairPhase]
          split <;> rfl
        rw [hquiet]
        exact hpair
      · exact hpair
  | ffmpeg =>
      cases h
      exact .quiet rfl rfl fun _ h => by cases h
  | encode =>
      simp only [captureNext] at h
      split at h <;> cases h
      · exact .quiet rfl rfl fun _ h => by cases h
      · exact .quiet rfl rfl fun _ h => by cases h
      · exact .quiet rfl rfl fun _ h => by cases h
      · exact pairStep_unlinkSidecar name (.inr rfl) _ rfl rfl
      · exact pairStep_unlinkSidecar name (.inr rfl) _ rfl rfl
  | publish size mtime =>
      simp only [captureNext] at h
      split at h <;> cases h
      · exact pairStep_publish ⟨name, size, mtime⟩ _
      · exact .quiet rfl rfl fun _ h => by cases h
  | writeSidecar size =>
      simp only [captureNext] at h
      split at h <;> cases h <;> exact .quiet rfl rfl fun _ h => by cases h
  | replaceSidecar size sidecarSize =>
      cases h
      split
      · exact .quiet rfl rfl fun _ h => by cases h
      · exact pairStep_replaceSidecar ⟨name, sidecarSize⟩ _
  | count size =>
      cases h
      exact .quiet (countAddedClip_same size).1 (countAddedClip_same size).2
        fun _ h => by cases h

theorem deleteNext_pair {pick : List String → Option DeletePc} {deleted deleted' : ℕ}
    {pc pc' : DeletePc} (h : deleteNext s deleted pick pc = some (s', deleted', pc')) :
    PairStep s pc.pairPhase s' pc'.pairPhase := by
  cases pc with
  | next rest =>
      obtain ⟨pc', -, heq⟩ := Option.map_eq_some_iff.mp h
      cases heq
      exact .quiet rfl rfl fun _ h => by cases h
  | stat name rest =>
      cases h
      exact .quiet rfl rfl fun _ h => by cases h
  | unlink name size rest =>
      simp only [deleteNext] at h
      split at h <;> cases h
      · exact pairStep_unlinkClip name
      · exact .quiet rfl rfl fun _ h => by cases h
  | count name size rest =>
      cases h
      exact .same (countRemovedClip_same size).1 (countRemovedClip_same size).2
        fun _ h => .inl h
  | sidecar name rest =>
      cases h
      exact pairStep_unlinkSidecar name (.inl rfl) _ rfl rfl
  | finished => cases h

theorem next_pair {i : ℕ} {t t' : ClipThread} (hn : next cfg i s t k = some (s', t')) :
    PairStep s (t.pairPhase cfg) s' (t'.pairPhase cfg) := by
  cases t with
  | event e pc =>
      obtain ⟨⟨a, pc'⟩, ha, heq⟩ := Option.map_eq_some_iff.mp hn
      cases heq
      cases pc with
      | capture mode pc =>
          obtain ⟨⟨b, o⟩, hb, hob⟩ := Option.map_eq_some_iff.mp ha
          cases hob
          have hpair := captureNext_pair hb
          rcases o with pc' | ⟨_ | name⟩ | _
          · exact hpair
          · have hquiet : (ClipThread.event e (if mode = .rollover then .capture .direct .base
                else .insert none)).pairPhase cfg = .quiet := by
              split <;> rfl
            simp only [hquiet]
            exact hpair
          · exact hpair
          · exact hpair
      | insert clipName =>
          cases ha
          split <;> exact .quiet rfl rfl fun _ h => by cases h
      | done => cases ha
  | deleteClips n pc | deleteAllClips n pc =>
      obtain ⟨⟨a, n', pc'⟩, ha, heq⟩ := Option.map_eq_some_iff.mp hn
      cases heq
      exact deleteNext_pair ha

end Refines

/-! ## The runs without orphans -/

/-- A sidecar is put in place only while its clip is there, or while a thread that has taken
    the clip is about to take the sidecar. -/
def attached (cfg : ClipConfig) (c : Conf Store ClipThread) :
    Event ClipRequest Choice Empty → Bool
  | .sched i _ =>
      match (c.pool[i]?).map (ClipThread.pairPhase cfg) with
      | some (.attaching name) => (c.shared.clips.find name).isSome ||
          c.pool.any fun t => t.pairPhase cfg == .removing name
      | _ => true
  | _ => true

def Attached (cfg : ClipConfig) (c : Conf Store ClipThread)
    (e : Event ClipRequest Choice Empty) : Prop :=
  attached cfg c e = true

instance (cfg : ClipConfig) (c : Conf Store ClipThread) (e : Event ClipRequest Choice Empty) :
    Decidable (Attached cfg c e) :=
  inferInstanceAs (Decidable (_ = true))

/-- The clip is there, or a thread that has taken it is about to take its sidecar. -/
def PairKept (cfg : ClipConfig) (c : Conf Store ClipThread) (name : String) : Prop :=
  c.shared.clips.find name ≠ none ∨ ∃ t ∈ c.pool, t.pairPhase cfg = .removing name

def Paired (cfg : ClipConfig) (c : Conf Store ClipThread) : Prop :=
  ∀ name, c.shared.sidecar name ≠ none → PairKept cfg c name

section Run

variable {cfg : ClipConfig} {c : Conf Store ClipThread} {i : ℕ} {k : Choice} {t t' : ClipThread}
variable {s' : Store} {name : String}

theorem Attached.kept (hG : Attached cfg c (.sched i k)) (ht : c.pool[i]? = some t)
    (hp : t.pairPhase cfg = .attaching name) : PairKept cfg c name := by
  simp only [Attached, attached, ht, Option.map_some, hp, Bool.or_eq_true, List.any_eq_true,
    beq_iff_eq, Option.isSome_iff_ne_none] at hG
  exact hG

/-- A kept pair stays kept while its sidecar is there. -/
theorem PairKept.step (h : PairKept cfg c name) (ht : c.pool[i]? = some t)
    (hs : PairStep c.shared (t.pairPhase cfg) s' (t'.pairPhase cfg))
    (hsidecar : s'.sidecar name ≠ none) : PairKept cfg ⟨s', c.pool.set i t'⟩ name := by
  rcases h with hclip | hremoving
  · exact (hs.taken name hclip).imp_right fun hp => ⟨t', mem_set_self ht, hp⟩
  · refine .inr (exists_mem_move ht hremoving (fun hp => ?_) fun _ hp => hp)
    exact (hs.removed name hp).resolve_right hsidecar

theorem paired_step (cfg : ClipConfig) (c : Conf Store ClipThread)
    (e : Event ClipRequest Choice Empty) (c' : Conf Store ClipThread) (h : Paired cfg c)
    (hG : Attached cfg c e) (hs : (clipTree cfg).step c e = some c') : Paired cfg c' := by
  rcases Prog.step_cases hs with ⟨r, rfl, rfl⟩ | ⟨i, k, t, s, t', rfl, ht, hn, rfl⟩ |
      ⟨x, s, rfl, hx, rfl⟩
  · intro name hsidecar
    refine (h name hsidecar).imp_right ?_
    rintro ⟨t, ht, hp⟩
    exact ⟨t, List.mem_append_left _ ht, hp⟩
  · have hpair := next_pair (i := i) hn
    intro name hsidecar
    refine PairKept.step ?_ ht hpair hsidecar
    rcases hpair.attached name hsidecar with hold | hattaching
    · exact h name hold
    · exact hG.kept ht hattaching
  · exact nomatch x

theorem pairPhase_of_finished (h : t.finished = true) : t.pairPhase cfg = .quiet := by
  cases t with
  | event e pc | deleteClips n pc | deleteAllClips n pc => cases pc <;> first | rfl | cases h

end Run

/-- In a run in which no sidecar is put in place for a clip that is gone, every sidecar has its
    clip whenever no operation is in progress. -/
theorem sidecars_have_clips (cfg : ClipConfig) (clips : ClipDir) (sidecars : List Sidecar)
    (events : List EventRow) (hstart : ∀ f ∈ sidecars, clips.find f.name ≠ none)
    (c : Conf Store ClipThread)
    (h : Steps (clipTree cfg).step (Attached cfg) (startUp clips sidecars events) c)
    (hquiet : ∀ t ∈ c.pool, t.finished = true) :
    ∀ f ∈ c.shared.sidecars, c.shared.clips.find f.name ≠ none := by
  have hpaired : Paired cfg c := by
    refine h.invariant (paired_step cfg) fun name hsidecar => .inl ?_
    obtain ⟨f, hf⟩ := Option.ne_none_iff_exists'.mp hsidecar
    have hname : f.name = name := by simpa using List.find?_some hf
    rw [← hname]
    exact hstart f (List.mem_of_find?_eq_some hf)
  intro f hf
  have hsidecar : c.shared.sidecar f.name ≠ none := by
    intro hnone
    have hno := List.find?_eq_none.mp hnone f hf
    simp at hno
  refine (hpaired f.name hsidecar).resolve_right ?_
  rintro ⟨t, ht, hp⟩
  rw [pairPhase_of_finished (hquiet t ht)] at hp
  cases hp

/-- The worker up to the sidecar's temp file. -/
def sidecarWritten : List (Event ClipRequest Choice Empty) :=
  published ++ [go 0, go 0, go 0, .sched 0 (.written 300)]

/-- The rest of the worker. -/
def sidecarAttached : List (Event ClipRequest Choice Empty) := [go 0, go 0, go 0, go 0]

/-- The clip is deleted while its sidecar is put in place; the deletion comes to it in time. -/
theorem sidecars_have_clips_deleted :
    ∃ c, Steps (clipTree sampleClips).step (Attached sampleClips) freshStart c ∧
      c.shared.events.length = 1 ∧ ∀ f ∈ c.shared.sidecars, c.shared.clips.find f.name ≠ none := by
  let c := exec (guardedStep (clipTree sampleClips).step (Attached sampleClips)) freshStart
    (sidecarWritten ++ deleteAll.take 4 ++ sidecarAttached ++ deleteAll.drop 4)
  have hrun : Steps (clipTree sampleClips).step (Attached sampleClips) freshStart c :=
    Steps.execGuarded (by decide)
  exact ⟨c, hrun, by decide,
    sidecars_have_clips sampleClips ⟨[], List.nodup_nil⟩ [] [] (fun f hf => by cases hf) c hrun
      (by decide)⟩

/-- `DELETE /clips/all` comes between the publication of the clip and its sidecar. -/
theorem sidecar_orphaned :
    ∃ c, Steps (clipTree sampleClips).step free freshStart c ∧
      (∀ t ∈ c.pool, t.finished = true) ∧
      ∃ f ∈ c.shared.sidecars, c.shared.clips.find f.name = none :=
  ⟨exec (clipTree sampleClips).step freshStart (sidecarWritten ++ deleteAll ++ sidecarAttached),
    Steps.exec (by decide), by decide, ⟨"20250101_120000_000", 300⟩,
    by decide, by decide⟩

end Babycat.Recorder
