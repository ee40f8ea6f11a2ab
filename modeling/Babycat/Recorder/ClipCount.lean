/-
  Babycat.Recorder.ClipCount

  The clip counter and the clips it counts (`clip_storage.py`).

  `Stake` keeps of a thread what it still owes the counter, and `CountStep` is
  what a step does to the clip directory, the counter and the stake.  The clips
  of countable size are the counter plus what has been published and not yet
  counted minus what has been unlinked and not yet counted, as long as no step
  of the run goes wrong in one of three ways, which `CountSafe` rules out: a
  decrement at zero, an abandoned publication and a publication under a name
  in use.
-/

import Babycat.Recorder.Clips
import Mathlib.Tactic.Linarith

namespace Babycat.Recorder

open Babycat.Conc

/-! ## The clip directory -/

/-- What a clip of this size adds to the count. -/
def clipWeight (size : ℕ) : ℤ := if size < minClipSize then 0 else 1

/-- A search by name in a list from which a name was taken. -/
theorem find?_filter_key {α : Type} (key : α → String) (l : List α) (name other : String) :
    (l.filter fun f => key f != name).find? (fun f => key f == other) =
      if other = name then none else l.find? fun f => key f == other := by
  rw [List.find?_filter]
  by_cases h : other = name
  · rw [if_pos h]
    subst h
    refine List.find?_eq_none.mpr fun g _ hg => ?_
    simp at hg
  · rw [if_neg h]
    congr 1
    funext g
    by_cases hg : key g = other
    · simp [hg, h]
    · simp [hg]

namespace ClipDir

variable {d : ClipDir} {name : String} {f : ClipFile}

theorem find_unlink (other : String) :
    (d.unlink name).find other = if other = name then none else d.find other :=
  find?_filter_key ClipFile.name d.files name other

theorem find_replace (other : String) :
    (d.replace f).find other = if other = f.name then some f else d.find other := by
  have happ : (d.replace f).find other =
      ((d.unlink f.name).find other).or (if f.name == other then some f else none) := by
    simp only [find, replace, List.find?_append, List.find?_singleton]
  rw [happ, find_unlink]
  by_cases h : other = f.name
  · subst h; simp
  · have hne : ¬ f.name = other := fun he => h he.symm
    simp [h, hne]

theorem find_mem (h : d.find name = some f) : f ∈ d.files ∧ f.name = name :=
  ⟨List.mem_of_find?_eq_some h, by simpa using List.find?_some h⟩

theorem not_mem_of_find (h : d.find name = none) : ∀ g ∈ d.files, g.name ≠ name := by
  intro g hg hname
  have hno := List.find?_eq_none.mp h g hg
  simp [hname] at hno

theorem find_of_mem (h : f ∈ d.files) : d.find f.name = some f := by
  cases hfound : d.find f.name with
  | none => exact absurd rfl (not_mem_of_find hfound f h)
  | some g =>
      obtain ⟨hg, hname⟩ := find_mem hfound
      rw [List.inj_on_of_nodup_map d.unique hg h hname]

theorem unlink_of_find_none (h : d.find name = none) : (d.unlink name).files = d.files := by
  simp only [unlink]
  refine List.filter_eq_self.mpr fun g hg => ?_
  simpa using not_mem_of_find h g hg

/-- A new clip adds its weight. -/
theorem recount_replace (h : d.find f.name = none) :
    ((d.replace f).recount : ℤ) = d.recount + clipWeight f.size := by
  have hfiles : (d.replace f).files = d.files ++ [f] := by
    simp only [replace]
    rw [unlink_of_find_none h]
  simp only [recount, hfiles, List.filter_append, List.length_append, clipWeight]
  by_cases hsize : f.size < minClipSize
  · have hno : ¬ minClipSize ≤ f.size := not_le.mpr hsize
    simp [hsize, hno]
  · have hyes : minClipSize ≤ f.size := not_lt.mp hsize
    simp [hsize, hyes]

/-- Of the files, those of another name and the one of this name make all. -/
theorem filter_name_length (p : ClipFile → Bool) : ∀ (files : List ClipFile),
    (files.map ClipFile.name).Nodup → f ∈ files →
      (files.filter p).length =
        ((files.filter fun g => g.name != f.name).filter p).length + (if p f then 1 else 0) := by
  intro files
  induction files with
  | nil => intro _ hf; cases hf
  | cons g files ih =>
      intro hnodup hf
      rw [List.map_cons, List.nodup_cons] at hnodup
      rcases List.mem_cons.mp hf with rfl | hf
      · -- the file itself: no other file has its name
        have hrest : (f :: files).filter (fun g => g.name != f.name) = files := by
          rw [List.filter_cons_of_neg (by simp)]
          refine List.filter_eq_self.mpr fun g hg => ?_
          have hne : g.name ≠ f.name := fun he => hnodup.1 (he ▸ List.mem_map_of_mem hg)
          simpa using hne
        rw [hrest, List.filter_cons]
        split <;> simp
      · have hne : g.name ≠ f.name := fun he => hnodup.1 (he ▸ List.mem_map_of_mem hf)
        have hrest : (g :: files).filter (fun g => g.name != f.name) =
            g :: files.filter fun g => g.name != f.name :=
          List.filter_cons_of_pos (by simpa using hne)
        have hrec := ih hnodup.2 hf
        rw [hrest, List.filter_cons, List.filter_cons]
        by_cases hp : p g = true
        · rw [if_pos hp, if_pos hp, List.length_cons, List.length_cons]; omega
        · rw [if_neg hp, if_neg hp]; exact hrec

/-- A deleted clip takes its weight. -/
theorem recount_unlink (h : d.find name = some f) :
    ((d.unlink name).recount : ℤ) = d.recount - clipWeight f.size := by
  obtain ⟨hmem, rfl⟩ := find_mem h
  have hlen := filter_name_length (fun g => decide (minClipSize ≤ g.size)) d.files d.unique hmem
  simp only [recount, unlink, clipWeight]
  rw [hlen]
  by_cases hsize : f.size < minClipSize
  · have hno : ¬ minClipSize ≤ f.size := not_le.mpr hsize
    simp [hsize, hno]
  · have hyes : minClipSize ≤ f.size := not_lt.mp hsize
    simp [hsize, hyes]

end ClipDir

/-! ## What a thread owes the counter -/

inductive Stake
  | idle
  | publishing (f : ClipFile)
  | published (name : String) (size : ℕ)
  | adding (size : ℕ)
  | building (size : ℕ)
  | unlinking (name : String) (size : ℕ)
  | removing (size : ℕ)
  deriving DecidableEq

/-- What is still to be added to the counter. -/
def Stake.weight : Stake → ℤ
  | .published _ size | .adding size | .building size => clipWeight size
  | .removing size => -clipWeight size
  | .idle | .publishing _ | .unlinking _ _ => 0

/-- The name and the size of the file that the thread is working on. -/
def Stake.held : Stake → Option (String × ℕ)
  | .published name size | .unlinking name size => some (name, size)
  | _ => none

def PrunePc.stake : PrunePc → Stake
  | .unlink _ name size _ => .unlinking name size
  | .count _ _ size _ => .removing size
  | _ => .idle

def CapturePc.stake (name : String) : CapturePc → Stake
  | .prune pc => pc.stake
  | .publish size mtime => .publishing ⟨name, size, mtime⟩
  | .stat written => .published name written
  | .probe size | .writeSidecar size | .replaceSidecar size _ | .count size => .adding size
  | .buildMeta size => .building size
  | .base | .select | .ffmpeg | .encode | .report => .idle

def DeletePc.stake : DeletePc → Stake
  | .unlink name size _ => .unlinking name size
  | .count _ size _ => .removing size
  | _ => .idle

def ClipThread.stake (cfg : ClipConfig) : ClipThread → Stake
  | .event e (.capture _ pc) => pc.stake (cfg.clipBase e.eventTime)
  | .event _ _ => .idle
  | .deleteClips _ pc | .deleteAllClips _ pc => pc.stake

/-- A step, as far as the clips and their counter are concerned. -/
inductive CountStep (k : Choice) (d : ClipDir) (n : ℕ) : Stake → ClipDir → ℕ → Stake → Prop
  | quiet (σ : Stake) : CountStep k d n σ d n σ
  /-- ffmpeg is done. -/
  | encoded (f : ClipFile) : CountStep k d n .idle d n (.publishing f)
  /-- The partial output is gone. -/
  | missing (f : ClipFile) : CountStep k d n (.publishing f) d n .idle
  | publish (f : ClipFile) :
      CountStep k d n (.publishing f) (d.replace f) n (.published f.name f.size)
  | measured {name : String} {f : ClipFile} (size : ℕ) (h : d.find name = some f) :
      CountStep k d n (.published name size) d n (.adding f.size)
  /-- The published clip is gone before its size is read. -/
  | vanished {name : String} (size : ℕ) (h : d.find name = none) :
      CountStep k d n (.published name size) d n .idle
  | probed (size : ℕ) : CountStep k d n (.adding size) d n (.building size)
  | built (size : ℕ) : CountStep k d n (.building size) d n (.adding size)
  | raised (size : ℕ) (h : k = .raise) : CountStep k d n (.building size) d n .idle
  | added (size : ℕ) :
      CountStep k d n (.adding size) d (if size < minClipSize then n else n + 1) .idle
  | seen {name : String} {f : ClipFile} (h : d.find name = some f) :
      CountStep k d n .idle d n (.unlinking name f.size)
  | unlinked {name : String} {f : ClipFile} (size : ℕ) (h : d.find name = some f) :
      CountStep k d n (.unlinking name size) (d.unlink name) n (.removing size)
  | missed (name : String) (size : ℕ) : CountStep k d n (.unlinking name size) d n .idle
  | removed (size : ℕ) :
      CountStep k d n (.removing size) d (if size < minClipSize then n else n - 1) .idle

/-! ## The threads' steps -/

section Refines

variable {cfg : ClipConfig} {s s' : Store} {k : Choice}

def PruneOutcome.stake : PruneOutcome → Stake
  | .running pc => pc.stake
  | .returned _ | .raised => .idle

def CaptureOutcome.stake (name : String) : CaptureOutcome → Stake
  | .running pc => pc.stake name
  | .returned _ | .raised => .idle

theorem CountStep.of_eq {d d' : ClipDir} {n n' : ℕ} {σ σ' : Stake} (hd : d' = d) (hn : n' = n)
    (hσ : σ' = σ) : CountStep k d n σ d' n' σ' := by
  rw [hd, hn, hσ]
  exact .quiet σ

theorem countAddedClip_eq (size : ℕ) : (s.countAddedClip size).clips = s.clips ∧
    (s.countAddedClip size).count = if size < minClipSize then s.count else s.count + 1 := by
  simp only [Store.countAddedClip]
  split <;> exact ⟨rfl, rfl⟩

theorem countRemovedClip_eq (size : ℕ) : (s.countRemovedClip size).clips = s.clips ∧
    (s.countRemovedClip size).count = if size < minClipSize then s.count else s.count - 1 := by
  simp only [Store.countRemovedClip]
  split <;> exact ⟨rfl, rfl⟩

theorem countAdded_step (size : ℕ) :
    CountStep k s.clips s.count (.adding size) (s.countAddedClip size).clips
      (s.countAddedClip size).count .idle := by
  rw [(countAddedClip_eq size).1, (countAddedClip_eq size).2]
  exact .added size

theorem countRemoved_step (size : ℕ) :
    CountStep k s.clips s.count (.removing size) (s.countRemovedClip size).clips
      (s.countRemovedClip size).count .idle := by
  rw [(countRemovedClip_eq size).1, (countRemovedClip_eq size).2]
  exact .removed size

@[simp] theorem pruneEnd_stake (p : Pruning) : (pruneEnd cfg p).stake = .idle := by
  simp only [pruneEnd]
  split <;> rfl

@[simp] theorem pruneLoop_stake (p : Pruning) (names : List String) :
    (pruneLoop cfg p names).stake = .idle := by
  cases names with
  | nil => exact pruneEnd_stake p
  | cons name rest => rfl

theorem pruneNext_count {pc : PrunePc} {o : PruneOutcome}
    (h : pruneNext cfg s k pc = some (s', o)) :
    CountStep k s.clips s.count pc.stake s'.clips s'.count o.stake := by
  cases pc with
  | before | list p | after p =>
      cases h
      refine .of_eq rfl rfl ?_
      split <;> first | rfl | exact pruneLoop_stake _ _
  | free before =>
      simp only [pruneNext] at h
      split at h
      · cases h
        refine .of_eq rfl rfl ?_
        split <;> rfl
      · cases h
  | present p name rest | sidecar p name rest =>
      cases h
      refine .of_eq rfl rfl ?_
      simp only [PruneOutcome.stake]
      split <;> rfl
  | stat p name rest =>
      cases h
      cases hf : s.clips.find name with
      | none => exact .quiet .idle
      | some f => exact .seen hf
  | unlink p name size rest =>
      simp only [pruneNext] at h
      split at h
      · rename_i f hf
        cases h
        exact .unlinked size hf
      · cases h; exact .missed name size
  | count p name size rest => cases h; exact countRemoved_step size
  | statSidecar p name rest =>
      cases h
      refine .of_eq rfl rfl ?_
      split <;> rfl
  | unlinkSidecar p name rest =>
      simp only [pruneNext] at h
      split at h <;> (cases h; exact .quiet .idle)
  | refree p rest =>
      simp only [pruneNext] at h
      split at h
      · cases h
        refine .of_eq rfl rfl ?_
        split
        · exact pruneEnd_stake _
        · exact pruneLoop_stake _ _
      · cases h
  | history p removed =>
      simp only [pruneNext] at h
      split at h <;> (cases h; exact .quiet .idle)

theorem captureNext_count {mode : CaptureMode} {name : String} {pc : CapturePc}
    {o : CaptureOutcome} (h : captureNext cfg mode name s k pc = some (s', o)) :
    CountStep k s.clips s.count (pc.stake name) s'.clips s'.count (o.stake name) := by
  cases pc with
  | base =>
      cases h
      refine .of_eq rfl rfl ?_
      split <;> rfl
  | prune pc =>
      obtain ⟨⟨a, o⟩, ha, heq⟩ := Option.map_eq_some_iff.mp h
      cases heq
      have hcount := pruneNext_count ha
      rcases o with pc' | ⟨_ | _⟩ | _
      · exact hcount
      · exact hcount
      · have hidle : ((CaptureOutcome.running
            (if mode = .rollover then .select else .ffmpeg)).stake name) = .idle := by
          simp only [CaptureOutcome.stake]
          split <;> rfl
        rw [hidle]
        exact hcount
      · exact hcount
  | select =>
      cases h
      refine .of_eq rfl rfl ?_
      split <;> rfl
  | ffmpeg => cases h; exact .quiet .idle
  | encode =>
      simp only [captureNext] at h
      split at h
      · cases h; exact .encoded _
      · cases h; exact .quiet .idle
      · cases h; exact .quiet .idle
      · cases h; exact .quiet .idle
      · cases h; exact .quiet .idle
      · cases h
  | publish size mtime =>
      simp only [captureNext] at h
      split at h
      · cases h; exact .publish ⟨name, size, mtime⟩
      · cases h; exact .missing _
  | stat written =>
      cases h
      cases hf : s.clips.find name with
      | none => exact .vanished written hf
      | some f => exact .measured written hf
  | probe size => cases h; exact .probed size
  | buildMeta size =>
      cases h
      by_cases hk : k = .raise
      · rw [if_pos hk]; exact .raised size hk
      · rw [if_neg hk]; exact .built size
  | writeSidecar size =>
      simp only [captureNext] at h
      split at h <;> (cases h; try exact .quiet (.adding size))
  | replaceSidecar size sidecarSize =>
      cases h
      refine .of_eq ?_ ?_ rfl
      · split <;> rfl
      · split <;> rfl
  | count size => cases h; exact countAdded_step size
  | report =>
      cases h
      refine .of_eq rfl rfl ?_
      split <;> rfl

theorem deleteNext_count {pick : List String → Option DeletePc} {deleted deleted' : ℕ}
    {pc pc' : DeletePc}
    (hpick : ∀ rest pc', pick rest = some pc' → pc'.stake = .idle)
    (h : deleteNext s deleted pick pc = some (s', deleted', pc')) :
    CountStep k s.clips s.count pc.stake s'.clips s'.count pc'.stake := by
  cases pc with
  | next rest =>
      obtain ⟨pc', hpc, heq⟩ := Option.map_eq_some_iff.mp h
      cases heq
      exact .of_eq rfl rfl (hpick rest pc' hpc)
  | stat name rest =>
      cases h
      cases hf : s.clips.find name with
      | none => exact .quiet .idle
      | some f => exact .seen hf
  | unlink name size rest =>
      simp only [deleteNext] at h
      split at h
      · rename_i f hf
        cases h
        exact .unlinked size hf
      · cases h; exact .missed name size
  | count name size rest => cases h; exact countRemoved_step size
  | sidecar name rest => cases h; exact .quiet .idle
  | finished => cases h

theorem deletePick_stake (name : String) (rest : List String) :
    (deletePick s name rest).stake = .idle := by
  simp only [deletePick]
  split <;> rfl

theorem next_count {i : ℕ} {t t' : ClipThread} (hn : next cfg i s t k = some (s', t')) :
    CountStep k s.clips s.count (t.stake cfg) s'.clips s'.count (t'.stake cfg) := by
  cases t with
  | event e pc =>
      obtain ⟨⟨a, pc'⟩, ha, heq⟩ := Option.map_eq_some_iff.mp hn
      cases heq
      cases pc with
      | capture mode pc =>
          obtain ⟨⟨b, o⟩, hb, hob⟩ := Option.map_eq_some_iff.mp ha
          cases hob
          have hcount := captureNext_count hb
          rcases o with pc' | ⟨_ | name⟩ | _
          · exact hcount
          · have hidle : (ClipThread.event e (if mode = .rollover then .capture .direct .base
                else .insert none)).stake cfg = .idle := by
              split <;> rfl
            simp only [hidle]
            exact hcount
          · exact hcount
          · exact hcount
      | insert clipName =>
          cases ha
          refine .of_eq ?_ ?_ rfl
          · split <;> rfl
          · split <;> rfl
      | done => cases ha
  | deleteClips n pc =>
      obtain ⟨⟨a, n', pc'⟩, ha, heq⟩ := Option.map_eq_some_iff.mp hn
      cases heq
      refine deleteNext_count (fun rest pc'' hpick => ?_) ha
      cases rest with
      | nil => cases hpick; rfl
      | cons name rest => cases hpick; exact deletePick_stake _ rest
  | deleteAllClips n pc =>
      obtain ⟨⟨a, n', pc'⟩, ha, heq⟩ := Option.map_eq_some_iff.mp hn
      cases heq
      refine deleteNext_count (fun rest pc'' hpick => ?_) ha
      split at hpick
      · cases hpick; exact deletePick_stake _ rest
      · cases hpick; rfl
      · cases hpick

end Refines

/-! ## The balance of one step -/

/-- The step of a thread with this stake neither publishes over a file, nor abandons a published
    clip of countable size, nor decrements at zero. -/
def Stake.safe (k : Choice) (d : ClipDir) (n : ℕ) : Stake → Bool
  | .publishing f => (d.find f.name).isNone
  | .published name size => decide (size < minClipSize) || (d.find name).isSome
  | .building size => decide (size < minClipSize) || k != .raise
  | .removing size => decide (size < minClipSize) || decide (0 < n)
  | .idle | .adding _ | .unlinking _ _ => true

theorem clipWeight_of_lt {size : ℕ} (h : size < minClipSize) : clipWeight size = 0 := if_pos h

/-- What a safe step does to the number of countable clips it does to the counter or still
    owes. -/
theorem CountStep.balance {k : Choice} {d d' : ClipDir} {n n' : ℕ} {σ σ' : Stake}
    (h : CountStep k d n σ d' n' σ') (hsafe : σ.safe k d n = true)
    (hknown : ∀ name size, σ.held = some (name, size) → ∀ f, d.find name = some f →
      f.size = size) :
    (d'.recount : ℤ) - d.recount = (n' : ℤ) - n + (σ'.weight - σ.weight) := by
  cases h with
  | quiet | encoded f | missing f | probed size | built size | missed name size =>
      simp [Stake.weight]
  | publish f =>
      have hnew : d.find f.name = none := by simpa [Stake.safe] using hsafe
      rw [ClipDir.recount_replace hnew]
      simp [Stake.weight]
  | measured size hf =>
      -- the size that is read is the one that was published
      rw [hknown _ size rfl _ hf]
      simp [Stake.weight]
  | vanished size hf =>
      have hsmall : size < minClipSize := by simpa [Stake.safe, hf] using hsafe
      simp [Stake.weight, clipWeight_of_lt hsmall]
  | raised size hk =>
      have hsmall : size < minClipSize := by simpa [Stake.safe, hk] using hsafe
      simp [Stake.weight, clipWeight_of_lt hsmall]
  | added size =>
      simp only [Stake.weight, clipWeight]
      split
      · simp
      · push_cast; ring
  | seen hf => simp [Stake.weight]
  | unlinked size hf =>
      rw [ClipDir.recount_unlink hf, hknown _ size rfl _ hf]
      simp [Stake.weight]
  | removed size =>
      simp only [Stake.weight, clipWeight]
      split
      · simp
      · -- the decrement does not find the counter at zero
        rename_i hbig
        have hpos : 0 < n := by
          simp only [Stake.safe, Bool.or_eq_true, decide_eq_true_eq] at hsafe
          exact hsafe.resolve_left hbig
        have hpred : ((n - 1 : ℕ) : ℤ) = n - 1 := by omega
        rw [hpred]
        ring

/-! ## The runs in which the counter is exact -/

/-- The step is safe, and a publication takes a name that no thread works on. -/
def countSafe (cfg : ClipConfig) (c : Conf Store ClipThread) :
    Event ClipRequest Choice Empty → Bool
  | .sched i k =>
      match c.pool[i]? with
      | some t =>
          (t.stake cfg).safe k c.shared.clips c.shared.count &&
            match t.stake cfg with
            | .publishing f => c.pool.all fun v => (v.stake cfg).held.map Prod.fst != some f.name
            | _ => true
      | none => true
  | _ => true

def CountSafe (cfg : ClipConfig) (c : Conf Store ClipThread)
    (e : Event ClipRequest Choice Empty) : Prop :=
  countSafe cfg c e = true

instance (cfg : ClipConfig) (c : Conf Store ClipThread) (e : Event ClipRequest Choice Empty) :
    Decidable (CountSafe cfg c e) :=
  inferInstanceAs (Decidable (_ = true))

/-- The file that a thread works on has the size that the thread goes by. -/
def SizeKnown (cfg : ClipConfig) (_ : ℕ) (s : Store) (t : ClipThread) : Prop :=
  ∀ name size, (t.stake cfg).held = some (name, size) →
    ∀ f, s.clips.find name = some f → f.size = size

/-- The clips of countable size are the counter and what is owed to it. -/
def CountExact (cfg : ClipConfig) (c : Conf Store ClipThread) : Prop :=
  (c.shared.clips.recount : ℤ) =
    c.shared.count + (c.pool.map fun t => (t.stake cfg).weight).sum

section Run

variable {cfg : ClipConfig} {c : Conf Store ClipThread} {i : ℕ} {k : Choice} {t t' : ClipThread}
variable {s' : Store}

theorem CountSafe.safe (hG : CountSafe cfg c (.sched i k)) (ht : c.pool[i]? = some t) :
    (t.stake cfg).safe k c.shared.clips c.shared.count = true := by
  simp only [CountSafe, countSafe, ht, Bool.and_eq_true] at hG
  exact hG.1

/-- A publication that is safe touches no file that a thread works on. -/
theorem CountSafe.fresh (hG : CountSafe cfg c (.sched i k)) (ht : c.pool[i]? = some t)
    {f : ClipFile} (hf : t.stake cfg = .publishing f) :
    ∀ v ∈ c.pool, ∀ size, (v.stake cfg).held ≠ some (f.name, size) := by
  simp only [CountSafe, countSafe, ht, hf, Bool.and_eq_true] at hG
  intro v hv size hheld
  have hno := List.all_eq_true.mp hG.2 v hv
  simp [hheld] at hno

/-- What a step leaves of a file that a thread works on, whoever moves. -/
theorem CountStep.find {d d' : ClipDir} {n n' : ℕ} {σ σ' : Stake}
    (h : CountStep k d n σ d' n' σ') {name : String} {f : ClipFile}
    (hfresh : ∀ g, σ = .publishing g → g.name ≠ name) (hf : d'.find name = some f) :
    d.find name = some f := by
  cases h with
  | publish g =>
      -- the published name is another one
      rw [ClipDir.find_replace, if_neg (Ne.symm (hfresh g rfl))] at hf
      exact hf
  | unlinked size hg =>
      rw [ClipDir.find_unlink] at hf
      split at hf
      · cases hf
      · exact hf
  | _ => exact hf

/-- What a thread works on after its step it knows the size of. -/
theorem CountStep.known {d d' : ClipDir} {n n' : ℕ} {σ σ' : Stake}
    (h : CountStep k d n σ d' n' σ')
    (hknown : ∀ name size, σ.held = some (name, size) → ∀ f, d.find name = some f →
      f.size = size) :
    ∀ name size, σ'.held = some (name, size) → ∀ f, d'.find name = some f → f.size = size := by
  intro name size hheld f hf
  cases h with
  | quiet => exact hknown name size hheld f hf
  | publish g =>
      cases hheld
      rw [ClipDir.find_replace, if_pos rfl] at hf
      rw [← Option.some.inj hf]
  | seen hg =>
      cases hheld
      rw [hg] at hf
      rw [← Option.some.inj hf]
  | _ => cases hheld

/-- The proof outline of the sizes. -/
theorem sizeKnown_outline (cfg : ClipConfig) :
    OwickiGries (clipTree cfg) (CountSafe cfg) (fun _ => True) (SizeKnown cfg) where
  enter i s r _ name size hheld := by cases r <;> cases hheld
  own c i k t s' t' hc _ ht hn := ⟨trivial, (next_count (i := i) hn).known (hc.2 i t ht)⟩
  others c i k t s' t' j v hc hG ht hn _ hj name size hheld f hf := by
    have hfresh : ∀ g, t.stake cfg = .publishing g → g.name ≠ name := by
      rintro g hg rfl
      exact hG.fresh ht hg v (List.mem_of_getElem? hj) size hheld
    exact hc.2 j v hj name size hheld f ((next_count (i := i) hn).find hfresh hf)
  env c x s' _ _ _ := nomatch x

/-- Every safe step keeps the count exact. -/
theorem countExact_step (cfg : ClipConfig) (c : Conf Store ClipThread)
    (e : Event ClipRequest Choice Empty) (c' : Conf Store ClipThread)
    (hknown : Annotated (fun _ => True) (SizeKnown cfg) c) (h : CountExact cfg c)
    (hG : CountSafe cfg c e) (hs : (clipTree cfg).step c e = some c') : CountExact cfg c' := by
  rcases Prog.step_cases hs with ⟨r, rfl, rfl⟩ | ⟨i, k, t, s, t', rfl, ht, hn, rfl⟩ |
      ⟨x, s, rfl, hx, rfl⟩
  · have hidle : (((clipTree cfg).enter r).stake cfg).weight = 0 := by cases r <;> rfl
    simp only [CountExact, List.map_append, List.sum_append, List.map_cons, List.map_nil,
      List.sum_singleton, hidle, add_zero]
    exact h
  · have hbalance := (next_count (i := i) hn).balance (hG.safe ht) (hknown.2 i t ht)
    have hsum : ((c.pool.set i t').map fun t => (t.stake cfg).weight).sum = _ :=
      sum_map_set (fun t => (t.stake cfg).weight) ht
    have hexact : (c.shared.clips.recount : ℤ) =
      c.shared.count + (c.pool.map fun t => (t.stake cfg).weight).sum := h
    show (s.clips.recount : ℤ) =
      s.count + ((c.pool.set i t').map fun t => (t.stake cfg).weight).sum
    rw [hsum]
    linarith
  · exact nomatch x

/-- The thread has answered. -/
def ClipThread.finished : ClipThread → Bool
  | .event _ pc => pc == .done
  | .deleteClips _ pc | .deleteAllClips _ pc => pc == .finished

theorem stake_of_finished (h : t.finished = true) : t.stake cfg = .idle := by
  cases t with
  | event e pc | deleteClips n pc | deleteAllClips n pc => cases pc <;> first | rfl | cases h

end Run

def sampleClips : ClipConfig where
  clipBase _ := "20250101_120000_000"
  minFreeBytes := 100
  targetFreeBytes := 200

def go (i : ℕ) : Event ClipRequest Choice Empty := .sched i .go

/-- The worker of an event, up to the publication of a clip of 20000 bytes. -/
def published : List (Event ClipRequest Choice Empty) :=
  [.enter (.event ⟨["fire"], 1000⟩), go 0, go 0, .sched 0 (.free 500), go 0, go 0,
    .sched 0 (.encoded (some (20000, 1))), go 0]

/-- The rest of the worker: stat, probe, sidecar, count, report and history. -/
def counted : List (Event ClipRequest Choice Empty) :=
  [go 0, go 0, go 0, .sched 0 (.written 300), go 0, go 0, go 0, go 0]

/-- `DELETE /clips/all` by thread 1. -/
def deleteAll : List (Event ClipRequest Choice Empty) :=
  [.enter .deleteAllClips, .sched 1 (.entry (some "20250101_120000_000")), go 1, go 1, go 1, go 1,
    .sched 1 (.entry none)]

/-- The metadata of the published clip cannot be built. -/
def raised : List (Event ClipRequest Choice Empty) :=
  published ++ [go 0, go 0, .sched 0 .raise, go 0]

abbrev freshStart : Conf Store ClipThread := startUp ⟨[], List.nodup_nil⟩ [] []

/-- The state after a schedule of safe steps. -/
abbrev afterSafe (es : List (Event ClipRequest Choice Empty)) : Conf Store ClipThread :=
  exec (guardedStep (clipTree sampleClips).step (CountSafe sampleClips)) freshStart es

end Babycat.Recorder
