/-
  Babycat.Recorder.Capacity

  Capacity pruning as one call (`clip_storage.py`, FR-033).

  `ensure_clip_capacity` deletes nothing while the free space is at least
  `min_free_bytes`.  Otherwise it takes the clips oldest first, reads the free
  space again after each pair and stops at `max(min_free, target_free)`.  Here
  the call is a function of the store and of the disk; the last section shows
  that a pass of `pruneNext` which no other thread disturbs computes it.

  Nothing here looks into the name of a clip: for a tree that was not written
  by the recorder it is the path under `CLIP_DIR`.
-/

import Babycat.Recorder.ClipPairs

namespace Babycat.Recorder

open Babycat.Conc

/-- `ClipStoragePolicy`, in bytes. -/
structure ClipStoragePolicy where
  minFreeBytes : ℤ
  targetFreeBytes : ℤ
  deriving DecidableEq

structure ClipStorageResult where
  ok : Bool
  reason : String
  freeBytes : ℕ
  deletedFiles : ℕ
  deletedBytes : ℕ
  deriving DecidableEq

/-- Where the loop over the clips stops. -/
def ClipStoragePolicy.stopAt (policy : ClipStoragePolicy) : ℤ :=
  max policy.minFreeBytes policy.targetFreeBytes

namespace Store

/-- The first half of `delete_clip_pair`. -/
def deleteClip (s : Store) (name : String) : Store × ℕ :=
  match s.clips.find name with
  | some f => ((s.unlinkClip name).countRemovedClip f.size, f.size)
  | none => (s, 0)

/-- The second half, for the sidecar. -/
def deleteSidecar (s : Store) (name : String) : Store × ℕ :=
  match s.sidecar name with
  | some sidecar => (s.unlinkSidecar name, sidecar.size)
  | none => (s, 0)

/-- `delete_clip_pair`, with the bytes of the two files. -/
def deleteClipPair (s : Store) (name : String) : Store × ℕ :=
  let clip := s.deleteClip name
  let sidecar := clip.1.deleteSidecar name
  (sidecar.1, clip.2 + sidecar.2)

/-- The store after the deletion of several pairs. -/
def deleteClipPairs (s : Store) (names : List String) : Store :=
  names.foldl (fun s name => (s.deleteClipPair name).1) s

/-- What the sidecar of a clip takes on the disk. -/
def sidecarSize (s : Store) (name : String) : ℕ := ((s.sidecar name).map Sidecar.size).getD 0

/-- The size of a clip with its sidecar. -/
def pairSize (s : Store) (f : ClipFile) : ℕ := f.size + s.sidecarSize f.name

end Store

/-- `shutil.disk_usage(…).free`, after so many deleted pairs. -/
abbrev FreeBytes := ℕ → ℕ

/-- The locals of `ensure_clip_capacity`, and the store they are about. -/
structure CapacityLoop where
  store : Store
  deletedFiles : ℕ
  deletedBytes : ℕ
  currentFree : ℕ

/-- One round of the loop. -/
def CapacityLoop.delete (free : FreeBytes) (l : CapacityLoop) (name : String) : CapacityLoop :=
  let deleted := l.store.deleteClipPair name
  { store := deleted.1
    deletedFiles := l.deletedFiles + 1
    deletedBytes := l.deletedBytes + deleted.2
    currentFree := free (l.deletedFiles + 1) }

/-- The loop of `ensure_clip_capacity`, with its early exit. -/
def CapacityLoop.run (free : FreeBytes) (targetFree : ℤ) (l : CapacityLoop) :
    List String → CapacityLoop
  | [] => l
  | name :: rest =>
      if targetFree ≤ (l.delete free name).currentFree then l.delete free name
      else (l.delete free name).run free targetFree rest

/-- The result that is built from the locals after the loop. -/
def CapacityLoop.result (policy : ClipStoragePolicy) (l : CapacityLoop) : ClipStorageResult :=
  if policy.minFreeBytes ≤ l.currentFree then
    { ok := true
      reason := if l.deletedFiles = 0 then "ok" else "pruned_old_clips"
      freeBytes := l.currentFree
      deletedFiles := l.deletedFiles
      deletedBytes := l.deletedBytes }
  else
    { ok := false
      reason := "low_disk_space"
      freeBytes := l.currentFree
      deletedFiles := l.deletedFiles
      deletedBytes := l.deletedBytes }

def ensureClipCapacity (free : FreeBytes) (policy : ClipStoragePolicy) (s : Store) :
    Store × ClipStorageResult :=
  if policy.minFreeBytes ≤ free 0 then (s, ⟨true, "ok", free 0, 0, 0⟩)
  else
    let l := CapacityLoop.run free policy.stopAt ⟨s, 0, 0, free 0⟩ s.clips.list
    (l.store, l.result policy)

/-! ## One pair -/

theorem ClipDir.unlink_absent {d : ClipDir} {name : String} (h : d.find name = none) :
    d.unlink name = d := by
  have hfiles := ClipDir.unlink_of_find_none h
  rcases d with ⟨files, unique⟩
  simpa [ClipDir.unlink] using hfiles

namespace Store

variable (s : Store)

theorem unlinkSidecar_absent {name : String} (h : s.sidecar name = none) :
    s.sidecars.filter (fun m => m.name != name) = s.sidecars := by
  apply List.filter_eq_self.mpr
  intro m hm
  simpa using List.find?_eq_none.mp h m hm

theorem deleteClip_clips (name : String) : (s.deleteClip name).1.clips = s.clips.unlink name := by
  unfold deleteClip
  cases h : s.clips.find name with
  | none => exact (ClipDir.unlink_absent h).symm
  | some f => exact (countRemovedClip_same f.size).1

theorem deleteClip_sidecars (name : String) : (s.deleteClip name).1.sidecars = s.sidecars := by
  unfold deleteClip
  cases h : s.clips.find name with
  | none => rfl
  | some f => exact (countRemovedClip_same f.size).2

theorem deleteClipPair_clips (name : String) :
    (s.deleteClipPair name).1.clips = s.clips.unlink name := by
  rw [← deleteClip_clips]
  simp only [deleteClipPair, deleteSidecar]
  split <;> rfl

theorem deleteClipPair_sidecars (name : String) :
    (s.deleteClipPair name).1.sidecars = s.sidecars.filter fun m => m.name != name := by
  rw [← deleteClip_sidecars s name]
  simp only [deleteClipPair, deleteSidecar]
  split
  · rfl
  · rename_i h
    exact (unlinkSidecar_absent _ h).symm

/-- What a round adds to `deleted_bytes`. -/
theorem deleteClipPair_bytes {f : ClipFile} (hf : f ∈ s.clips.files) :
    (s.deleteClipPair f.name).2 = s.pairSize f := by
  have hclip : (s.deleteClip f.name).2 = f.size := by
    simp only [deleteClip, ClipDir.find_of_mem hf]
  have hside : (s.deleteClip f.name).1.sidecar f.name = s.sidecar f.name := by
    simp only [sidecar, deleteClip_sidecars]
  simp only [deleteClipPair, pairSize, sidecarSize, hclip, deleteSidecar, hside]
  cases s.sidecar f.name <;> rfl

/-! ## Several pairs -/

@[simp] theorem deleteClipPairs_nil : s.deleteClipPairs [] = s := rfl

@[simp] theorem deleteClipPairs_cons (name : String) (rest : List String) :
    s.deleteClipPairs (name :: rest) = (s.deleteClipPair name).1.deleteClipPairs rest := rfl

theorem mem_deleteClipPairs (names : List String) (f : ClipFile) :
    f ∈ (s.deleteClipPairs names).clips.files ↔ f ∈ s.clips.files ∧ f.name ∉ names := by
  induction names generalizing s with
  | nil => simp
  | cons name rest ih =>
    rw [deleteClipPairs_cons, ih, deleteClipPair_clips]
    simp only [ClipDir.unlink, List.mem_filter, bne_iff_ne, List.mem_cons, not_or, and_assoc]

theorem mem_sidecars_deleteClipPairs (names : List String) (m : Sidecar) :
    m ∈ (s.deleteClipPairs names).sidecars ↔ m ∈ s.sidecars ∧ m.name ∉ names := by
  induction names generalizing s with
  | nil => simp
  | cons name rest ih =>
    rw [deleteClipPairs_cons, ih, deleteClipPair_sidecars]
    simp only [List.mem_filter, bne_iff_ne, List.mem_cons, not_or, and_assoc]

/-- A pair keeps its size when another one is deleted. -/
theorem pairSize_deleteClipPair {f g : ClipFile} (h : g.name ≠ f.name) :
    (s.deleteClipPair f.name).1.pairSize g = s.pairSize g := by
  have hside : (s.deleteClipPair f.name).1.sidecar g.name = (s.unlinkSidecar f.name).sidecar g.name
      := by simp only [sidecar, deleteClipPair_sidecars, unlinkSidecar]
  have hkept : (s.deleteClipPair f.name).1.sidecar g.name = s.sidecar g.name := by
    rw [hside, sidecar_unlinkSidecar, if_neg h]
  simp only [pairSize, sidecarSize, hkept]

end Store

/-! ## The loop -/

namespace CapacityLoop

variable (free : FreeBytes) (targetFree : ℤ)

/-- The locals after a round for each of `names`. -/
def deleteAll (l : CapacityLoop) (names : List String) : CapacityLoop :=
  names.foldl (delete free) l

/-- The loop does a round for each clip up to the first one that reaches the target. -/
theorem run_prefix (names : List String) (l : CapacityLoop) :
    ∃ done rest, names = done ++ rest ∧ l.run free targetFree names = l.deleteAll free done ∧
      (∀ k, 0 < k → k < done.length →
        (l.deleteAll free (done.take k)).currentFree < targetFree) ∧
      (rest ≠ [] → targetFree ≤ (l.deleteAll free done).currentFree) := by
  induction names generalizing l with
  | nil => exact ⟨[], [], rfl, rfl, by simp, by simp⟩
  | cons name names ih =>
    by_cases hreach : targetFree ≤ (l.delete free name).currentFree
    · refine ⟨[name], names, rfl, ?_, ?_, fun _ => hreach⟩
      · rw [run, if_pos hreach]; rfl
      · intro k hpos hlt
        simp only [List.length_singleton] at hlt
        omega
    · obtain ⟨done, rest, hsplit, hrun, hbefore, hafter⟩ := ih (l.delete free name)
      refine ⟨name :: done, rest, by rw [hsplit]; rfl, ?_, ?_, hafter⟩
      · rw [run, if_neg hreach, hrun]; rfl
      · intro k hpos hlt
        obtain ⟨j, rfl⟩ : ∃ j, k = j + 1 := ⟨k - 1, by omega⟩
        rw [List.take_succ_cons]
        cases j with
        | zero => simpa [deleteAll] using hreach
        | succ j => exact hbefore (j + 1) (by omega) (by simpa using hlt)

theorem deleteAll_store (names : List String) (l : CapacityLoop) :
    (l.deleteAll free names).store = l.store.deleteClipPairs names := by
  induction names generalizing l with
  | nil => rfl
  | cons name rest ih => exact ih (l.delete free name)

theorem deleteAll_files (names : List String) (l : CapacityLoop) :
    (l.deleteAll free names).deletedFiles = l.deletedFiles + names.length := by
  induction names generalizing l with
  | nil => rfl
  | cons name rest ih =>
    calc ((l.delete free name).deleteAll free rest).deletedFiles
        = (l.deletedFiles + 1) + rest.length := ih (l.delete free name)
      _ = l.deletedFiles + (name :: rest).length := by rw [List.length_cons]; omega

theorem deleteAll_free (names : List String) (l : CapacityLoop)
    (h : l.currentFree = free l.deletedFiles) :
    (l.deleteAll free names).currentFree = free (l.deletedFiles + names.length) := by
  induction names generalizing l with
  | nil => exact h
  | cons name rest ih =>
    calc ((l.delete free name).deleteAll free rest).currentFree
        = free ((l.deletedFiles + 1) + rest.length) := ih (l.delete free name) rfl
      _ = free (l.deletedFiles + (name :: rest).length) := by
          rw [List.length_cons, Nat.add_assoc, Nat.add_comm 1]

/-- Every clip is deleted once, so its pair counts with the size it had before the loop. -/
theorem deleteAll_bytes (clips : List ClipFile) (l : CapacityLoop)
    (hmem : ∀ f ∈ clips, f ∈ l.store.clips.files) (hnodup : (clips.map ClipFile.name).Nodup) :
    (l.deleteAll free (clips.map ClipFile.name)).deletedBytes =
      l.deletedBytes + (clips.map l.store.pairSize).sum := by
  induction clips generalizing l with
  | nil => rfl
  | cons f clips ih =>
    obtain ⟨hfresh, hrest⟩ := List.nodup_cons.mp hnodup
    have hother : ∀ g ∈ clips, g.name ≠ f.name := by
      intro g hg hname
      exact hfresh (hname ▸ List.mem_map_of_mem hg)
    have hkept : ∀ g ∈ clips, g ∈ (l.delete free f.name).store.clips.files := by
      intro g hg
      have hin : g ∈ l.store.clips.files := hmem g (List.mem_cons_of_mem _ hg)
      have := (l.store.mem_deleteClipPairs [f.name] g).mpr ⟨hin, by simpa using hother g hg⟩
      exact this
    have hsizes : clips.map (l.delete free f.name).store.pairSize =
        clips.map l.store.pairSize := by
      apply List.map_congr_left
      intro g hg
      exact l.store.pairSize_deleteClipPair (hother g hg)
    have hbytes : (l.delete free f.name).deletedBytes = l.deletedBytes + l.store.pairSize f := by
      simp only [delete, l.store.deleteClipPair_bytes (hmem f List.mem_cons_self)]
    have hih := ih (l.delete free f.name) hkept hrest
    rw [hsizes, hbytes] at hih
    rw [List.map_cons, List.map_cons, List.sum_cons, ← Nat.add_assoc, ← hih]
    rfl

end CapacityLoop

theorem CapacityLoop.result_ok (policy : ClipStoragePolicy) (l : CapacityLoop) :
    (l.result policy).ok = true ↔ policy.minFreeBytes ≤ l.currentFree := by
  unfold CapacityLoop.result
  split <;> simp_all

theorem CapacityLoop.result_counts (policy : ClipStoragePolicy) (l : CapacityLoop) :
    (l.result policy).freeBytes = l.currentFree ∧
      (l.result policy).deletedFiles = l.deletedFiles ∧
      (l.result policy).deletedBytes = l.deletedBytes := by
  unfold CapacityLoop.result
  split <;> exact ⟨rfl, rfl, rfl⟩

/-! ## The call -/

/-- The clips as `list_clip_files` sorts them. -/
def ClipDir.oldestFirst (d : ClipDir) : List ClipFile :=
  d.files.insertionSort fun f g => f.mtime ≤ g.mtime

theorem ClipDir.oldestFirst_perm (d : ClipDir) : d.oldestFirst.Perm d.files :=
  List.perm_insertionSort _ _

theorem ClipDir.oldestFirst_sorted (d : ClipDir) :
    d.oldestFirst.Pairwise fun f g => f.mtime ≤ g.mtime := by
  have : Std.Total fun f g : ClipFile => f.mtime ≤ g.mtime :=
    ⟨fun f g => le_total f.mtime g.mtime⟩
  have : IsTrans ClipFile fun f g => f.mtime ≤ g.mtime := ⟨fun _ _ _ => le_trans⟩
  exact List.pairwise_insertionSort _ _

/-- What one call has done to the store `s`, having deleted `oldest` and left `younger`:
    `free k` is the free space after the `k` oldest pairs. -/
structure DeletedPrefix (free : FreeBytes) (policy : ClipStoragePolicy) (s : Store)
    (oldest younger : List ClipFile) (r : Store × ClipStorageResult) : Prop where
  listed : (oldest ++ younger).map ClipFile.name = s.clips.list
  all : (oldest ++ younger).Perm s.clips.files
  byAge : (oldest ++ younger).Pairwise fun f g => f.mtime ≤ g.mtime
  clips : ∀ f, f ∈ r.1.clips.files ↔ f ∈ younger
  sidecars : ∀ m, m ∈ r.1.sidecars ↔ m ∈ s.sidecars ∧ m.name ∉ oldest.map ClipFile.name
  /-- Nothing is deleted while there is room. -/
  enough : policy.minFreeBytes ≤ free 0 → oldest = [] ∧ r.1 = s
  /-- No shorter prefix reaches the target. -/
  minimal : free 0 < policy.minFreeBytes → ∀ k < oldest.length, free k < policy.stopAt
  /-- The prefix reaches the target, or takes all clips. -/
  reached : free 0 < policy.minFreeBytes → policy.stopAt ≤ free oldest.length ∨ younger = []
  ok : r.2.ok = true ↔ policy.minFreeBytes ≤ free oldest.length
  freeBytes : r.2.freeBytes = free oldest.length
  deletedFiles : r.2.deletedFiles = oldest.length
  deletedBytes : r.2.deletedBytes = (oldest.map s.pairSize).sum
  /-- Where a deletion frees at least the size of the pair, the whole pass does. -/
  freed : (∀ k f, oldest[k]? = some f → free k + s.pairSize f ≤ free (k + 1)) →
    free 0 + r.2.deletedBytes ≤ r.2.freeBytes

/-- Each reading of a sequence is larger than the one before by at least a size. -/
theorem sum_le_of_steps (sizes : List ℕ) (free : FreeBytes)
    (h : ∀ k n, sizes[k]? = some n → free k + n ≤ free (k + 1)) :
    free 0 + sizes.sum ≤ free sizes.length := by
  induction sizes generalizing free with
  | nil => simp
  | cons n sizes ih =>
    have hfirst : free 0 + n ≤ free 1 := h 0 n rfl
    have hrest : free 1 + sizes.sum ≤ free (sizes.length + 1) :=
      ih (fun k => free (k + 1)) fun k m hm => h (k + 1) m hm
    rw [List.sum_cons, List.length_cons]
    omega

section Call

variable {free : FreeBytes} {policy : ClipStoragePolicy} {s : Store}

theorem deletedPrefix_of_enough (h : policy.minFreeBytes ≤ free 0) :
    DeletedPrefix free policy s [] s.clips.oldestFirst (s, ⟨true, "ok", free 0, 0, 0⟩) where
  listed := rfl
  all := s.clips.oldestFirst_perm
  byAge := s.clips.oldestFirst_sorted
  clips f := (s.clips.oldestFirst_perm.mem_iff).symm
  sidecars m := by simp
  enough _ := ⟨rfl, rfl⟩
  minimal _ k hk := absurd hk (Nat.not_lt_zero k)
  reached hlt := absurd h (not_le.mpr hlt)
  ok := by simp [h]
  freeBytes := rfl
  deletedFiles := rfl
  deletedBytes := rfl
  freed _ := Nat.le_refl _

/-- The loop when it has deleted all of `names`. -/
abbrev deletedAll (free : FreeBytes) (s : Store) (names : List String) : CapacityLoop :=
  CapacityLoop.deleteAll free ⟨s, 0, 0, free 0⟩ names

theorem deletedAll_free (names : List String) :
    (deletedAll free s names).currentFree = free names.length := by
  have hfree := CapacityLoop.deleteAll_free free names ⟨s, 0, 0, free 0⟩ rfl
  rwa [Nat.zero_add] at hfree

section Prefix

variable {oldest younger : List ClipFile}

theorem nodup_of_perm_clips (hperm : (oldest ++ younger).Perm s.clips.files) :
    ((oldest ++ younger).map ClipFile.name).Nodup :=
  (hperm.map ClipFile.name).nodup_iff.mpr s.clips.unique

theorem deletedAll_bytes (hperm : (oldest ++ younger).Perm s.clips.files) :
    (deletedAll free s (oldest.map ClipFile.name)).deletedBytes =
      (oldest.map s.pairSize).sum := by
  have hmem : ∀ f ∈ oldest, f ∈ s.clips.files := fun f hf =>
    hperm.mem_iff.mp (List.mem_append_left _ hf)
  have hnodup := (nodup_of_perm_clips hperm).sublist ((List.sublist_append_left _ _).map _)
  have hbytes := CapacityLoop.deleteAll_bytes free oldest ⟨s, 0, 0, free 0⟩ hmem hnodup
  simpa using hbytes

/-- The clips that are left are the younger ones. -/
theorem mem_deletedAll (hperm : (oldest ++ younger).Perm s.clips.files) (f : ClipFile) :
    f ∈ (deletedAll free s (oldest.map ClipFile.name)).store.clips.files ↔ f ∈ younger := by
  have hnodup := nodup_of_perm_clips hperm
  rw [List.map_append, List.nodup_append] at hnodup
  rw [CapacityLoop.deleteAll_store, Store.mem_deleteClipPairs, ← hperm.mem_iff, List.mem_append]
  constructor
  · rintro ⟨hold | hyoung, hnot⟩
    · exact absurd (List.mem_map_of_mem hold) hnot
    · exact hyoung
  · intro hyoung
    exact ⟨Or.inr hyoung, fun hold => hnodup.2.2 _ hold _ (List.mem_map_of_mem hyoung) rfl⟩

/-- What the readings of the free space gain, where a deletion frees its pair. -/
theorem freed_of_steps
    (h : ∀ k f, oldest[k]? = some f → free k + s.pairSize f ≤ free (k + 1)) :
    free 0 + (oldest.map s.pairSize).sum ≤ free oldest.length := by
  have hsum := sum_le_of_steps (oldest.map s.pairSize) free (by
    intro k n hn
    rw [List.getElem?_map, Option.map_eq_some_iff] at hn
    obtain ⟨f, hf, rfl⟩ := hn
    exact h k f hf)
  rwa [List.length_map] at hsum

end Prefix

/-- The loop has started, and has come to the end of `oldest`. -/
theorem deletedPrefix_of_loop {oldest younger : List ClipFile}
    (hfull : ¬ policy.minFreeBytes ≤ free 0)
    (hclips : s.clips.oldestFirst = oldest ++ younger)
    (hbefore : ∀ k, 0 < k → k < (oldest.map ClipFile.name).length →
      (deletedAll free s ((oldest.map ClipFile.name).take k)).currentFree < policy.stopAt)
    (hafter : younger ≠ [] → policy.stopAt ≤
      (deletedAll free s (oldest.map ClipFile.name)).currentFree) :
    DeletedPrefix free policy s oldest younger
      ((deletedAll free s (oldest.map ClipFile.name)).store,
        (deletedAll free s (oldest.map ClipFile.name)).result policy) := by
  have hperm : (oldest ++ younger).Perm s.clips.files := hclips ▸ s.clips.oldestFirst_perm
  have hfinal : (deletedAll free s (oldest.map ClipFile.name)).currentFree =
      free oldest.length := by rw [deletedAll_free, List.length_map]
  have hfiles : (deletedAll free s (oldest.map ClipFile.name)).deletedFiles = oldest.length := by
    have := CapacityLoop.deleteAll_files free (oldest.map ClipFile.name) ⟨s, 0, 0, free 0⟩
    simpa using this
  have hbytes := @deletedAll_bytes free s oldest younger hperm
  obtain ⟨hrfree, hrfiles, hrbytes⟩ := CapacityLoop.result_counts policy
    (deletedAll free s (oldest.map ClipFile.name))
  refine
    { listed := ?listed
      all := hperm
      byAge := hclips ▸ s.clips.oldestFirst_sorted
      clips := mem_deletedAll hperm
      sidecars := fun m => by
        rw [CapacityLoop.deleteAll_store, Store.mem_sidecars_deleteClipPairs]
      enough := fun h => absurd h hfull
      minimal := ?minimal
      reached := ?reached
      ok := by rw [CapacityLoop.result_ok, hfinal]
      freeBytes := by rw [hrfree, hfinal]
      deletedFiles := by rw [hrfiles, hfiles]
      deletedBytes := by rw [hrbytes, hbytes]
      freed := ?freed }
  case listed =>
    rw [← hclips]
    rfl
  case minimal =>
    intro hlow k hk
    rcases Nat.eq_zero_or_pos k with rfl | hpos
    · exact lt_of_lt_of_le hlow (le_max_left _ _)
    · have hlen : ((oldest.map ClipFile.name).take k).length = k := by
        rw [List.length_take, List.length_map]
        omega
      have := hbefore k hpos (by rwa [List.length_map])
      rwa [deletedAll_free, hlen] at this
  case reached =>
    intro _
    by_cases hyoung : younger = []
    · exact Or.inr hyoung
    · exact Or.inl (hfinal ▸ hafter hyoung)
  case freed =>
    intro hgain
    rw [hrbytes, hbytes, hrfree, hfinal]
    exact freed_of_steps hgain

/-- The pass deletes the shortest prefix of the clips by age that reaches the target, or all. -/
theorem ensureClipCapacity_prefix (free : FreeBytes) (policy : ClipStoragePolicy) (s : Store) :
    ∃ oldest younger,
      DeletedPrefix free policy s oldest younger (ensureClipCapacity free policy s) := by
  by_cases henough : policy.minFreeBytes ≤ free 0
  · refine ⟨[], s.clips.oldestFirst, ?_⟩
    simp only [ensureClipCapacity, if_pos henough]
    exact deletedPrefix_of_enough henough
  · obtain ⟨done, rest, hsplit, hrun, hbefore, hafter⟩ := CapacityLoop.run_prefix free
      policy.stopAt s.clips.list ⟨s, 0, 0, free 0⟩
    obtain ⟨oldest, younger, hclips, rfl, rfl⟩ := List.map_eq_append_iff.mp hsplit
    refine ⟨oldest, younger, ?_⟩
    simp only [ensureClipCapacity, if_neg henough, hrun]
    exact deletedPrefix_of_loop henough hclips hbefore
      (fun h => hafter fun hnil => h (List.map_eq_nil_iff.mp hnil))

end Call

/-! ## The pass among the threads -/

/-- The policy of a deployment. -/
def ClipConfig.policy (cfg : ClipConfig) : ClipStoragePolicy where
  minFreeBytes := cfg.minFreeBytes
  targetFreeBytes := cfg.targetFreeBytes

/-- A pass on its own. -/
def passStep (cfg : ClipConfig) (a : Store × PruneOutcome) (k : Choice) :
    Option (Store × PruneOutcome) :=
  match a.2 with
  | .running pc => pruneNext cfg a.1 k pc
  | .returned _ | .raised => none

/-- Nothing raises, and the disk answers `free`. -/
def Quiet (free : FreeBytes) (a : Store × PruneOutcome) (k : Choice) : Prop :=
  match a.2 with
  | .running (.free _) => k = .free (free 0)
  | .running (.refree p _) => k = .free (free p.deletedFiles)
  | _ => k = .go

section Pass

variable {cfg : ClipConfig} {free : FreeBytes} {s s' : Store}

theorem passStep_cons {pc : PrunePc} {k : Choice} {out : PruneOutcome} {b : Store × PruneOutcome}
    (h : pruneNext cfg s k pc = some (s', out)) (hk : Quiet free (s, .running pc) k)
    (hrest : Steps (passStep cfg) (Quiet free) (s', out) b) :
    Steps (passStep cfg) (Quiet free) (s, .running pc) b :=
  (Steps.single hk h).trans hrest

/-- The steps on the `.mp4` do what `deleteClip` does. -/
theorem pass_clip (p : Pruning) (name : String) (rest : List String) :
    Steps (passStep cfg) (Quiet free) (s, .running (.present p name rest))
      ((s.deleteClip name).1, .running (.sidecar
        { p with deletedBytes := p.deletedBytes + (s.deleteClip name).2 } name rest)) := by
  cases h : s.clips.find name with
  | none =>
    have hdel : s.deleteClip name = (s, 0) := by simp only [Store.deleteClip, h]
    have hpresent : pruneNext cfg s .go (.present p name rest) =
        some (s, .running (.sidecar p name rest)) := by simp [pruneNext, h]
    rw [hdel]
    exact passStep_cons hpresent rfl .refl
  | some f =>
    have hdel : s.deleteClip name = ((s.unlinkClip name).countRemovedClip f.size, f.size) := by
      simp only [Store.deleteClip, h]
    have hpresent : pruneNext cfg s .go (.present p name rest) =
        some (s, .running (.stat p name rest)) := by simp [pruneNext, h]
    have hstat : pruneNext cfg s .go (.stat p name rest) = some (s, .running
        (.unlink { p with deletedBytes := p.deletedBytes + f.size } name f.size rest)) := by
      simp [pruneNext, h]
    have hunlink (p : Pruning) : pruneNext cfg s .go (.unlink p name f.size rest) =
        some (s.unlinkClip name, .running (.count p name f.size rest)) := by simp [pruneNext, h]
    rw [hdel]
    apply passStep_cons hpresent rfl
    apply passStep_cons hstat rfl
    apply passStep_cons (hunlink _) rfl
    exact passStep_cons rfl rfl .refl

/-- The steps on the sidecar do what `deleteSidecar` does. -/
theorem pass_sidecar (p : Pruning) (name : String) (rest : List String) :
    Steps (passStep cfg) (Quiet free) (s, .running (.sidecar p name rest))
      ((s.deleteSidecar name).1, .running (.refree
        { p with
          deletedFiles := p.deletedFiles + 1
          deletedBytes := p.deletedBytes + (s.deleteSidecar name).2 } rest)) := by
  cases h : s.sidecar name with
  | none =>
    have hdel : s.deleteSidecar name = (s, 0) := by simp only [Store.deleteSidecar, h]
    have hlook : pruneNext cfg s .go (.sidecar p name rest) = some (s, .running
        (.refree { p with deletedFiles := p.deletedFiles + 1 } rest)) := by simp [pruneNext, h]
    rw [hdel]
    exact passStep_cons hlook rfl .refl
  | some m =>
    have hdel : s.deleteSidecar name = (s.unlinkSidecar name, m.size) := by
      simp only [Store.deleteSidecar, h]
    have hlook : pruneNext cfg s .go (.sidecar p name rest) =
        some (s, .running (.statSidecar p name rest)) := by simp [pruneNext, h]
    have hstat : pruneNext cfg s .go (.statSidecar p name rest) = some (s, .running
        (.unlinkSidecar { p with deletedBytes := p.deletedBytes + m.size } name rest)) := by
      simp [pruneNext, h]
    have hunlink (p : Pruning) : pruneNext cfg s .go (.unlinkSidecar p name rest) =
        some (s.unlinkSidecar name, .running
          (.refree { p with deletedFiles := p.deletedFiles + 1 } rest)) := by simp [pruneNext, h]
    rw [hdel]
    apply passStep_cons hlook rfl
    apply passStep_cons hstat rfl
    exact passStep_cons (hunlink _) rfl .refl

/-- The locals of the pass that agree with those of the loop. -/
def CapacityLoop.pruning (before : List String) (l : CapacityLoop) : Pruning where
  before := before
  deletedFiles := l.deletedFiles
  deletedBytes := l.deletedBytes
  currentFree := l.currentFree

theorem pass_round (before : List String) (l : CapacityLoop) (name : String)
    (rest : List String) :
    Steps (passStep cfg) (Quiet free)
      (l.store, .running (.present (l.pruning before) name rest))
      ((l.delete free name).store, .running (.refree
        { (l.delete free name).pruning before with currentFree := l.currentFree } rest)) := by
  have hclip := @pass_clip cfg free l.store (l.pruning before) name rest
  have hside := @pass_sidecar cfg free (l.store.deleteClip name).1
    { l.pruning before with
      deletedBytes := l.deletedBytes + (l.store.deleteClip name).2 } name rest
  have hall := hclip.trans hside
  simpa only [CapacityLoop.delete, CapacityLoop.pruning, Store.deleteClipPair,
    Nat.add_assoc] using hall

theorem refree_stop {bytes : ℕ} (p : Pruning) (rest : List String)
    (h : max cfg.minFreeBytes cfg.targetFreeBytes ≤ bytes) :
    pruneNext cfg s (.free bytes) (.refree p rest) =
      some (s, pruneEnd cfg { p with currentFree := bytes }) := by
  simp only [pruneNext, if_pos h]

theorem refree_more {bytes : ℕ} (p : Pruning) (rest : List String)
    (h : ¬ max cfg.minFreeBytes cfg.targetFreeBytes ≤ bytes) :
    pruneNext cfg s (.free bytes) (.refree p rest) =
      some (s, pruneLoop cfg { p with currentFree := bytes } rest) := by
  simp only [pruneNext, if_neg h]

/-- The rounds of the pass are those of the loop, with the same exit. -/
theorem pass_loop (before names : List String) (l : CapacityLoop) :
    Steps (passStep cfg) (Quiet free) (l.store, pruneLoop cfg (l.pruning before) names)
      ((l.run free cfg.policy.stopAt names).store,
        pruneEnd cfg ((l.run free cfg.policy.stopAt names).pruning before)) := by
  induction names generalizing l with
  | nil => exact .refl
  | cons name rest ih =>
    have hstop : cfg.policy.stopAt ≤ (l.delete free name).currentFree ↔
        max cfg.minFreeBytes cfg.targetFreeBytes ≤ free (l.deletedFiles + 1) := by
      simp [ClipStoragePolicy.stopAt, ClipConfig.policy, CapacityLoop.delete]
    refine (pass_round before l name rest).trans ?_
    by_cases hreach : cfg.policy.stopAt ≤ (l.delete free name).currentFree
    · rw [CapacityLoop.run, if_pos hreach]
      exact passStep_cons (refree_stop _ rest (hstop.mp hreach)) rfl .refl
    · rw [CapacityLoop.run, if_neg hreach]
      exact passStep_cons (refree_more _ rest (mt hstop.mpr hreach)) rfl
        (ih (l.delete free name))

end Pass

/-- What `_prune_with_history` goes on with after `ensure_clip_capacity`. -/
def ClipStorageResult.outcome (before : List String) (r : ClipStorageResult) : PruneOutcome :=
  if r.deletedFiles = 0 then .returned r.ok
  else .running (.after ⟨before, r.deletedFiles, r.deletedBytes, r.freeBytes⟩)

theorem pruneEnd_outcome (cfg : ClipConfig) (before : List String) (l : CapacityLoop) :
    pruneEnd cfg (l.pruning before) = (l.result cfg.policy).outcome before := by
  have hmin : cfg.policy.minFreeBytes ≤ l.currentFree ↔ cfg.minFreeBytes ≤ l.currentFree := by
    simp [ClipConfig.policy]
  by_cases hroom : cfg.policy.minFreeBytes ≤ l.currentFree
  · simp [pruneEnd, ClipStorageResult.outcome, CapacityLoop.result, CapacityLoop.pruning, hroom,
      hmin.mp hroom]
  · simp [pruneEnd, ClipStorageResult.outcome, CapacityLoop.result, CapacityLoop.pruning, hroom,
      mt hmin.mpr hroom]

/-- A pass that no other thread disturbs computes `ensure_clip_capacity`. -/
theorem pruneNext_alone (cfg : ClipConfig) (free : FreeBytes) (s : Store) (before : List String) :
    Steps (passStep cfg) (Quiet free) (s, .running (.free before))
      ((ensureClipCapacity free cfg.policy s).1,
        (ensureClipCapacity free cfg.policy s).2.outcome before) := by
  have hmin : cfg.policy.minFreeBytes ≤ free 0 ↔ cfg.minFreeBytes ≤ free 0 := by
    simp [ClipConfig.policy]
  by_cases henough : cfg.policy.minFreeBytes ≤ free 0
  · have hfree : pruneNext cfg s (.free (free 0)) (.free before) = some (s, .returned true) := by
      simp only [pruneNext, if_pos (hmin.mp henough)]
    rw [ensureClipCapacity, if_pos henough]
    exact passStep_cons hfree rfl .refl
  · have hfree : pruneNext cfg s (.free (free 0)) (.free before) =
        some (s, .running (.list ⟨before, 0, 0, free 0⟩)) := by
      simp only [pruneNext, if_neg (mt hmin.mpr henough)]
    have hloop := @pass_loop cfg free before s.clips.list ⟨s, 0, 0, free 0⟩
    rw [ensureClipCapacity, if_neg henough]
    simp only [← pruneEnd_outcome]
    exact passStep_cons hfree rfl (passStep_cons rfl rfl hloop)

end Babycat.Recorder
