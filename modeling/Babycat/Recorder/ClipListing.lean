/-
  Babycat.Recorder.ClipListing

  The clip list (`_list_clips`) and a client that keeps a copy of it
  (`useClips.js`).

  The list shows the published clips of playable size, newest first, with what
  their sidecars say.  The client refetches it when the count of `/status` is
  not the one it saw last.  Its request runs beside the recorder: the files are
  measured one by one and the sidecars are read one by one, so it may return
  clips of different moments; `ahead` is what it would return if nothing
  changed any more.
-/

import Babycat.Recorder.ClipPairs
import Babycat.Recorder.ClipNames

namespace Babycat.Recorder

open Babycat.Conc

/-! ## The list -/

/-- What a sidecar says of the fields that the list shows; one that is missing or cannot be read
    says nothing. -/
structure ClipMeta where
  timestamp : Option ℤ
  keywords : Option (List String)
  vlmText : Option String
  deriving DecidableEq

def ClipMeta.empty : ClipMeta := ⟨none, none, none⟩

/-- `build_trigger_clip_meta`, as far as the list shows it. -/
def buildTriggerClipMeta (e : EventIn) (vlmText : String) : ClipMeta :=
  ⟨some (truncate e.eventTime), some e.keywords, some vlmText⟩

/-- `createdAt` is the `st_mtime` that `created_at` writes out. -/
structure ClipOut where
  name : String
  size : ℕ
  createdAt : ℚ
  timestamp : ℤ
  keywords : List String
  vlmText : Option String
  deriving DecidableEq

/-- What the listing reads: the clips, and what `_read_clip_meta` returns for a name. -/
@[ext]
structure ClipView where
  clips : ClipDir
  readClipMeta : String → ClipMeta

/-- Damaged files are not listed. -/
def ClipFile.listed (f : ClipFile) : Bool := decide (minClipSize ≤ f.size)

def newestFirst (entries : List ClipFile) : List ClipFile :=
  entries.insertionSort fun f g => g.mtime ≤ f.mtime

namespace ClipView

variable (v : ClipView)

def clipOut (f : ClipFile) : ClipOut where
  name := f.name
  size := f.size
  createdAt := f.mtime
  timestamp := (v.readClipMeta f.name).timestamp.getD (truncate f.mtime)
  keywords := (v.readClipMeta f.name).keywords.getD []
  vlmText := (v.readClipMeta f.name).vlmText

/-- `_list_clips` without a filter. -/
def listClips : List ClipOut := (newestFirst (v.clips.files.filter ClipFile.listed)).map v.clipOut

/-- The sidecar of `name` is gone. -/
def without (name : String) : ClipView where
  clips := v.clips
  readClipMeta other := if other = name then .empty else v.readClipMeta other

end ClipView

/-! ## The client -/

/-- A request for the list. -/
inductive Fetch
  | idle
  | due
  /-- The files still to be measured and the entries so far. -/
  | stat (names : List String) (entries : List ClipFile)
  /-- The entries whose sidecars are still to be read. -/
  | read (entries : List ClipFile) (clips : List ClipOut)
  deriving DecidableEq

/-- The files that the request is still to measure. -/
def Fetch.names : Fetch → List String
  | .stat names _ => names
  | _ => []

/-- `knownCount` is `none` for the initial `-1`. -/
structure ClipsClient where
  knownCount : Option ℕ
  clips : List ClipOut
  fetch : Fetch
  deriving DecidableEq

def ClipsClient.fresh : ClipsClient := ⟨none, [], .idle⟩

namespace ClipsClient

/-- The watcher of `clip_count`: another count than the known one asks for the list anew. -/
def poll (count : ℕ) (c : ClipsClient) : ClipsClient :=
  if c.knownCount = some count then c
  else { c with knownCount := some count, fetch := .due }

/-- The next step of the request. -/
def fetchNext (v : ClipView) (c : ClipsClient) : Option ClipsClient :=
  match c.fetch with
  | .idle => none
  | .due => some { c with fetch := .stat (v.clips.files.map ClipFile.name) [] }
  | .stat [] entries => some { c with fetch := .read (newestFirst entries) [] }
  | .stat (name :: rest) entries =>
      match v.clips.find name with
      | some f => some { c with fetch := .stat rest (entries ++ [f].filter ClipFile.listed) }
      -- `stat` raises on a file that has vanished, and the client keeps its list
      | none => some { c with fetch := .idle }
  | .read [] clips => some { c with clips := clips, fetch := .idle }
  | .read (f :: rest) clips => some { c with fetch := .read rest (clips ++ [v.clipOut f]) }

/-- The list that the client ends up with when nothing changes any more; `none` when its request
    is going to fail. -/
def ahead (v : ClipView) (c : ClipsClient) : Option (List ClipOut) :=
  match c.fetch with
  | .idle => some c.clips
  | .due => some v.listClips
  | .stat names entries => (names.mapM v.clips.find).map fun found =>
      (newestFirst (entries ++ found.filter ClipFile.listed)).map v.clipOut
  | .read entries clips => some (clips ++ entries.map v.clipOut)

end ClipsClient

-- ============================================================================
-- What a request returns
-- ============================================================================

section Ahead

variable {v : ClipView} {c c' : ClipsClient} {name : String}

/-- Measuring all files finds them all. -/
theorem ClipDir.mapM_find (d : ClipDir) : ∀ files ⊆ d.files,
    (files.map ClipFile.name).mapM d.find = some files := by
  intro files
  induction files with
  | nil => intro _; rfl
  | cons f files ih =>
      intro hsub
      obtain ⟨hf, hfiles⟩ := List.cons_subset.mp hsub
      rw [List.map_cons, List.mapM_cons, find_of_mem hf, ih hfiles]
      rfl

/-- A request that is going to return the list of now does so after its next step. -/
theorem ahead_fetchNext (h : c.fetchNext v = some c') {clips : List ClipOut}
    (hahead : c.ahead v = some clips) : c'.ahead v = some clips := by
  unfold ClipsClient.fetchNext at h
  split at h
  · cases h
  · rename_i hfetch
    cases h
    simp only [ClipsClient.ahead, hfetch] at hahead
    simp only [ClipsClient.ahead, v.clips.mapM_find _ (List.Subset.refl _), Option.map_some,
      List.nil_append]
    exact hahead
  · rename_i entries hfetch
    cases h
    simpa [ClipsClient.ahead, hfetch] using hahead
  · rename_i name rest entries hfetch
    simp only [ClipsClient.ahead, hfetch, List.mapM_cons] at hahead
    split at h
    · rename_i f hf
      cases h
      rw [hf] at hahead
      cases hrest : rest.mapM v.clips.find with
      | none => simp [hrest] at hahead
      | some found =>
          have hsplit : entries ++ (f :: found).filter ClipFile.listed =
              (entries ++ [f].filter ClipFile.listed) ++ found.filter ClipFile.listed := by
            rw [← List.singleton_append, List.filter_append, List.append_assoc]
          simpa [ClipsClient.ahead, hrest, hsplit] using hahead
    · rename_i hf
      rw [hf] at hahead
      cases hahead
  · rename_i clips' hfetch
    cases h
    simpa [ClipsClient.ahead, hfetch] using hahead
  · rename_i f rest clips' hfetch
    cases h
    simpa [ClipsClient.ahead, hfetch] using hahead

theorem mem_newestFirst {entries : List ClipFile} {f : ClipFile} :
    f ∈ newestFirst entries ↔ f ∈ entries := List.mem_insertionSort _

theorem mem_listClips {o : ClipOut} :
    o ∈ v.listClips ↔ ∃ f ∈ v.clips.files, f.listed = true ∧ v.clipOut f = o := by
  simp only [ClipView.listClips, List.mem_map, mem_newestFirst, List.mem_filter, and_assoc]

/-- Without its sidecar no other clip is shown differently. -/
theorem map_clipOut_without {entries : List ClipFile} (h : ∀ f ∈ entries, f.name ≠ name) :
    entries.map (v.without name).clipOut = entries.map v.clipOut := by
  refine List.map_congr_left fun f hf => ?_
  simp only [ClipView.clipOut, ClipView.without, if_neg (h f hf)]

/-- The sidecar of a clip that is not listed is not missed in the list. -/
theorem listClips_without (h : ∀ f ∈ v.clips.files, f.listed = true → f.name ≠ name) :
    (v.without name).listClips = v.listClips := by
  refine map_clipOut_without fun f hf => ?_
  rw [mem_newestFirst, List.mem_filter] at hf
  exact h f hf.1 hf.2

variable {v' : ClipView}

/-- An entry of a list that is the same for both views is the same for both. -/
theorem clipOut_of_listClips {f : ClipFile} (hlist : v'.listClips = v.listClips)
    (h : v.clipOut f ∈ v.listClips) : f ∈ v'.clips.files ∧ v'.clipOut f = v.clipOut f := by
  rw [← hlist] at h
  obtain ⟨g, hg, -, hout⟩ := mem_listClips.mp h
  obtain rfl : g = f := by
    have hname : g.name = f.name := congrArg ClipOut.name hout
    have hsize : g.size = f.size := congrArg ClipOut.size hout
    have hmtime : g.mtime = f.mtime := congrArg ClipOut.createdAt hout
    cases g
    cases f
    simp only [ClipFile.mk.injEq]
    exact ⟨hname, hsize, hmtime⟩
  exact ⟨hg, hout⟩

/-- A file that is measured in both views counts for the list as in the other. -/
theorem listed_of_listClips {f f' : ClipFile} (hlist : v'.listClips = v.listClips)
    (hf : v.clips.find name = some f) (hf' : v'.clips.find name = some f') :
    [f'].filter ClipFile.listed = [f].filter ClipFile.listed := by
  have hsame : ∀ {w w' : ClipView} {g g' : ClipFile}, w'.listClips = w.listClips →
      w.clips.find name = some g → w'.clips.find name = some g' → g.listed = true → g' = g := by
    intro w w' g g' hlist hg hg' hlisted
    have hmem := (ClipDir.find_mem hg).1
    obtain ⟨hmem', -⟩ :=
      clipOut_of_listClips hlist (mem_listClips.mpr ⟨g, hmem, hlisted, rfl⟩)
    have hfound := ClipDir.find_of_mem hmem'
    rw [(ClipDir.find_mem hg).2, hg'] at hfound
    exact Option.some.inj hfound
  cases hlisted : f.listed with
  | true => rw [hsame hlist hf hf' hlisted]
  | false =>
      cases hlisted' : f'.listed with
      | true =>
          rw [hsame hlist.symm hf' hf hlisted', hlisted'] at hlisted
          cases hlisted
      | false =>
          simp only [List.filter_cons, hlisted, hlisted', List.filter_nil, Bool.false_eq_true,
            if_false]

theorem mapM_find_of_listClips (hlist : v'.listClips = v.listClips) {names : List String}
    {found : List ClipFile} (h : names.mapM v.clips.find = some found)
    (hfound : ∀ name ∈ names, (v'.clips.find name).isSome = true) :
    ∃ found', names.mapM v'.clips.find = some found' ∧
      found'.filter ClipFile.listed = found.filter ClipFile.listed := by
  induction names generalizing found with
  | nil =>
      cases h
      exact ⟨[], rfl, rfl⟩
  | cons name names ih =>
      rw [List.mapM_cons] at h
      obtain ⟨f, hf, h⟩ := Option.bind_eq_some_iff.mp h
      obtain ⟨rest, hrest, h⟩ := Option.bind_eq_some_iff.mp h
      cases h
      obtain ⟨f', hf'⟩ := Option.isSome_iff_exists.mp (hfound name List.mem_cons_self)
      obtain ⟨rest', hrest', hsame⟩ := ih hrest fun other ho =>
        hfound other (List.mem_cons_of_mem name ho)
      refine ⟨f' :: rest', by rw [List.mapM_cons, hf', hrest']; rfl, ?_⟩
      rw [← List.singleton_append, ← List.singleton_append (l := rest), List.filter_append,
        List.filter_append, hsame, listed_of_listClips hlist hf hf']

/-- A request that is going to return the list of now does so as long as the list stays, and no
    file vanishes under it. -/
theorem ahead_of_listClips (hlist : v'.listClips = v.listClips)
    (hfound : ∀ name ∈ c.fetch.names, (v'.clips.find name).isSome = true)
    (hahead : c.ahead v = some v.listClips) : c.ahead v' = some v'.listClips := by
  have hshown : ∀ entries : List ClipFile, (∀ f ∈ entries, v.clipOut f ∈ v.listClips) →
      entries.map v'.clipOut = entries.map v.clipOut := fun entries hentries =>
    List.map_congr_left fun f hf => (clipOut_of_listClips hlist (hentries f hf)).2
  rw [hlist]
  cases hfetch : c.fetch with
  | idle => simpa [ClipsClient.ahead, hfetch] using hahead
  | due => simp only [ClipsClient.ahead, hfetch, hlist]
  | stat names entries =>
      simp only [ClipsClient.ahead, hfetch] at hahead ⊢
      obtain ⟨found, hmeasured, hmap⟩ := Option.map_eq_some_iff.mp hahead
      have hnames : ∀ name ∈ names, (v'.clips.find name).isSome = true := by
        rw [hfetch] at hfound
        exact hfound
      obtain ⟨found', hmeasured', hsame⟩ := mapM_find_of_listClips hlist hmeasured hnames
      rw [hmeasured', Option.map_some, hsame, hshown _ fun f hf => ?_, hmap]
      exact hmap ▸ List.mem_map_of_mem hf
  | read entries clips =>
      simp only [ClipsClient.ahead, hfetch, Option.some.injEq] at hahead ⊢
      rw [hshown entries fun f hf => ?_, hahead]
      exact hahead ▸ List.mem_append_right _ (List.mem_map_of_mem hf)

/-- A request that is going to return a list finds the files that it is still to measure. -/
theorem found_of_ahead {clips : List ClipOut} (h : c.ahead v = some clips) :
    ∀ name ∈ c.fetch.names, (v.clips.find name).isSome = true := by
  cases hfetch : c.fetch with
  | stat names entries =>
      simp only [ClipsClient.ahead, hfetch] at h
      obtain ⟨found, hmeasured, -⟩ := Option.map_eq_some_iff.mp h
      clear h hfetch
      show ∀ name ∈ names, _
      induction names generalizing found with
      | nil => intro name hname; cases hname
      | cons first names ih =>
          rw [List.mapM_cons] at hmeasured
          obtain ⟨f, hf, hmeasured⟩ := Option.bind_eq_some_iff.mp hmeasured
          obtain ⟨rest, hrest, -⟩ := Option.bind_eq_some_iff.mp hmeasured
          intro name hname
          rcases List.mem_cons.mp hname with rfl | hname
          · rw [hf]; rfl
          · exact ih rest hrest name hname
  | _ => intro name hname; cases hname

theorem knownCount_poll (count : ℕ) : (c.poll count).knownCount = some count := by
  simp only [ClipsClient.poll]
  split
  · assumption
  · rfl

/-- A poll that finds another count than the known one leads to the list of now. -/
theorem ahead_poll {count : ℕ} (h : c.knownCount ≠ some count ∨ c.ahead v = some v.listClips) :
    (c.poll count).ahead v = some v.listClips := by
  simp only [ClipsClient.poll]
  split
  · rename_i hknown
    exact h.resolve_left fun hne => hne hknown
  · rfl

theorem knownCount_fetchNext (h : c.fetchNext v = some c') : c'.knownCount = c.knownCount := by
  unfold ClipsClient.fetchNext at h
  split at h
  on_goal 4 => split at h
  all_goals first
    | cases h; rfl
    | cases h

/-- How many steps a request has still to take at most. -/
def Fetch.steps (files : ℕ) : Fetch → ℕ
  | .idle => 0
  | .due => 2 * files + 3
  | .stat names entries => 2 * names.length + entries.length + 2
  | .read entries _ => entries.length + 1

theorem steps_fetchNext (h : c.fetchNext v = some c') :
    c'.fetch.steps v.clips.files.length < c.fetch.steps v.clips.files.length := by
  unfold ClipsClient.fetchNext at h
  split at h
  · cases h
  · rename_i hfetch
    cases h
    simp [hfetch, Fetch.steps]
  · rename_i entries hfetch
    cases h
    simp [hfetch, Fetch.steps, newestFirst]
  · rename_i name rest entries hfetch
    split at h
    · rename_i f hf
      cases h
      have hfilter : ([f].filter ClipFile.listed).length ≤ 1 := List.length_filter_le _ _
      simp only [hfetch, Fetch.steps, List.length_append, List.length_cons]
      omega
    · cases h
      simp [hfetch, Fetch.steps]
  · rename_i clips hfetch
    cases h
    simp [hfetch, Fetch.steps]
  · rename_i f rest clips hfetch
    cases h
    simp [hfetch, Fetch.steps]

/-- A request that has an answer still to come takes a step. -/
theorem fetchNext_isSome (h : c.fetch ≠ .idle) : ∃ c', c.fetchNext v = some c' := by
  unfold ClipsClient.fetchNext
  split
  · rename_i hfetch
    exact absurd hfetch h
  on_goal 3 => split
  all_goals exact ⟨_, rfl⟩

end Ahead

end Babycat.Recorder
