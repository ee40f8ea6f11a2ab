/-
  Babycat.Recorder.PruneHistory

  Capacity pruning and the event history (`_prune_with_history`, FR-033).

  A pass takes the oldest clips and then deletes history rows.  It does not
  remember what it took: the rows go by the names that were listed before the
  pass and are not listed after it.  Every clip that another thread takes in
  between counts as its own, every clip that came in between is overlooked,
  and an exception on the way leaves all rows.  `Taken` records what each
  thread's pass has really taken; in the runs in which the listings agree with
  it (`PrunesAlone`), every pass deletes the rows of exactly these clips.
-/

import Babycat.Recorder.ClipCount

namespace Babycat.Recorder

open Babycat.Conc

/-! ## What a pass takes -/

/-- The clips that the last pass of each thread has unlinked. -/
abbrev Taken := ℕ → List String

/-- What a pass has taken after its step at `pc`. -/
def PrunePc.take (s : Store) (taken : List String) : PrunePc → List String
  | .before => []
  | .unlink _ name _ _ => if (s.clips.find name).isSome then name :: taken else taken
  | _ => taken

def recordTaken (i : ℕ) (s : Store) (t : ClipThread) (taken : Taken) : Taken :=
  match t with
  | .event _ (.capture _ (.prune pc)) => Function.update taken i (pc.take s (taken i))
  | _ => taken

/-- The clip tree with the record of what the passes take. -/
def prunedTree (cfg : ClipConfig) : Prog (Store × Taken) ClipThread ClipRequest Choice Empty :=
  (clipTree cfg).observed recordTaken

def prunedStart (clips : ClipDir) (sidecars : List Sidecar) (events : List EventRow) :
    Conf (Store × Taken) ClipThread :=
  ⟨((startUp clips sidecars events).shared, fun _ => []), []⟩

/-- The rows that `s'` has lost are those of the clips `taken`. -/
def RowsOf (taken : List String) (s s' : Store) : Prop :=
  ∀ row ∈ s.events, row ∉ s'.events ↔ ∃ name ∈ taken, row.clipName = some name

instance (taken : List String) (s s' : Store) : Decidable (RowsOf taken s s') :=
  inferInstanceAs (Decidable (∀ row ∈ s.events, _))

/-! ## When a pass knows what it took -/

/-- The first listing of a pass that has not taken its second one. -/
def PrunePc.listed : PrunePc → List String
  | .before | .history _ _ => []
  | .free names => names
  | .list p | .present p _ _ | .stat p _ _ | .unlink p _ _ _ | .count p _ _ _ | .sidecar p _ _
  | .statSidecar p _ _ | .unlinkSidecar p _ _ | .refree p _ | .after p => p.before

def ClipThread.listed : ClipThread → List String
  | .event _ (.capture _ (.prune pc)) => pc.listed
  | _ => []

/-- The step raises: a listing or the database fails, or the file is gone. -/
def PrunePc.raises (s : Store) (k : Choice) : PrunePc → Bool
  | .before | .list _ | .after _ | .history _ _ => k == .raise
  | .stat _ name _ | .unlink _ name _ _ => (s.clips.find name).isNone
  | .statSidecar _ name _ | .unlinkSidecar _ name _ => (s.sidecar name).isNone
  | _ => false

/-- The pass takes no clip that came after its first listing, and does not raise when it has
    taken one. -/
def PrunePc.sure (s : Store) (k : Choice) (taken : List String) (pc : PrunePc) : Bool :=
  (!pc.raises s k || (pc.take s taken).isEmpty) &&
    match pc with
    | .unlink p name _ _ => (s.clips.find name).isNone || p.before.contains name
    | _ => true

/-- While a pass is between its two listings, no other thread takes a clip that it has listed,
    and none is published under a name that it has taken; and its own steps are `sure`. -/
def prunesAlone (cfg : ClipConfig) (c : Conf (Store × Taken) ClipThread) :
    Event ClipRequest Choice Empty → Bool
  | .sched i k =>
      match c.pool[i]? with
      | some t =>
          (match t with
          | .event _ (.capture _ (.prune pc)) => pc.sure c.shared.1 k (c.shared.2 i)
          | _ => true) &&
          (List.range c.pool.length).all fun j =>
            match t.stake cfg, c.pool[j]? with
            | .unlinking name _, some v =>
                j == i || (c.shared.1.clips.find name).isNone || !v.listed.contains name
            | .publishing f, some v =>
                !(v.listed.contains f.name && (c.shared.2 j).contains f.name)
            | _, _ => true
      | none => true
  | _ => true

def PrunesAlone (cfg : ClipConfig) (c : Conf (Store × Taken) ClipThread)
    (e : Event ClipRequest Choice Empty) : Prop :=
  prunesAlone cfg c e = true

instance (cfg : ClipConfig) (c : Conf (Store × Taken) ClipThread)
    (e : Event ClipRequest Choice Empty) : Decidable (PrunesAlone cfg c e) :=
  inferInstanceAs (Decidable (_ = true))

/-- Of the clips listed first, those that are gone are those the pass has taken. -/
structure Listed (d : ClipDir) (listed taken : List String) : Prop where
  own : ∀ name ∈ taken, name ∈ listed
  gone : ∀ name ∈ listed, d.find name = none ↔ name ∈ taken

/-- What holds at each step of a pass. -/
def PassAt (d : ClipDir) (taken : List String) : PrunePc → Prop
  | .before => True
  | .free before => Listed d before taken ∧ taken = []
  | .list p => Listed d p.before taken ∧ taken = []
  | .refree p _ => Listed d p.before taken ∧ p.deletedFiles ≠ 0
  | .after p => Listed d p.before taken
  | .history _ removed => ∀ name, name ∈ removed ↔ name ∈ taken
  | .present p _ _ | .stat p _ _ | .unlink p _ _ _ | .count p _ _ _ | .sidecar p _ _
  | .statSidecar p _ _ | .unlinkSidecar p _ _ => Listed d p.before taken

/-! ## One step of a pass -/

section Pass

variable {cfg : ClipConfig} {s s' : Store} {k : Choice} {taken : List String} {d d' : ClipDir}
variable {listed : List String}

theorem mem_list {name : String} : name ∈ d.list ↔ d.find name ≠ none := by
  have hperm : name ∈ d.list ↔ name ∈ d.files.map ClipFile.name := by
    rw [ClipDir.list, List.mem_map, List.mem_map]
    simp only [List.mem_insertionSort]
  rw [hperm, ne_eq, ClipDir.find, List.find?_eq_none, List.mem_map]
  simp

/-- The pass unlinks a clip that it has listed. -/
theorem Listed.unlink {name : String} (h : Listed d listed taken) (hmem : name ∈ listed) :
    Listed (d.unlink name) listed (name :: taken) where
  own other hother := by
    rcases List.mem_cons.mp hother with rfl | hold
    · exact hmem
    · exact h.own other hold
  gone other hother := by
    rw [ClipDir.find_unlink]
    by_cases hname : other = name
    · simp [hname]
    · rw [if_neg hname, h.gone other hother, List.mem_cons]
      simp [hname]

/-- Another thread unlinks a clip that the pass has not listed. -/
theorem Listed.unlinked {name : String} (h : Listed d listed taken) (hmem : name ∉ listed) :
    Listed (d.unlink name) listed taken where
  own := h.own
  gone other hother := by
    have hname : other ≠ name := fun he => hmem (he ▸ hother)
    rw [ClipDir.find_unlink, if_neg hname]
    exact h.gone other hother

/-- A clip is published under a name that the pass has not taken. -/
theorem Listed.published {f : ClipFile} (h : Listed d listed taken)
    (hf : ¬ (f.name ∈ listed ∧ f.name ∈ taken)) : Listed (d.replace f) listed taken where
  own := h.own
  gone other hother := by
    rw [ClipDir.find_replace]
    by_cases hname : other = f.name
    · subst hname
      simp [hother] at hf
      simp [hf]
    · rw [if_neg hname]
      exact h.gone other hother

/-- Another thread's step on the clips. -/
theorem PassAt.others {pc : PrunePc} (h : PassAt d taken pc)
    (hl : Listed d pc.listed taken → Listed d' pc.listed taken) : PassAt d' taken pc := by
  cases pc with
  | before => trivial
  | free before | list p | refree p rest => exact ⟨hl h.1, h.2⟩
  | history p removed => exact h
  | present | stat | unlink | count | sidecar | statSidecar | unlinkSidecar | after =>
      exact hl h

theorem rowsOf_nil (h : s'.events = s.events) (htaken : taken = []) : RowsOf taken s s' := by
  intro row hrow
  rw [h, htaken]
  simp [hrow]

/-- What the step leads to: the pass goes on, or has deleted the rows of what it took. -/
def PassAfter (s s' : Store) (taken : List String) : PruneOutcome → Prop
  | .running pc => PassAt s'.clips taken pc ∧ s'.events = s.events
  | .returned _ | .raised => RowsOf taken s s'

theorem pruneEnd_pass {p : Pruning} (h : Listed s'.clips p.before taken)
    (htaken : p.deletedFiles = 0 → taken = []) (hevents : s'.events = s.events) :
    PassAfter s s' taken (pruneEnd cfg p) := by
  simp only [pruneEnd]
  split
  · rename_i hzero
    exact rowsOf_nil hevents (htaken hzero)
  · exact ⟨h, hevents⟩

theorem pruneLoop_pass {p : Pruning} (rest : List String) (h : Listed s'.clips p.before taken)
    (htaken : p.deletedFiles = 0 → taken = []) (hevents : s'.events = s.events) :
    PassAfter s s' taken (pruneLoop cfg p rest) := by
  cases rest with
  | nil => exact pruneEnd_pass h htaken hevents
  | cons name rest => exact ⟨h, hevents⟩

/-- The rows of the names that are gone are deleted. -/
theorem rowsOf_history {removed : List String} (h : ∀ name, name ∈ removed ↔ name ∈ taken) :
    RowsOf taken s (s.deleteEventsForClips removed) := by
  intro row hrow
  simp only [Store.deleteEventsForClips, List.mem_filter, hrow, true_and]
  cases hclip : row.clipName with
  | none => simp
  | some name => simp [← h]

theorem countRemovedClip_events (size : ℕ) : (s.countRemovedClip size).events = s.events := by
  simp only [Store.countRemovedClip]
  split <;> rfl

theorem pruneNext_pass {pc : PrunePc} {o : PruneOutcome} (h : PassAt s.clips taken pc)
    (hsure : pc.sure s k taken = true) (hn : pruneNext cfg s k pc = some (s', o)) :
    PassAfter s s' (pc.take s taken) o := by
  simp only [PrunePc.sure, Bool.and_eq_true, Bool.or_eq_true, Bool.not_eq_true',
    List.isEmpty_iff] at hsure
  obtain ⟨hraise, hlisted⟩ := hsure
  cases pc with
  | before =>
      cases hn
      split
      · exact rowsOf_nil rfl rfl
      · refine ⟨⟨⟨fun _ h => (by cases h), fun name hname => ?_⟩, rfl⟩, rfl⟩
        simpa [PrunePc.take] using mem_list.mp hname
  | free before =>
      simp only [pruneNext] at hn
      split at hn <;> cases hn
      split
      · exact rowsOf_nil rfl h.2
      · exact ⟨h, rfl⟩
  | list p =>
      cases hn
      split
      · exact rowsOf_nil rfl h.2
      · exact pruneLoop_pass _ h.1 (fun _ => h.2) rfl
  | present p name rest =>
      cases hn
      refine ⟨?_, rfl⟩
      split <;> exact h
  | stat p name rest =>
      cases hn
      cases hf : s.clips.find name with
      | none =>
          refine rowsOf_nil rfl (hraise.resolve_left ?_)
          simp [PrunePc.raises, hf]
      | some f => exact ⟨h, rfl⟩
  | unlink p name size rest =>
      simp only [pruneNext] at hn
      split at hn
      · rename_i f hf
        cases hn
        have hmem : name ∈ p.before := by simpa [hf] using hlisted
        refine ⟨?_, rfl⟩
        simp only [PrunePc.take, hf, Option.isSome_some, if_true]
        exact Listed.unlink h hmem
      · rename_i hf
        cases hn
        refine rowsOf_nil rfl (hraise.resolve_left ?_)
        simp [PrunePc.raises, hf]
  | count p name size rest =>
      cases hn
      refine ⟨?_, countRemovedClip_events size⟩
      rw [(countRemovedClip_eq size).1]
      exact h
  | sidecar p name rest =>
      cases hn
      refine ⟨?_, rfl⟩
      split
      · exact h
      · exact ⟨h, Nat.succ_ne_zero _⟩
  | statSidecar p name rest =>
      cases hn
      cases hf : s.sidecar name with
      | none =>
          refine rowsOf_nil rfl (hraise.resolve_left ?_)
          simp [PrunePc.raises, hf]
      | some f => exact ⟨h, rfl⟩
  | unlinkSidecar p name rest =>
      simp only [pruneNext] at hn
      split at hn
      · cases hn
        exact ⟨⟨h, Nat.succ_ne_zero _⟩, rfl⟩
      · rename_i hf
        cases hn
        refine rowsOf_nil rfl (hraise.resolve_left ?_)
        simp [PrunePc.raises, hf]
  | refree p rest =>
      simp only [pruneNext] at hn
      split at hn
      · cases hn
        split
        · exact pruneEnd_pass h.1 (fun hzero => absurd hzero h.2) rfl
        · exact pruneLoop_pass rest h.1 (fun hzero => absurd hzero h.2) rfl
      · cases hn
  | after p =>
      cases hn
      split
      · rename_i hk
        refine rowsOf_nil rfl (hraise.resolve_left ?_)
        simp [PrunePc.raises, hk]
      · refine ⟨fun name => ?_, rfl⟩
        have hgone : ∀ name, name ∉ s.clips.list ↔ s.clips.find name = none := fun name => by
          rw [mem_list, not_not]
        simp only [List.mem_filter, Bool.not_eq_true', List.contains_eq_mem, decide_eq_false_iff_not,
          hgone, PrunePc.take]
        constructor
        · rintro ⟨hmem, hnone⟩
          exact (Listed.gone h name hmem).mp hnone
        · intro htaken
          have hmem := Listed.own h name htaken
          exact ⟨hmem, (Listed.gone h name hmem).mpr htaken⟩
  | history p removed =>
      simp only [pruneNext] at hn
      split at hn
      · rename_i hk
        cases hn
        refine rowsOf_nil rfl (hraise.resolve_left ?_)
        simp [PrunePc.raises, hk]
      · cases hn
        exact rowsOf_history h

end Pass

/-! ## The threads -/

def ClipThread.inPass : ClipThread → Bool
  | .event _ (.capture _ (.prune _)) => true
  | _ => false

/-- The assertion of a thread: its pass, if it is in one. -/
def PassHeld (i : ℕ) (s : Store × Taken) (t : ClipThread) : Prop :=
  match t with
  | .event _ (.capture _ (.prune pc)) => PassAt s.1.clips (s.2 i) pc
  | _ => True

section Threads

variable {cfg : ClipConfig} {s s' : Store} {k : Choice} {i : ℕ} {taken : Taken}
variable {t t' : ClipThread}

/-- A thread that was in no pass is at the beginning of one at most. -/
theorem captureNext_enters {mode : CaptureMode} {name : String} {pc : CapturePc}
    {pc' : PrunePc} (hpc : ∀ q, pc ≠ .prune q)
    (h : captureNext cfg mode name s k pc = some (s', .running (.prune pc'))) :
    pc' = .before := by
  cases pc with
  | base =>
      simp only [captureNext] at h
      split at h <;> cases h
      rfl
  | prune q => exact absurd rfl (hpc q)
  | select => cases k <;> cases h
  | stat written =>
      simp only [captureNext] at h
      split at h <;> cases h
  | publish | buildMeta | report =>
      simp only [captureNext] at h
      split at h <;> cases h
  | encode | writeSidecar =>
      simp only [captureNext] at h
      split at h <;> cases h
  | ffmpeg | probe | replaceSidecar | count => cases h

theorem eventNext_enters {e : EventIn} {pc pc' : EventPc} (s₁ : Store × Taken)
    (hpc : ∀ mode q, pc ≠ .capture mode (.prune q)) (h : eventNext cfg e s k pc = some (s', pc')) :
    PassHeld i s₁ (.event e pc') := by
  cases pc with
  | capture mode pc =>
      obtain ⟨⟨b, o⟩, hb, heq⟩ := Option.map_eq_some_iff.mp h
      cases heq
      rcases o with pc' | ⟨_ | name⟩ | _
      · cases pc' with
        | prune q =>
            obtain rfl := captureNext_enters (fun q hq => hpc mode q (by rw [hq])) hb
            trivial
        | _ => trivial
      · cases mode <;> trivial
      · trivial
      · trivial
  | insert clipName =>
      cases h
      trivial
  | done => cases h

/-- A thread's own step keeps its pass, deletes no row within it, and ends it with the rows of
    what it took. -/
theorem next_passHeld (h : PassHeld i (s, taken) t)
    (hsure : ∀ e mode pc, t = .event e (.capture mode (.prune pc)) →
      pc.sure s k (taken i) = true)
    (hn : next cfg i s t k = some (s', t')) :
    PassHeld i (s', recordTaken i s t taken) t' ∧
      (t.inPass = true → if t'.inPass then s'.events = s.events
        else RowsOf (recordTaken i s t taken i) s s') := by
  cases t with
  | event e pc =>
      obtain ⟨⟨a, pc₁⟩, ha, heq⟩ := Option.map_eq_some_iff.mp hn
      cases heq
      by_cases hpass : ∃ mode q, pc = .capture mode (.prune q)
      · obtain ⟨mode, pc, rfl⟩ := hpass
        obtain ⟨⟨b, o⟩, hb, hob⟩ := Option.map_eq_some_iff.mp ha
        cases hob
        obtain ⟨⟨b', o'⟩, hb', hob'⟩ := Option.map_eq_some_iff.mp hb
        cases hob'
        have hown : recordTaken i s (.event e (.capture mode (.prune pc))) taken i =
            pc.take s (taken i) := by simp [recordTaken]
        have hafter := pruneNext_pass h (hsure e mode pc rfl) hb'
        rw [← hown] at hafter
        rcases o' with pc' | ⟨_ | _⟩ | _
        · exact ⟨hafter.1, fun _ => hafter.2⟩
        · cases mode <;> exact ⟨trivial, fun _ => hafter⟩
        · cases mode <;> exact ⟨trivial, fun _ => hafter⟩
        · exact ⟨trivial, fun _ => hafter⟩
      · have hout : ∀ mode q, pc ≠ .capture mode (.prune q) := fun mode q hpc =>
          hpass ⟨mode, q, hpc⟩
        refine ⟨eventNext_enters _ hout ha, fun hin => ?_⟩
        cases pc with
        | capture mode pc =>
            cases pc with
            | prune q => exact absurd rfl (hout mode q)
            | _ => cases hin
        | insert | done => cases hin
  | deleteClips n pc | deleteAllClips n pc =>
      obtain ⟨⟨a, n', pc'⟩, ha, heq⟩ := Option.map_eq_some_iff.mp hn
      cases heq
      exact ⟨trivial, fun h => by cases h⟩

/-- What a step of another thread leaves of the listing of a pass. -/
theorem CountStep.listed {d d' : ClipDir} {n n' : ℕ} {σ σ' : Stake} {listed own : List String}
    (hs : CountStep k d n σ d' n' σ') (h : Listed d listed own)
    (hunlink : ∀ name size, σ = .unlinking name size → d.find name ≠ none → name ∉ listed)
    (hpublish : ∀ f, σ = .publishing f → ¬ (f.name ∈ listed ∧ f.name ∈ own)) :
    Listed d' listed own := by
  cases hs with
  | publish f => exact h.published (hpublish f rfl)
  | @unlinked name f size hf =>
      refine h.unlinked (hunlink name size rfl ?_)
      rw [hf]
      exact Option.some_ne_none f
  | _ => exact h

end Threads

/-! ## Whole runs -/

section Runs

variable {cfg : ClipConfig} {c c' : Conf (Store × Taken) ClipThread} {i j : ℕ} {k : Choice}
variable {t v : ClipThread}

theorem PrunesAlone.sure (hG : PrunesAlone cfg c (.sched i k)) (ht : c.pool[i]? = some t)
    (e : EventIn) (mode : CaptureMode) (pc : PrunePc)
    (hpc : t = .event e (.capture mode (.prune pc))) :
    pc.sure c.shared.1 k (c.shared.2 i) = true := by
  subst hpc
  simp only [PrunesAlone, prunesAlone, ht, Bool.and_eq_true] at hG
  exact hG.1

theorem PrunesAlone.others (hG : PrunesAlone cfg c (.sched i k)) (ht : c.pool[i]? = some t)
    (hv : c.pool[j]? = some v) :
    (∀ name size, t.stake cfg = .unlinking name size → j ≠ i →
      c.shared.1.clips.find name ≠ none → name ∉ v.listed) ∧
    ∀ f, t.stake cfg = .publishing f →
      ¬ (f.name ∈ v.listed ∧ f.name ∈ c.shared.2 j) := by
  simp only [PrunesAlone, prunesAlone, ht, Bool.and_eq_true, List.all_eq_true,
    List.mem_range] at hG
  have hj := hG.2 j (List.getElem?_eq_some_iff.mp hv).1
  refine ⟨fun name size hstake hne hf => ?_, fun f hstake => ?_⟩
  · simp only [hstake, hv, Bool.or_eq_true, beq_iff_eq, Option.isNone_iff_eq_none,
      Bool.not_eq_true', List.contains_eq_mem, decide_eq_false_iff_not] at hj
    exact (hj.resolve_left fun h => h.elim hne hf)
  · rintro ⟨hlisted, htaken⟩
    simp [hstake, hv, hlisted, htaken] at hj

theorem prunedTree_next {s s' : Store × Taken} {t t' : ClipThread}
    (hn : (prunedTree cfg).next i s t k = some (s', t')) :
    next cfg i s.1 t k = some (s'.1, t') ∧ s'.2 = recordTaken i s.1 t s.2 := by
  obtain ⟨⟨a, t₁⟩, ha, heq⟩ := Option.map_eq_some_iff.mp hn
  cases heq
  exact ⟨ha, rfl⟩

/-- A thread's record is its own. -/
theorem recordTaken_other (hne : j ≠ i) (s : Store) (taken : Taken) :
    recordTaken i s t taken j = taken j := by
  simp only [recordTaken]
  split
  · exact Function.update_of_ne hne _ _
  · rfl

theorem PassHeld.others {s s' : Store × Taken} (h : PassHeld j s v)
    (htaken : s'.2 j = s.2 j)
    (hl : Listed s.1.clips v.listed (s.2 j) → Listed s'.1.clips v.listed (s.2 j)) :
    PassHeld j s' v := by
  cases v with
  | event e pc =>
      cases pc with
      | capture mode pc =>
          cases pc with
          | prune pc =>
              show PassAt s'.1.clips (s'.2 j) pc
              rw [htaken]
              exact PassAt.others h hl
          | _ => trivial
      | _ => trivial
  | _ => trivial

/-- The proof outline of the passes. -/
theorem pass_outline (cfg : ClipConfig) :
    OwickiGries (prunedTree cfg) (PrunesAlone cfg) (fun _ => True) PassHeld where
  enter i s r _ := by cases r <;> trivial
  own c i k t s' t' hc hG ht hn := by
    obtain ⟨hnext, htaken⟩ := prunedTree_next hn
    have hheld := (next_passHeld (hc.2 i t ht) (fun e mode pc => hG.sure ht e mode pc) hnext).1
    refine ⟨trivial, ?_⟩
    rw [show s' = (s'.1, s'.2) from rfl, htaken]
    exact hheld
  others c i k t s' t' j v hc hG ht hn hne hj := by
    obtain ⟨hnext, htaken⟩ := prunedTree_next hn
    obtain ⟨hunlink, hpublish⟩ := hG.others ht hj
    refine (hc.2 j v hj).others (by rw [htaken, recordTaken_other hne]) fun hl => ?_
    exact (next_count hnext).listed hl
      (fun name size hstake hf => hunlink name size hstake hne hf) hpublish
  env c x s' _ _ _ := nomatch x

end Runs

/-- In a run in which the listings of every pass agree with what it takes, a pass deletes no row
    before it ends, and then the rows of exactly the clips that it has unlinked. -/
theorem prunes_own_history (cfg : ClipConfig) (clips : ClipDir) (sidecars : List Sidecar)
    (events : List EventRow) (c c' : Conf (Store × Taken) ClipThread) (i : ℕ) (k : Choice)
    (t t' : ClipThread)
    (h : Steps (prunedTree cfg).step (PrunesAlone cfg) (prunedStart clips sidecars events) c)
    (hG : PrunesAlone cfg c (.sched i k)) (hs : (prunedTree cfg).step c (.sched i k) = some c')
    (ht : c.pool[i]? = some t) (ht' : c'.pool[i]? = some t') (hpass : t.inPass = true) :
    if t'.inPass then c'.shared.1.events = c.shared.1.events
    else RowsOf (c'.shared.2 i) c.shared.1 c'.shared.1 := by
  have hheld : Annotated (fun _ => True) PassHeld c :=
    (pass_outline cfg).steps h ⟨trivial, fun i t ht => by cases ht⟩
  rcases Prog.step_cases hs with ⟨r, hr, -⟩ | ⟨j, l, v, s, v', hj, hv, hn, rfl⟩ | ⟨x, s, hx, -⟩
  · cases hr
  · cases hj
    obtain rfl : t = v := Option.some.inj (ht.symm.trans hv)
    obtain rfl : v' = t' := by
      rw [getElem?_set_of_get hv, if_pos rfl] at ht'
      exact Option.some.inj ht'
    obtain ⟨hnext, htaken⟩ := prunedTree_next hn
    have hrows := (next_passHeld (hheld.2 i t hv)
      (fun e mode pc => hG.sure hv e mode pc) hnext).2 hpass
    rw [← htaken] at hrows
    exact hrows
  · cases hx


/-! ## Executions -/

/-- Two clips, the rows of their events, and an event without a clip. -/
abbrev twoClips : Conf (Store × Taken) ClipThread :=
  prunedStart ⟨[⟨"a", 20000, 1⟩, ⟨"b", 20000, 2⟩], by decide⟩ []
    [⟨"fire", some "a", 1⟩, ⟨"fire", some "b", 2⟩, ⟨"smoke", none, 3⟩]

/-- A worker whose pass finds the disk full and comes to the end of the first clip. -/
def firstPruned : List (Event ClipRequest Choice Empty) :=
  [.enter (.event ⟨["fire"], 1000⟩), go 0, go 0, .sched 0 (.free 50), go 0, go 0, go 0, go 0, go 0,
    go 0]

/-- The deletion of the second clip by the user. -/
def secondDeleted : List (Event ClipRequest Choice Empty) :=
  [.enter (.deleteClips ["b"]), go 1, go 1, go 1, go 1, go 1, go 1]

/-- The pass has room after the first clip and comes to the history. -/
def prunedEnough : List (Event ClipRequest Choice Empty) := [.sched 0 (.free 500), go 0]

/-- The pass needs the second clip as well, which is gone when it is measured. -/
def prunedAgain : List (Event ClipRequest Choice Empty) := [.sched 0 (.free 150), go 0]

/-- The worker that has seen that the first clip is gone. -/
def prunedWorker : ClipThread :=
  .event ⟨["fire"], 1000⟩
    (.capture .rollover (.prune (.history ⟨["a", "b"], 1, 20000, 500⟩ ["a"])))

/-- The state after a schedule in which the pass knows what it takes. -/
abbrev afterAlone (es : List (Event ClipRequest Choice Empty)) : Conf (Store × Taken) ClipThread :=
  exec (guardedStep (prunedTree sampleClips).step (PrunesAlone sampleClips)) twoClips es

/-- A pass takes one clip and its row; the other clip and its row stay. -/
theorem prunes_own_history_one :
    ∃ c', (prunedTree sampleClips).step (afterAlone (firstPruned ++ prunedEnough)) (go 0) =
        some c' ∧
      c'.shared.2 0 = ["a"] ∧ RowsOf ["a"] twoClips.shared.1 c'.shared.1 := by
  have hpool : (afterAlone (firstPruned ++ prunedEnough)).pool = [prunedWorker] := by
    decide
  let c' : Conf (Store × Taken) ClipThread :=
    exec (prunedTree sampleClips).step (afterAlone (firstPruned ++ prunedEnough)) [go 0]
  have hstep : (prunedTree sampleClips).step (afterAlone (firstPruned ++ prunedEnough)) (go 0) =
      some c' := step_exec (by decide)
  have htaken : c'.shared.2 0 = ["a"] := by decide
  have hevents : (afterAlone (firstPruned ++ prunedEnough)).shared.1.events =
      twoClips.shared.1.events := by decide
  have hrows := prunes_own_history sampleClips _ _ _ _ c' 0 .go prunedWorker
    (.event ⟨["fire"], 1000⟩ (.capture .rollover .select))
    (Steps.execGuarded (by decide)) (by decide) hstep (by rw [hpool]; rfl)
    (by decide) rfl
  refine ⟨c', hstep, htaken, ?_⟩
  rw [htaken] at hrows
  simp only [RowsOf, hevents] at hrows
  exact hrows

/-- A clip that the user deletes during a pass loses its row, and a pass that raises keeps the
    rows of what it took. -/
theorem prune_takes_others_history :
    (∃ c c' t t', Steps (prunedTree sampleClips).step free twoClips c ∧
      (prunedTree sampleClips).step c (go 0) = some c' ∧ c.pool[0]? = some t ∧
      c'.pool[0]? = some t' ∧ t.inPass = true ∧ t'.inPass = false ∧
      c'.shared.2 0 = ["a"] ∧
      ∃ row ∈ c.shared.1.events, row.clipName = some "b" ∧ row ∉ c'.shared.1.events) ∧
    ∃ c c' t t', Steps (prunedTree sampleClips).step free twoClips c ∧
      (prunedTree sampleClips).step c (go 0) = some c' ∧ c.pool[0]? = some t ∧
      c'.pool[0]? = some t' ∧ t.inPass = true ∧ t'.inPass = false ∧
      c'.shared.2 0 = ["a"] ∧
      ∃ row ∈ c.shared.1.events, row.clipName = some "a" ∧ row ∈ c'.shared.1.events := by
  let after (es : List (Event ClipRequest Choice Empty)) :=
    exec (prunedTree sampleClips).step twoClips es
  let c₁ := after (firstPruned ++ secondDeleted ++ prunedEnough)
  let c₂ := after (firstPruned ++ prunedAgain ++ secondDeleted)
  refine ⟨⟨c₁, exec (prunedTree sampleClips).step c₁ [go 0],
      .event ⟨["fire"], 1000⟩
        (.capture .rollover (.prune (.history ⟨["a", "b"], 1, 20000, 500⟩ ["a", "b"]))),
      .event ⟨["fire"], 1000⟩ (.capture .rollover .select), Steps.exec (by decide),
      step_exec (by decide), by decide, by decide, rfl, rfl,
      by decide, ⟨"fire", some "b", 2⟩, by decide⟩,
    ⟨c₂, exec (prunedTree sampleClips).step c₂ [go 0],
      .event ⟨["fire"], 1000⟩
        (.capture .rollover (.prune (.stat ⟨["a", "b"], 1, 20000, 150⟩ "b" []))),
      .event ⟨["fire"], 1000⟩ (.insert none), Steps.exec (by decide),
      step_exec (by decide), by decide, by decide, rfl, rfl,
      by decide, ⟨"fire", some "a", 1⟩, by decide⟩⟩

end Babycat.Recorder
