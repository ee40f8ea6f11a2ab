/-
  Babycat.Recorder.RefreshSignal

  The clip count as the signal to refetch the clip list (`clip_storage.py`,
  `finalize.py`, `useClips.js`).

  A thread that has changed the clips and not yet counted the change `owes` the
  count.  `Changes` is bookkeeping the code does not have: what has been counted
  in and out since the client polled last, and whether the list has changed
  since it was last told to refetch.  While somebody owes a count the client may
  be behind; `Signals` is the guard of the runs in which the last one to settle
  does not leave the two balanced over a list that has changed.
-/

import Babycat.Conc.Pending
import Babycat.Recorder.ClipListing

namespace Babycat.Recorder

open Babycat.Conc

/-! ## The recorder and a client -/

/-- `metas` are the contents of the sidecars, by name. -/
structure Site where
  store : Store
  metas : String → ClipMeta
  client : ClipsClient

def Site.view (s : Site) : ClipView where
  clips := s.store.clips
  readClipMeta name := if (s.store.sidecar name).isSome then s.metas name else .empty

/-- The sidecar that a capture puts in place says what its notification said. -/
def ClipThread.metasAfter (cfg : ClipConfig) (vlmText : String) (k : Choice)
    (metas : String → ClipMeta) : ClipThread → String → ClipMeta
  | .event e (.capture _ (.replaceSidecar _ _)) =>
      if k = .raise then metas
      else Function.update metas (cfg.clipBase e.eventTime) (buildTriggerClipMeta e vlmText)
  | _ => metas

inductive ClientEvent
  | poll
  | fetch

/-- The clip tree with a client that polls `/status`; `vlmText` are the texts of the
    notifications. -/
def clipSite (cfg : ClipConfig) (vlmText : ℕ → String) :
    Prog Site ClipThread ClipRequest Choice ClientEvent where
  enter := enter
  next i s t k := (next cfg i s.store t k).map fun r =>
    ({ s with store := r.1, metas := t.metasAfter cfg (vlmText i) k s.metas }, r.2)
  env s
    | .poll => some { s with client := s.client.poll s.store.count }
    | .fetch => (s.client.fetchNext s.view).map fun client => { s with client := client }

/-- The recorder after its start-up, and a client that has not polled yet. -/
def openSite (clips : ClipDir) (sidecars : List Sidecar) (metas : String → ClipMeta)
    (events : List EventRow) : Conf Site ClipThread where
  shared :=
    { store := (startUp clips sidecars events).shared
      metas := metas
      client := .fresh }
  pool := []

/-! ## What a thread owes and which steps settle it -/

/-- The thread has changed the clips and has not counted it yet. -/
def Stake.owes : Stake → Bool
  | .published _ _ | .adding _ | .building _ | .removing _ => true
  | .idle | .publishing _ | .unlinking _ _ => false

/-- What a step that settles adds to the count. -/
def Stake.net (n : ℕ) : Stake → ℤ
  | .adding size => clipWeight size
  -- the counter stays at zero
  | .removing size => if n = 0 then 0 else -clipWeight size
  | _ => 0

def ClipThread.owes (cfg : ClipConfig) (t : ClipThread) : Bool := (t.stake cfg).owes

def PrunePc.settles : PrunePc → Bool
  | .count _ _ _ _ => true
  | _ => false

/-- The capture counts its clip, or does not find it, or cannot build its metadata. -/
def CapturePc.settles (k : Choice) (d : ClipDir) (name : String) : CapturePc → Bool
  | .prune pc => pc.settles
  | .stat _ => (d.find name).isNone
  | .buildMeta _ => k == .raise
  | .count _ => true
  | _ => false

def DeletePc.settles : DeletePc → Bool
  | .count _ _ _ => true
  | _ => false

/-- With this step the thread owes no count any more. -/
def ClipThread.settles (cfg : ClipConfig) (k : Choice) (d : ClipDir) : ClipThread → Bool
  | .event e (.capture _ pc) => pc.settles k d (cfg.clipBase e.eventTime)
  | .event _ _ => false
  | .deleteClips _ pc | .deleteAllClips _ pc => pc.settles

def PrunePc.unlinks : PrunePc → Option String
  | .unlinkSidecar _ name _ => some name
  | _ => none

def CapturePc.unlinks (k : Choice) (name : String) : CapturePc → Option String
  | .prune pc => pc.unlinks
  | .encode => if k = .ffmpegFailed ∨ k = .raise then some name else none
  | _ => none

def DeletePc.unlinks : DeletePc → Option String
  | .sidecar name _ => some name
  | _ => none

/-- The name whose sidecar the step removes. -/
def ClipThread.unlinks (cfg : ClipConfig) (k : Choice) : ClipThread → Option String
  | .event e (.capture _ pc) => pc.unlinks k (cfg.clipBase e.eventTime)
  | .event _ _ => none
  | .deleteClips _ pc | .deleteAllClips _ pc => pc.unlinks

def CapturePc.attaches : CapturePc → Bool
  | .replaceSidecar _ _ => true
  | _ => false

def ClipThread.attaches : ClipThread → Bool
  | .event _ (.capture _ pc) => pc.attaches
  | _ => false

/-! ## The threads' steps -/

section Refines

variable {cfg : ClipConfig} {s s' : Store} {k : Choice}

/-- A step as it concerns the sidecars. -/
inductive SidecarStep (s s' : Store) (unlinks : Option String) (attaches : Bool) : Prop
  | kept (h : s'.sidecars = s.sidecars)
  | unlinked (name : String) (hname : unlinks = some name)
      (h : s'.sidecars = (s.unlinkSidecar name).sidecars)
  | attached (h : attaches = true)

theorem pruneNext_sidecars {pc : PrunePc} {o : PruneOutcome} {attaches : Bool}
    (h : pruneNext cfg s k pc = some (s', o)) : SidecarStep s s' pc.unlinks attaches := by
  cases pc with
  | before | list p | after p | present p name rest | stat p name rest | sidecar p name rest
  | statSidecar p name rest => cases h; exact .kept rfl
  | free before | refree p rest =>
      simp only [pruneNext] at h
      split at h <;> cases h
      exact .kept rfl
  | unlink p name size rest =>
      simp only [pruneNext] at h
      split at h <;> (cases h; exact .kept rfl)
  | count p name size rest => cases h; exact .kept (countRemovedClip_same size).2
  | unlinkSidecar p name rest =>
      simp only [pruneNext] at h
      split at h
      · cases h; exact .unlinked name rfl rfl
      · cases h; exact .kept rfl
  | history p removed =>
      simp only [pruneNext] at h
      split at h <;> (cases h; exact .kept rfl)

theorem captureNext_sidecars {mode : CaptureMode} {name : String} {pc : CapturePc}
    {o : CaptureOutcome} (h : captureNext cfg mode name s k pc = some (s', o)) :
    SidecarStep s s' (pc.unlinks k name) pc.attaches := by
  cases pc with
  | base | select | ffmpeg | stat written | probe size | buildMeta size | report =>
      cases h; exact .kept rfl
  | prune pc =>
      obtain ⟨⟨a, o⟩, ha, heq⟩ := Option.map_eq_some_iff.mp h
      cases heq
      exact pruneNext_sidecars ha
  | encode =>
      simp only [captureNext] at h
      split at h
      · cases h; exact .kept rfl
      · cases h; exact .kept rfl
      · cases h; exact .kept rfl
      -- `cleanup_partial_outputs`
      · cases h; exact .unlinked name rfl rfl
      · cases h; exact .unlinked name rfl rfl
      · cases h
  | publish size mtime =>
      simp only [captureNext] at h
      split at h <;> (cases h; exact .kept rfl)
  | writeSidecar size =>
      simp only [captureNext] at h
      split at h <;> cases h <;> exact .kept rfl
  | replaceSidecar size sidecarSize => exact .attached rfl
  | count size => cases h; exact .kept (countAddedClip_same size).2

theorem deleteNext_sidecars {pick : List String → Option DeletePc} {deleted deleted' : ℕ}
    {pc pc' : DeletePc} (h : deleteNext s deleted pick pc = some (s', deleted', pc')) :
    SidecarStep s s' pc.unlinks false := by
  cases pc with
  | next rest =>
      obtain ⟨pc', -, heq⟩ := Option.map_eq_some_iff.mp h
      cases heq
      exact .kept rfl
  | stat name rest => cases h; exact .kept rfl
  | unlink name size rest =>
      simp only [deleteNext] at h
      split at h <;> (cases h; exact .kept rfl)
  | count name size rest => cases h; exact .kept (countRemovedClip_same size).2
  | sidecar name rest => cases h; exact .unlinked name rfl rfl
  | finished => cases h

theorem next_sidecars {i : ℕ} {t t' : ClipThread} (hn : next cfg i s t k = some (s', t')) :
    SidecarStep s s' (t.unlinks cfg k) t.attaches := by
  cases t with
  | event e pc =>
      obtain ⟨⟨a, pc'⟩, ha, heq⟩ := Option.map_eq_some_iff.mp hn
      cases heq
      cases pc with
      | capture mode pc =>
          obtain ⟨⟨b, o⟩, hb, hob⟩ := Option.map_eq_some_iff.mp ha
          cases hob
          exact captureNext_sidecars hb
      | insert clipName =>
          cases ha
          refine .kept ?_
          split <;> rfl
      | done => cases ha
  | deleteClips n pc | deleteAllClips n pc =>
      obtain ⟨⟨a, n', pc'⟩, ha, heq⟩ := Option.map_eq_some_iff.mp hn
      cases heq
      exact deleteNext_sidecars ha

/-- A capture that puts its sidecar in place has still to count. -/
theorem owes_of_attaches {i : ℕ} {t t' : ClipThread} (hn : next cfg i s t k = some (s', t'))
    (h : t.attaches = true) : t'.owes cfg = true := by
  cases t with
  | event e pc =>
      cases pc with
      | capture mode pc =>
          cases pc with
          | replaceSidecar size sidecarSize => cases hn; rfl
          | _ => cases h
      | insert clipName | done => cases h
  | deleteClips n pc | deleteAllClips n pc => cases h

/-- Who has not changed the clips, or does not owe a count for it after the step, finds them as
    they were. -/
theorem CountStep.clips_of_settled {d d' : ClipDir} {n n' : ℕ} {σ σ' : Stake}
    (h : CountStep k d n σ d' n' σ') (howes : σ'.owes = false) : d' = d := by
  cases h with
  | publish f | unlinked size h => cases howes
  | _ => rfl

theorem CountStep.count_of_settled {d d' : ClipDir} {n n' : ℕ} {σ σ' : Stake}
    (h : CountStep k d n σ d' n' σ') (howes : σ'.owes = false) : (n' : ℤ) = n + σ.net n := by
  cases h with
  | quiet => cases σ <;> first | exact (add_zero _).symm | cases howes
  | probed size | built size => cases howes
  | added size =>
      simp only [Stake.net, clipWeight]
      split <;> simp
  | removed size =>
      simp only [Stake.net, clipWeight]
      split <;> split <;> omega
  | _ => exact (add_zero _).symm

theorem Stake.net_of_not_owes {n : ℕ} {σ : Stake} (h : σ.owes = false) : σ.net n = 0 := by
  cases σ <;> first | rfl | cases h

/-- The counter moves when a count is settled, and not otherwise. -/
theorem CountStep.settled_of_count {d d' : ClipDir} {n n' : ℕ} {σ σ' : Stake}
    (h : CountStep k d n σ d' n' σ') (hcount : n' ≠ n) : σ.owes = true ∧ σ'.owes = false := by
  cases h with
  | added size | removed size => exact ⟨rfl, rfl⟩
  | _ => exact absurd rfl hcount

theorem prunePc_owes {pc : PrunePc} (howes : pc.stake.owes = true) : pc.settles = true := by
  cases pc with
  | count p name size rest => rfl
  | _ => cases howes

theorem deletePc_owes {pc : DeletePc} (howes : pc.stake.owes = true) : pc.settles = true := by
  cases pc with
  | count name size rest => rfl
  | _ => cases howes

theorem captureNext_owes {mode : CaptureMode} {name : String} {pc : CapturePc}
    {o : CaptureOutcome} (h : captureNext cfg mode name s k pc = some (s', o))
    (howes : (pc.stake name).owes = true) :
    pc.settles k s.clips name = true ∨ (o.stake name).owes = true := by
  cases pc with
  | prune pc => exact .inl (prunePc_owes howes)
  | stat written =>
      cases h
      cases hf : s.clips.find name with
      | none => exact .inl (by simp [CapturePc.settles, hf])
      | some f => exact .inr rfl
  | probe size => cases h; exact .inr rfl
  | buildMeta size =>
      cases h
      by_cases hk : k = .raise
      · exact .inl (by simp [CapturePc.settles, hk])
      · rw [if_neg hk]; exact .inr rfl
  | writeSidecar size =>
      simp only [captureNext] at h
      split at h <;> cases h <;> exact .inr rfl
  | replaceSidecar size sidecarSize => cases h; exact .inr rfl
  | count size => exact .inl rfl
  | base | select | ffmpeg | encode | publish size mtime | report => cases howes

/-- Who owes a count settles it with the step or owes it after the step. -/
theorem next_owes {i : ℕ} {t t' : ClipThread} (hn : next cfg i s t k = some (s', t'))
    (howes : t.owes cfg = true) : t.settles cfg k s.clips = true ∨ t'.owes cfg = true := by
  cases t with
  | event e pc =>
      obtain ⟨⟨a, pc'⟩, ha, heq⟩ := Option.map_eq_some_iff.mp hn
      cases heq
      cases pc with
      | capture mode pc =>
          obtain ⟨⟨b, o⟩, hb, hob⟩ := Option.map_eq_some_iff.mp ha
          cases hob
          refine (captureNext_owes hb howes).imp_right fun ho => ?_
          cases o with
          | running pc' => exact ho
          | returned clipName => cases ho
          | raised => cases ho
      | insert clipName | done => cases howes
  | deleteClips n pc | deleteAllClips n pc => exact .inl (deletePc_owes howes)

theorem captureNext_settled {mode : CaptureMode} {name : String} {pc : CapturePc}
    {o : CaptureOutcome} (h : captureNext cfg mode name s k pc = some (s', o))
    (hsettles : pc.settles k s.clips name = true) : (o.stake name).owes = false := by
  cases pc with
  | prune pc =>
      cases pc with
      | count p other size rest =>
          cases h
          rfl
      | _ => cases hsettles
  | stat written =>
      have hnone : s.clips.find name = none := by simpa [CapturePc.settles] using hsettles
      cases h
      rw [hnone]
      rfl
  | buildMeta size =>
      have hk : k = .raise := by simpa [CapturePc.settles] using hsettles
      cases h
      rw [if_pos hk]
      rfl
  | count size =>
      cases h
      rfl
  | _ => cases hsettles

theorem deleteNext_settled {pick : List String → Option DeletePc} {deleted deleted' : ℕ}
    {pc pc' : DeletePc} (h : deleteNext s deleted pick pc = some (s', deleted', pc'))
    (hsettles : pc.settles = true) : pc'.stake.owes = false := by
  cases pc with
  | count name size rest =>
      cases h
      rfl
  | _ => cases hsettles

/-- Who settles does not owe a count after the step. -/
theorem next_settled {i : ℕ} {t t' : ClipThread} (hn : next cfg i s t k = some (s', t'))
    (hsettles : t.settles cfg k s.clips = true) : t'.owes cfg = false := by
  cases t with
  | event e pc =>
      obtain ⟨⟨a, pc'⟩, ha, heq⟩ := Option.map_eq_some_iff.mp hn
      cases heq
      cases pc with
      | capture mode pc =>
          obtain ⟨⟨b, o⟩, hb, hob⟩ := Option.map_eq_some_iff.mp ha
          have hdone := captureNext_settled hb hsettles
          cases hob
          cases o with
          | running pc' => exact hdone
          | returned clipName => cases clipName <;> cases mode <;> rfl
          | raised => rfl
      | insert clipName | done => cases hsettles
  | deleteClips n pc | deleteAllClips n pc =>
      obtain ⟨⟨a, n', pc'⟩, ha, heq⟩ := Option.map_eq_some_iff.mp hn
      cases heq
      exact deleteNext_settled ha hsettles

theorem metasAfter_of_not_attaches {t : ClipThread} {metas : String → ClipMeta} {vlmText : String}
    (h : t.attaches = false) : t.metasAfter cfg vlmText k metas = metas := by
  cases t with
  | event e pc =>
      cases pc with
      | capture mode pc =>
          cases pc with
          | replaceSidecar size sidecarSize => cases h
          | _ => rfl
      | insert clipName | done => rfl
  | deleteClips n pc | deleteAllClips n pc => rfl

end Refines

/-! ## What the list shows of a step -/

/-- The sidecar of `name` shows in no entry of the list. -/
def ClipView.unshown (v : ClipView) (name : String) : Bool :=
  v.readClipMeta name == .empty || v.clips.files.all fun f => !f.listed || f.name != name

section View

variable {cfg : ClipConfig} {vlmText : ℕ → String} {s s' : Site} {v : ClipView} {k : Choice}
variable {i : ℕ} {t t' : ClipThread} {name : String}

theorem listClips_unshown (h : v.unshown name = true) :
    (v.without name).listClips = v.listClips := by
  simp only [ClipView.unshown, Bool.or_eq_true, beq_iff_eq, List.all_eq_true] at h
  rcases h with hempty | hfiles
  · -- there was nothing to read
    have hsame : v.without name = v := by
      refine ClipView.ext rfl (funext fun other => ?_)
      simp only [ClipView.without]
      split
      · rename_i hname
        rw [hname, hempty]
      · rfl
    rw [hsame]
  · refine listClips_without fun f hf hlisted => ?_
    have hf' := hfiles f hf
    simpa [hlisted] using hf'

theorem clipSite_next (hn : (clipSite cfg vlmText).next i s t k = some (s', t')) :
    next cfg i s.store t k = some (s'.store, t') ∧
      s'.metas = t.metasAfter cfg (vlmText i) k s.metas ∧ s'.client = s.client := by
  obtain ⟨r, hr, heq⟩ := Option.map_eq_some_iff.mp hn
  cases heq
  exact ⟨hr, rfl, rfl⟩

theorem clipSite_count (hn : (clipSite cfg vlmText).next i s t k = some (s', t')) :
    CountStep k s.store.clips s.store.count (t.stake cfg) s'.store.clips s'.store.count
      (t'.stake cfg) :=
  next_count (clipSite_next hn).1

/-- Who owes no count after a step has at most taken a sidecar. -/
theorem view_of_settled (hn : (clipSite cfg vlmText).next i s t k = some (s', t'))
    (howes : t'.owes cfg = false) :
    s'.view = s.view ∨ ∃ name, t.unlinks cfg k = some name ∧ s'.view = s.view.without name := by
  obtain ⟨hstep, hmetas, -⟩ := clipSite_next hn
  have hclips : s'.store.clips = s.store.clips := (clipSite_count hn).clips_of_settled howes
  have hattaches : t.attaches = false := by
    cases hatt : t.attaches with
    | false => rfl
    | true => rw [owes_of_attaches hstep hatt] at howes; cases howes
  rw [metasAfter_of_not_attaches hattaches] at hmetas
  cases next_sidecars hstep with
  | kept hside =>
      refine .inl (ClipView.ext hclips (funext fun other => ?_))
      have hget : s'.store.sidecar other = s.store.sidecar other := by
        simp only [Store.sidecar, hside]
      simp only [Site.view, hget, hmetas]
  | unlinked name hname hside =>
      refine .inr ⟨name, hname, ClipView.ext hclips (funext fun other => ?_)⟩
      have hget : s'.store.sidecar other =
          if other = name then none else s.store.sidecar other := by
        rw [← Store.sidecar_unlinkSidecar, Store.sidecar, hside]
        rfl
      simp only [Site.view, ClipView.without, hget, hmetas]
      split <;> rfl
  | attached h => rw [hattaches] at h; cases h

end View

/-! ## The runs in which the count signals every change -/

/-- What the client has not been told. -/
structure Changes where
  /-- The clips counted in less those counted out since the client's last poll. -/
  net : ℤ
  /-- Since the last poll that made the client refetch, the list has changed, or a file has gone
      that its request was still to measure. -/
  changed : Bool

/-- What a step of a thread does to the bookkeeping. -/
def recordChanges (cfg : ClipConfig) (vlmText : ℕ → String) (i : ℕ) (s : Site) (t : ClipThread)
    (k : Choice) (x : Changes) : Changes where
  net :=
    if t.settles cfg k s.store.clips then x.net + (t.stake cfg).net s.store.count else x.net
  changed := x.changed ||
    match (clipSite cfg vlmText).next i s t k with
    | none => false
    | some (s', _) => s'.view.listClips != s.view.listClips ||
        s.client.fetch.names.any fun name => (s'.store.clips.find name).isNone

/-- What a step of the client does to it. -/
def recordPoll (s : Site) (e : ClientEvent) (x : Changes) : Changes :=
  match e with
  | .poll =>
      { net := 0
        changed := x.changed && s.client.knownCount == some s.store.count }
  | .fetch => x

/-- The clip tree and the client with the bookkeeping. -/
def watchedSite (cfg : ClipConfig) (vlmText : ℕ → String) :
    Prog (Site × Changes) ClipThread ClipRequest Choice ClientEvent :=
  (clipSite cfg vlmText).recorded (recordChanges cfg vlmText) recordPoll

def openWatched (clips : ClipDir) (sidecars : List Sidecar) (metas : String → ClipMeta)
    (events : List EventRow) : Conf (Site × Changes) ClipThread :=
  ⟨((openSite clips sidecars metas events).shared, { net := 0, changed := true }), []⟩

/-- A thread that settles its count is not the last one to owe, or leaves as many clips counted in
    as counted out since the client's last poll only when the list has not changed, or the client
    has not polled yet; and no step takes the sidecar of a listed clip. -/
def signals (cfg : ClipConfig) (c : Conf (Site × Changes) ClipThread) :
    Event ClipRequest Choice ClientEvent → Bool
  | .sched i k =>
      match c.pool[i]? with
      | some t =>
          (!t.settles cfg k c.shared.1.store.clips ||
            (c.pool.eraseIdx i).any (ClipThread.owes cfg) ||
            c.shared.1.client.knownCount.isNone || !c.shared.2.changed ||
            c.shared.2.net + (t.stake cfg).net c.shared.1.store.count != 0) &&
          (t.unlinks cfg k).all c.shared.1.view.unshown
      | none => true
  | _ => true

def Signals (cfg : ClipConfig) (c : Conf (Site × Changes) ClipThread)
    (e : Event ClipRequest Choice ClientEvent) : Prop :=
  signals cfg c e = true

instance (cfg : ClipConfig) (c : Conf (Site × Changes) ClipThread)
    (e : Event ClipRequest Choice ClientEvent) : Decidable (Signals cfg c e) :=
  inferInstanceAs (Decidable (_ = true))

/-- The client has been told of the changes, or its next poll tells it. -/
def Announced (s : Site × Changes) : Prop :=
  s.1.client.knownCount = none ∨ s.2.changed = false ∨ s.2.net ≠ 0

/-- What every run that `Signals` allows keeps. -/
structure SignalInv (cfg : ClipConfig) (c : Conf (Site × Changes) ClipThread) : Prop where
  count : ∀ n, c.shared.1.client.knownCount = some n →
    (c.shared.1.store.count : ℤ) = n + c.shared.2.net
  list : c.shared.2.changed = false →
    c.shared.1.client.ahead c.shared.1.view = some c.shared.1.view.listClips
  announced : Owed Announced (ClipThread.owes cfg) c

section Run

variable {cfg : ClipConfig} {vlmText : ℕ → String} {c c' : Conf (Site × Changes) ClipThread}
variable {i : ℕ} {k : Choice} {t t' : ClipThread} {s' : Site}

theorem Signals.settles (hG : Signals cfg c (.sched i k)) (ht : c.pool[i]? = some t)
    (hsettles : t.settles cfg k c.shared.1.store.clips = true) :
    (c.pool.eraseIdx i).any (ClipThread.owes cfg) = true ∨
      c.shared.1.client.knownCount = none ∨ c.shared.2.changed = false ∨
      c.shared.2.net + (t.stake cfg).net c.shared.1.store.count ≠ 0 := by
  simp only [Signals, signals, ht, hsettles, Bool.and_eq_true, Bool.or_eq_true] at hG
  simpa [or_assoc] using hG.1

theorem Signals.unshown (hG : Signals cfg c (.sched i k)) (ht : c.pool[i]? = some t)
    {name : String} (hname : t.unlinks cfg k = some name) :
    c.shared.1.view.unshown name = true := by
  simp only [Signals, signals, ht, hname, Bool.and_eq_true] at hG
  exact hG.2

/-- Who owes no count after a step has not changed the list. -/
theorem Signals.sameList (hG : Signals cfg c (.sched i k)) (ht : c.pool[i]? = some t)
    (hn : (clipSite cfg vlmText).next i c.shared.1 t k = some (s', t'))
    (howes : t'.owes cfg = false) :
    s'.view.listClips = c.shared.1.view.listClips ∧ s'.store.clips = c.shared.1.store.clips := by
  have hclips : s'.store.clips = c.shared.1.store.clips :=
    (clipSite_count hn).clips_of_settled howes
  refine ⟨?_, hclips⟩
  rcases view_of_settled hn howes with hview | ⟨name, hname, hview⟩
  · rw [hview]
  · rw [hview]
    exact listClips_unshown (hG.unshown ht hname)

/-- The bookkeeping adds up what the counter does. -/
theorem count_recorded {x : Changes} {s : Site}
    (hn : (clipSite cfg vlmText).next i s t k = some (s', t')) :
    (s'.store.count : ℤ) - (recordChanges cfg vlmText i s t k x).net =
      s.store.count - x.net := by
  have hcount := clipSite_count hn
  simp only [recordChanges]
  cases hsettles : t.settles cfg k s.store.clips with
  | true =>
      rw [if_pos rfl, hcount.count_of_settled (next_settled (clipSite_next hn).1 hsettles)]
      ring
  | false =>
      have hsame : s'.store.count = s.store.count := by
        by_contra hne
        obtain ⟨howes, howes'⟩ := hcount.settled_of_count hne
        rcases next_owes (clipSite_next hn).1 howes with hsettled | howes''
        · rw [hsettles] at hsettled
          cases hsettled
        · rw [ClipThread.owes, howes'] at howes''
          cases howes''
      rw [if_neg Bool.false_ne_true, hsame]

/-- As long as the bookkeeping notes no change, the list is the same and no file has vanished. -/
theorem unchanged_recorded {x : Changes} {s : Site}
    (hn : (clipSite cfg vlmText).next i s t k = some (s', t')) :
    (recordChanges cfg vlmText i s t k x).changed = false ↔
      x.changed = false ∧ s'.view.listClips = s.view.listClips ∧
        ∀ name ∈ s.client.fetch.names, (s'.store.clips.find name).isSome = true := by
  simp only [recordChanges, hn, Bool.or_eq_false_iff, bne_eq_false_iff_eq, List.any_eq_false,
    Option.isNone_iff_eq_none, Option.isSome_iff_ne_none, ne_eq]

theorem announced_thread (hinv : SignalInv cfg c) (hG : Signals cfg c (.sched i k))
    (ht : c.pool[i]? = some t)
    (hn : (clipSite cfg vlmText).next i c.shared.1 t k = some (s', t')) :
    PaysOff Announced (ClipThread.owes cfg) c i t
      (s', recordChanges cfg vlmText i c.shared.1 t k c.shared.2) t' := by
  cases howes' : t'.owes cfg with
  | true => exact .inl howes'
  | false =>
      obtain ⟨hlist, hclips⟩ := hG.sameList ht hn howes'
      have hclient := (clipSite_next hn).2.2
      have hunchanged : c.shared.2.changed = false →
          (recordChanges cfg vlmText i c.shared.1 t k c.shared.2).changed = false := by
        intro hx
        refine (unchanged_recorded hn).mpr ⟨hx, hlist, ?_⟩
        rw [hclips]
        exact found_of_ahead (hinv.list hx)
      cases howes : t.owes cfg with
      | true =>
          have hsettles := (next_owes (clipSite_next hn).1 howes).resolve_right (by simp [howes'])
          rcases hG.settles ht hsettles with hothers | hnone | hx | hnet
          · exact .inr (.inr (.inl hothers))
          · exact .inr (.inl (.inl (by rw [hclient]; exact hnone)))
          · exact .inr (.inl (.inr (.inl (hunchanged hx))))
          · refine .inr (.inl (.inr (.inr ?_)))
            rw [recordChanges, if_pos hsettles]
            exact hnet
      | false =>
          -- nothing was to be counted
          have hnet : (recordChanges cfg vlmText i c.shared.1 t k c.shared.2).net =
              c.shared.2.net := by
            simp only [recordChanges, Stake.net_of_not_owes howes, add_zero, ite_self]
          refine .inr (.inr (.inr ⟨howes, fun hannounced => ?_⟩))
          rcases hannounced with hnone | hx | hne
          · exact .inl (by rw [hclient]; exact hnone)
          · exact .inr (.inl (hunchanged hx))
          · exact .inr (.inr (by rw [hnet]; exact hne))

theorem announced_client (hinv : SignalInv cfg c) {s' : Site × Changes} {x : ClientEvent}
    (hx : (watchedSite cfg vlmText).env c.shared x = some s') (h : Announced c.shared) :
    Announced s' := by
  obtain ⟨hs, hchanges⟩ := Prog.recorded_env hx
  cases x with
  | poll =>
      refine .inr (.inl ?_)
      rw [hchanges]
      simp only [recordPoll, Bool.and_eq_false_iff, beq_eq_false_iff_ne, ne_eq]
      by_cases hknown : c.shared.1.client.knownCount = some c.shared.1.store.count
      · -- the count has come back to the known one, so as many went as came
        have hcount := hinv.count _ hknown
        rcases h with hnone | hunchanged | hne
        · rw [hknown] at hnone
          cases hnone
        · exact .inl hunchanged
        · exact absurd (by omega) hne
      · exact .inr hknown
  | fetch =>
      obtain ⟨client, hclient, heq⟩ := Option.map_eq_some_iff.mp hs
      rcases h with hnone | hunchanged | hne
      · refine .inl ?_
        rw [← heq]
        exact (knownCount_fetchNext hclient).trans hnone
      · exact .inr (.inl (by rw [hchanges]; exact hunchanged))
      · exact .inr (.inr (by rw [hchanges]; exact hne))

theorem signalInv_thread (h : SignalInv cfg c)
    (hn : (clipSite cfg vlmText).next i c.shared.1 t k = some (s', t')) :
    (∀ n, s'.client.knownCount = some n → (s'.store.count : ℤ) =
      n + (recordChanges cfg vlmText i c.shared.1 t k c.shared.2).net) ∧
    ((recordChanges cfg vlmText i c.shared.1 t k c.shared.2).changed = false →
      s'.client.ahead s'.view = some s'.view.listClips) := by
  have hclient := (clipSite_next hn).2.2
  rw [hclient]
  constructor
  · intro n hknown
    have hcount := h.count n hknown
    have hrecorded := count_recorded (x := c.shared.2) hn
    omega
  · intro hx
    obtain ⟨hunchanged, hlist, hfound⟩ := (unchanged_recorded hn).mp hx
    exact ahead_of_listClips hlist hfound (h.list hunchanged)

theorem signalInv_client (h : SignalInv cfg c) {s' : Site × Changes} {x : ClientEvent}
    (hx : (watchedSite cfg vlmText).env c.shared x = some s') :
    (∀ n, s'.1.client.knownCount = some n → (s'.1.store.count : ℤ) = n + s'.2.net) ∧
    (s'.2.changed = false → s'.1.client.ahead s'.1.view = some s'.1.view.listClips) := by
  obtain ⟨hs, hchanges⟩ := Prog.recorded_env hx
  rw [hchanges]
  cases x with
  | poll =>
      rw [← Option.some.inj hs]
      constructor
      · intro n hknown
        rw [knownCount_poll] at hknown
        rw [← Option.some.inj hknown]
        exact (add_zero _).symm
      · intro hunchanged
        refine ahead_poll ?_
        simp only [recordPoll, Bool.and_eq_false_iff, beq_eq_false_iff_ne, ne_eq] at hunchanged
        exact hunchanged.symm.imp_right h.list
  | fetch =>
      obtain ⟨client, hclient, heq⟩ := Option.map_eq_some_iff.mp hs
      rw [← heq]
      constructor
      · intro n hknown
        exact h.count n ((knownCount_fetchNext hclient).symm.trans hknown)
      · exact fun hunchanged => ahead_fetchNext hclient (h.list hunchanged)

theorem signalInv_step (cfg : ClipConfig) (vlmText : ℕ → String)
    (c : Conf (Site × Changes) ClipThread) (e : Event ClipRequest Choice ClientEvent)
    (c' : Conf (Site × Changes) ClipThread) (h : SignalInv cfg c) (hG : Signals cfg c e)
    (hs : (watchedSite cfg vlmText).step c e = some c') : SignalInv cfg c' := by
  have hannounced : Owed Announced (ClipThread.owes cfg) c' := by
    refine h.announced.step hs (fun i k t s' t' he ht hn => ?_) fun x s' _ hx =>
      announced_client h hx
    subst he
    obtain ⟨hn, hchanges⟩ := Prog.recorded_next hn
    rw [← Prod.mk.eta (p := s'), hchanges]
    exact announced_thread h hG ht hn
  rcases Prog.step_cases hs with ⟨r, rfl, rfl⟩ | ⟨i, k, t, s', t', rfl, ht, hn, rfl⟩ |
      ⟨x, s', rfl, hx, rfl⟩
  · exact ⟨h.count, h.list, hannounced⟩
  · obtain ⟨hn, hchanges⟩ := Prog.recorded_next hn
    obtain ⟨hcount, hlist⟩ := signalInv_thread h hn
    rw [← hchanges] at hcount hlist
    exact ⟨hcount, hlist, hannounced⟩
  · obtain ⟨hcount, hlist⟩ := signalInv_client h hx
    exact ⟨hcount, hlist, hannounced⟩

theorem signalInv_start (cfg : ClipConfig) (clips : ClipDir) (sidecars : List Sidecar)
    (metas : String → ClipMeta) (events : List EventRow) :
    SignalInv cfg (openWatched clips sidecars metas events) where
  count n hknown := by cases hknown
  list hunchanged := by cases hunchanged
  announced := .inl (.inl rfl)

/-- With nobody left to count, a client that knows the count of now has the list, or is going
    to. -/
theorem SignalInv.ahead (h : SignalInv cfg c) (hdone : ∀ t ∈ c.pool, t.owes cfg = false)
    (hknown : c.shared.1.client.knownCount = some c.shared.1.store.count) :
    c.shared.1.client.ahead c.shared.1.view = some c.shared.1.view.listClips := by
  have hcount := h.count _ hknown
  rcases h.announced.settled hdone with hnone | hunchanged | hne
  · rw [hknown] at hnone
    cases hnone
  · exact h.list hunchanged
  · exact absurd (by omega) hne

theorem owes_of_finished (h : t.finished = true) : t.owes cfg = false := by
  rw [ClipThread.owes, stake_of_finished h]
  rfl

/-- The list of a client whose request has come to its end. -/
theorem clips_of_idle {client : ClipsClient} {v : ClipView} {clips : List ClipOut}
    (h : client.ahead v = some clips) (hidle : client.fetch = .idle) : client.clips = clips := by
  simpa [ClipsClient.ahead, hidle] using h

/-- A request comes to its end. -/
theorem fetch_ends (cfg : ClipConfig) (vlmText : ℕ → String) (n : ℕ)
    (c : Conf (Site × Changes) ClipThread)
    (hsteps : c.shared.1.client.fetch.steps c.shared.1.view.clips.files.length ≤ n) :
    ∃ m c', run (watchedSite cfg vlmText).step c (List.replicate m (.env .fetch)) = some c' ∧
      c'.shared.1.client.fetch = .idle ∧ c'.pool = c.pool ∧
      c'.shared.1.store.count = c.shared.1.store.count ∧
      c'.shared.1.client.knownCount = c.shared.1.client.knownCount := by
  induction n generalizing c with
  | zero =>
      refine ⟨0, c, rfl, ?_, rfl, rfl, rfl⟩
      cases hfetch : c.shared.1.client.fetch with
      | idle => rfl
      | _ => rw [hfetch] at hsteps; simp [Fetch.steps] at hsteps
  | succ n ih =>
      by_cases hidle : c.shared.1.client.fetch = .idle
      · exact ⟨0, c, rfl, hidle, rfl, rfl, rfl⟩
      · obtain ⟨client, hclient⟩ := fetchNext_isSome (v := c.shared.1.view) hidle
        have hless := steps_fetchNext hclient
        obtain ⟨m, c', hrun, hend, hpool, hcount, hknown⟩ :=
          ih ⟨({ c.shared.1 with client := client }, c.shared.2), c.pool⟩
            (Nat.le_of_lt_succ (hless.trans_le hsteps))
        refine ⟨m + 1, c', ?_, hend, hpool, hcount, hknown.trans (knownCount_fetchNext hclient)⟩
        have hstep : (watchedSite cfg vlmText).step c (.env .fetch) =
            some ⟨({ c.shared.1 with client := client }, c.shared.2), c.pool⟩ := by
          simp only [Prog.step, watchedSite, Prog.recorded, clipSite, hclient, Option.map_some,
            recordPoll]
        rw [List.replicate_succ, run, List.foldlM_cons, hstep]
        exact hrun

end Run

def twoNames : ClipConfig where
  clipBase t := if t = 1000 then "20250101_120000_000" else "20250101_120100_000"
  minFreeBytes := 100
  targetFreeBytes := 200

def proceed (i n : ℕ) : List (Event ClipRequest Choice ClientEvent) :=
  List.replicate n (.sched i .go)

/-- The worker of an event up to the metadata of its published clip. -/
def publishedBy (i : ℕ) (eventTime : ℚ) : List (Event ClipRequest Choice ClientEvent) :=
  .enter (.event ⟨["fire"], eventTime⟩) :: proceed i 2 ++ .sched i (.free 500) :: proceed i 2 ++
    .sched i (.encoded (some (20000, eventTime))) :: proceed i 3

def countedBy (i : ℕ) : List (Event ClipRequest Choice ClientEvent) :=
  proceed i 1 ++ .sched i (.written 300) :: proceed i 4

/-- `DELETE /clips` of the first clip by thread `i`. -/
def deletedBy (i : ℕ) : List (Event ClipRequest Choice ClientEvent) :=
  .enter (.deleteClips ["20250101_120000_000"]) :: proceed i 6

/-- A poll and a request for a list of `n` clips. -/
def refetched (n : ℕ) : List (Event ClipRequest Choice ClientEvent) :=
  .env .poll :: List.replicate (2 * n + 3) (.env .fetch)

def siteTexts (i : ℕ) : String := if i = 0 then "A fire." else "Smoke."

abbrev freshSite : Conf Site ClipThread :=
  openSite ⟨[], List.nodup_nil⟩ [] (fun _ => .empty) []

/-- Two clips, the second published while the client asks for the list, and one deletion, with a
    poll after each. -/
abbrev signalled : Conf (Site × Changes) ClipThread :=
  exec (guardedStep (watchedSite twoNames siteTexts).step (Signals twoNames))
    (openWatched ⟨[], List.nodup_nil⟩ [] (fun _ => .empty) [])
    (publishedBy 0 1000 ++ countedBy 0 ++ .env .poll :: publishedBy 1 2000 ++
      List.replicate 7 (.env .fetch) ++ countedBy 1 ++ refetched 2 ++ deletedBy 2 ++ refetched 1)

/-- What is known of a state in which the count has not told the client of a change. -/
def missed (c : Conf Site ClipThread) : Bool :=
  c.pool.all ClipThread.finished && c.shared.client.fetch == .idle &&
    c.shared.client.knownCount == some c.shared.store.count &&
    c.shared.client.clips != c.shared.view.listClips

end Babycat.Recorder
