/-
  Babycat.Recorder.Worker

  The worker of an accepted event cannot avoid its history row.

  Every step of the worker lowers a rank, whatever the clip tree has become in
  between: the loop of a pruning pass runs over a listing that it has taken,
  and the capture paths are tried one after the other.  A worker whose payload
  can be processed (`workable`) and whose insertion succeeds therefore inserts
  its row after finitely many steps, exceptions of the capture included.
-/

import Babycat.Recorder.Process

namespace Babycat.Recorder

open Babycat.Conc

/-! ## The rank -/

abbrev Rank := ℕ × ℕ × ℕ

/-- The lexicographic order. -/
def Rank.Lower : Rank → Rank → Prop := Prod.Lex (· < ·) (Prod.Lex (· < ·) (· < ·))

theorem Rank.lower_wf : WellFounded Rank.Lower :=
  WellFounded.prod_lex Nat.lt_wfRel.wf (WellFounded.prod_lex Nat.lt_wfRel.wf Nat.lt_wfRel.wf)

theorem Rank.lower_left {a a' : ℕ} {b b' : ℕ × ℕ} (h : a < a') : Rank.Lower (a, b) (a', b') :=
  Prod.Lex.left b b' h

theorem Rank.lower_mid {a b b' c c' : ℕ} (h : b < b') : Rank.Lower (a, b, c) (a, b', c') :=
  Prod.Lex.right a (Prod.Lex.left c c' h)

theorem Rank.lower_right {a b c c' : ℕ} (h : c < c') : Rank.Lower (a, b, c) (a, b, c') :=
  Prod.Lex.right a (Prod.Lex.right b h)

theorem Rank.lower_shift {a b : Rank} (n : ℕ) (h : Rank.Lower a b) :
    Rank.Lower (a.1 + n, a.2) (b.1 + n, b.2) := by
  rcases Prod.lex_def.mp h with hlt | ⟨heq, hlt⟩
  · exact Rank.lower_left (Nat.add_lt_add_right hlt n)
  · rw [heq]
    exact Prod.Lex.right _ hlt

/-- The loop over a listing of clips is one stage: a round that ends leaves fewer clips. -/
def PrunePc.rank : PrunePc → Rank
  | .before => (20, 0, 0)
  | .free _ => (19, 0, 0)
  | .list _ => (18, 0, 0)
  | .present _ _ rest => (17, rest.length, 8)
  | .stat _ _ rest => (17, rest.length, 7)
  | .unlink _ _ _ rest => (17, rest.length, 6)
  | .count _ _ _ rest => (17, rest.length, 5)
  | .sidecar _ _ rest => (17, rest.length, 4)
  | .statSidecar _ _ rest => (17, rest.length, 3)
  | .unlinkSidecar _ _ rest => (17, rest.length, 2)
  | .refree _ rest => (17, rest.length, 1)
  | .after _ => (16, 0, 0)
  | .history _ _ => (15, 0, 0)

def CapturePc.rank : CapturePc → Rank
  | .base => (21, 0, 0)
  | .prune pc => pc.rank
  | .select => (12, 0, 0)
  | .ffmpeg => (11, 0, 0)
  | .encode => (10, 0, 0)
  | .publish _ _ => (9, 0, 0)
  | .stat _ => (8, 0, 0)
  | .probe _ => (7, 0, 0)
  | .buildMeta _ => (6, 0, 0)
  | .writeSidecar _ => (5, 0, 0)
  | .replaceSidecar _ _ => (4, 0, 0)
  | .count _ => (3, 0, 0)
  | .report => (2, 0, 0)

/-- The direct recording comes after the rollover clip. -/
def EventPc.rank : EventPc → Rank
  | .capture .rollover pc => (pc.rank.1 + 40, pc.rank.2)
  | .capture .direct pc => pc.rank
  | .insert _ => (1, 0, 0)
  | .done => (0, 0, 0)

section Rank

variable {cfg : ClipConfig} {s s' : Store} {k : Choice}

theorem PrunePc.rank_bounds (pc : PrunePc) : 15 ≤ pc.rank.1 ∧ pc.rank.1 ≤ 20 := by
  cases pc <;> simp [PrunePc.rank]

theorem CapturePc.rank_bounds (pc : CapturePc) : 2 ≤ pc.rank.1 ∧ pc.rank.1 ≤ 21 := by
  cases pc with
  | prune pc =>
      have hpc := pc.rank_bounds
      simp only [CapturePc.rank]
      omega
  | _ => simp [CapturePc.rank]

theorem pruneEnd_rank {p : Pruning} {pc : PrunePc} {n : ℕ} {b : ℕ × ℕ} (hn : 16 < n)
    (h : pruneEnd cfg p = .running pc) : Rank.Lower pc.rank (n, b) := by
  simp only [pruneEnd] at h
  split at h <;> cases h
  exact Rank.lower_left hn

theorem pruneNext_rank {pc pc' : PrunePc} (h : pruneNext cfg s k pc = some (s', .running pc')) :
    Rank.Lower pc'.rank pc.rank := by
  cases pc with
  | before =>
      simp only [pruneNext] at h
      split at h <;> cases h
      exact Rank.lower_left (by decide)
  | free before =>
      simp only [pruneNext] at h
      split at h
      · split at h <;> cases h
        exact Rank.lower_left (by decide)
      · cases h
  | list p =>
      simp only [pruneNext] at h
      split at h
      · cases h
      · cases hl : s.clips.list with
        | nil =>
            simp only [hl, pruneLoop, Option.some.injEq, Prod.mk.injEq] at h
            exact pruneEnd_rank (by decide) h.2
        | cons name rest =>
            simp only [hl, pruneLoop] at h
            cases h
            exact Rank.lower_left (by decide)
  | present p name rest =>
      simp only [pruneNext] at h
      split at h <;> cases h <;> exact Rank.lower_right (by decide)
  | stat p name rest =>
      simp only [pruneNext] at h
      split at h <;> cases h
      exact Rank.lower_right (by decide)
  | unlink p name size rest =>
      simp only [pruneNext] at h
      split at h <;> cases h
      exact Rank.lower_right (by decide)
  | count p name size rest =>
      cases h
      exact Rank.lower_right (by decide)
  | sidecar p name rest =>
      simp only [pruneNext] at h
      split at h <;> cases h <;> exact Rank.lower_right (by decide)
  | statSidecar p name rest =>
      simp only [pruneNext] at h
      split at h <;> cases h
      exact Rank.lower_right (by decide)
  | unlinkSidecar p name rest =>
      simp only [pruneNext] at h
      split at h <;> cases h
      exact Rank.lower_right (by decide)
  | refree p rest =>
      simp only [pruneNext] at h
      split at h
      · simp only [Option.some.injEq, Prod.mk.injEq] at h
        obtain ⟨-, h⟩ := h
        split at h
        · exact pruneEnd_rank (by decide) h
        · cases rest with
          | nil => exact pruneEnd_rank (by decide) h
          | cons name rest =>
              cases h
              exact Rank.lower_mid (Nat.lt_succ_self _)
      · cases h
  | after p =>
      simp only [pruneNext] at h
      split at h <;> cases h
      exact Rank.lower_left (by decide)
  | history p removed =>
      simp only [pruneNext] at h
      split at h <;> cases h

theorem captureNext_rank {mode : CaptureMode} {name : String} {pc pc' : CapturePc}
    (h : captureNext cfg mode name s k pc = some (s', .running pc')) :
    Rank.Lower pc'.rank pc.rank := by
  cases pc with
  | base =>
      simp only [captureNext] at h
      split at h <;> cases h
      exact Rank.lower_left (by decide)
  | prune pc =>
      obtain ⟨⟨b, o⟩, hb, heq⟩ := Option.map_eq_some_iff.mp h
      rcases o with pc₁ | ⟨_ | _⟩ | _
      · cases heq
        exact pruneNext_rank hb
      · cases heq
      · have hpc := pc.rank_bounds
        have hafter : pc'.rank.1 < pc.rank.1 := by
          cases mode <;> cases heq
          · show 12 < pc.rank.1
            omega
          · show 11 < pc.rank.1
            omega
        exact Prod.Lex.left pc'.rank.2 pc.rank.2 hafter
      · cases heq
  | select =>
      cases k <;> cases h <;> exact Rank.lower_left (by decide)
  | stat written =>
      simp only [captureNext] at h
      split at h <;> cases h
      exact Rank.lower_left (by decide)
  | publish | buildMeta | report =>
      simp only [captureNext] at h
      split at h <;> cases h <;> exact Rank.lower_left (by decide)
  | encode | writeSidecar =>
      simp only [captureNext] at h
      split at h <;> cases h <;> exact Rank.lower_left (by decide)
  | ffmpeg | probe | replaceSidecar | count =>
      cases h
      exact Rank.lower_left (by decide)

theorem insert_rank (clipName : Option String) (mode : CaptureMode) (pc : CapturePc) :
    Rank.Lower (EventPc.insert clipName).rank (EventPc.capture mode pc).rank := by
  have hpc := pc.rank_bounds
  cases mode
  · exact Rank.lower_left (show 1 < pc.rank.1 + 40 by omega)
  · exact Prod.Lex.left (0, 0) pc.rank.2 (show 1 < pc.rank.1 by omega)

theorem eventNext_rank {e : EventIn} {pc pc' : EventPc}
    (h : eventNext cfg e s k pc = some (s', pc')) :
    Rank.Lower pc'.rank pc.rank := by
  cases pc with
  | capture mode pc =>
      obtain ⟨⟨b, o⟩, hb, heq⟩ := Option.map_eq_some_iff.mp h
      have hpc := pc.rank_bounds
      rcases o with pc₁ | ⟨_ | name⟩ | _
      · cases heq
        cases mode with
        | rollover => exact Rank.lower_shift 40 (captureNext_rank hb)
        | direct => exact captureNext_rank hb
      · cases mode <;> cases heq
        · exact Rank.lower_left (show 21 < pc.rank.1 + 40 by omega)
        · exact insert_rank none .direct pc
      · cases heq
        exact insert_rank (some name) mode pc
      · cases heq
        exact insert_rank none mode pc
  | insert clipName =>
      cases h
      exact Rank.lower_left (by decide)
  | done => cases h

/-- The capture does not end the worker. -/
theorem eventNext_not_done {e : EventIn} {mode : CaptureMode} {pc : CapturePc} {pc' : EventPc}
    (h : eventNext cfg e s k (.capture mode pc) = some (s', pc')) : pc' ≠ .done := by
  obtain ⟨⟨b, o⟩, -, heq⟩ := Option.map_eq_some_iff.mp h
  rcases o with pc₁ | ⟨_ | name⟩ | _ <;> cases heq
  · exact EventPc.noConfusion
  · cases mode <;> exact EventPc.noConfusion
  · exact EventPc.noConfusion
  · exact EventPc.noConfusion

/-! ## A step is always possible -/

theorem pruneNext_moves (cfg : ClipConfig) (s : Store) (pc : PrunePc) :
    ∃ k, (pruneNext cfg s k pc).isSome = true := by
  cases pc with
  | free before | refree p rest => exact ⟨.free 0, rfl⟩
  | unlink p name size rest =>
      refine ⟨.go, ?_⟩
      simp only [pruneNext]
      split <;> rfl
  | unlinkSidecar p name rest =>
      refine ⟨.go, ?_⟩
      simp only [pruneNext]
      split <;> rfl
  | _ => exact ⟨.go, rfl⟩

theorem captureNext_moves (cfg : ClipConfig) (mode : CaptureMode) (name : String) (s : Store)
    (pc : CapturePc) : ∃ k, (captureNext cfg mode name s k pc).isSome = true := by
  cases pc with
  | prune pc =>
      obtain ⟨k, hk⟩ := pruneNext_moves cfg s pc
      exact ⟨k, by rw [captureNext, Option.isSome_map]; exact hk⟩
  | encode => exact ⟨.ffmpegFailed, rfl⟩
  | publish size mtime =>
      refine ⟨.go, ?_⟩
      simp only [captureNext]
      split <;> rfl
  | writeSidecar size => exact ⟨.raise, rfl⟩
  | _ => exact ⟨.go, rfl⟩

end Rank

/-! ## The history row -/

/-- The worker can process the payload: the keywords can be gone through, and an event time that
    is given can be formatted. -/
def workable (cfg : RecorderConfig) (p : Payload) : Bool :=
  (matchedKeywords cfg p).isSome &&
    (!(p.get "event_time").truthy ||
      match cfg.toFloat (p.get "event_time") with
      | some (.finite t) => gmtime t
      | _ => false)

/-- The step does not lose an event: the state file is written, the worker is started and can
    process the payload, and its row is inserted. -/
def RecorderThread.succeeds (cfg : RecorderConfig) (t : RecorderThread) (k : RecorderChoice) :
    Bool :=
  match t with
  | .notify p (.move _) => workable cfg p
  | .notify _ (.update _ _) | .notify _ (.start _) => k != .io .raise
  | .worker _ p (.eventTime _) =>
      match readEventTime cfg p k with
      | some (some (.finite t)) => gmtime t
      | _ => false
  | .worker _ _ (.event _ (.insert _)) => k != .io .raise
  | _ => true

/-- The thread is to insert the row of event `n`. -/
def RecorderThread.pending (cfg : RecorderConfig) (n : ℕ) : RecorderThread → Bool
  | .notify p (.start m) => m == n && workable cfg p
  | .worker m p .keywords | .worker m p (.eventTime _) => m == n && workable cfg p
  | .worker m _ (.event e pc) => m == n && pc != .done && gmtime e.eventTime
  | _ => false

def RecorderThread.rank : RecorderThread → Rank
  | .notify _ (.start _) => (82, 0, 0)
  | .worker _ _ .keywords => (81, 0, 0)
  | .worker _ _ (.eventTime _) => (80, 0, 0)
  | .worker _ _ (.event _ pc) => pc.rank
  | _ => (0, 0, 0)

/-- The step inserts a history row, and notes it for event `n`. -/
def InsertsRow (n : ℕ) (s s' : Process) : Prop :=
  ∃ row, s'.store.events = s.store.events ++ [row] ∧
    s'.accepted = s.accepted.modify n fun a => { a with rows := a.rows ++ [row] }

section Pending

variable {cfg : RecorderConfig} {i n : ℕ} {s s' : Process} {k : RecorderChoice}
variable {t t' : RecorderThread}

/-- Every step of a worker brings it closer to its end. -/
theorem workerNext_rank {p : Payload} {pc pc' : WorkerPc}
    (h : workerNext cfg n p s k pc = some (s', pc')) :
    Rank.Lower (RecorderThread.worker n p pc').rank (RecorderThread.worker n p pc).rank := by
  cases pc with
  | keywords =>
      cases h
      split <;> exact Rank.lower_left (by decide)
  | eventTime keywords =>
      obtain ⟨x, -, heq⟩ := Option.map_eq_some_iff.mp h
      split at heq <;> cases heq <;> exact Rank.lower_left (by decide)
  | event e epc =>
      cases epc with
      | capture mode cpc =>
          cases k with
          | io c =>
              obtain ⟨r, hr, heq⟩ := Option.map_eq_some_iff.mp h
              cases heq
              exact eventNext_rank hr
          | fail =>
              cases h
              exact insert_rank none mode cpc
          | clock now => cases h
      | insert clipName =>
          simp only [workerNext] at h
          split at h <;> cases h <;> exact Rank.lower_left (by decide)
      | done => cases h
  | dead => cases h

/-- The row is inserted by this step, or still to be inserted and closer. -/
theorem pending_next (ht : t.pending cfg n = true) (hk : t.succeeds cfg k = true)
    (h : recorderNext cfg i s t k = some (s', t')) :
    InsertsRow n s s' ∨ (t'.pending cfg n = true ∧ Rank.Lower t'.rank t.rank) := by
  cases t with
  | notify p npc =>
      cases npc with
      | start m =>
          have hio : k ≠ .io .raise := by simpa [RecorderThread.succeeds] using hk
          simp only [recorderNext, notifyNext, if_neg hio] at h
          cases h
          exact .inr ⟨ht, Rank.lower_left (by decide)⟩
      | _ => cases ht
  | worker m p pc =>
      obtain ⟨⟨a, pc'⟩, ha, heq⟩ := Option.map_eq_some_iff.mp h
      cases heq
      have hlower := workerNext_rank ha
      cases pc with
      | keywords =>
          simp only [RecorderThread.pending, workable, Bool.and_eq_true] at ht
          obtain ⟨keywords, hkw⟩ := Option.isSome_iff_exists.mp ht.2.1
          simp only [workerNext, hkw] at ha
          cases ha
          refine .inr ⟨?_, hlower⟩
          simp only [RecorderThread.pending, workable, Bool.and_eq_true]
          exact ht
      | eventTime keywords =>
          simp only [RecorderThread.pending, Bool.and_eq_true] at ht
          obtain ⟨x, hx, heq⟩ := Option.map_eq_some_iff.mp ha
          simp only [RecorderThread.succeeds, hx] at hk
          split at hk
          · rename_i q hq
            cases hq
            cases heq
            refine .inr ⟨?_, hlower⟩
            simp [RecorderThread.pending, ht.1, hk]
          · cases hk
      | event e epc =>
          simp only [RecorderThread.pending, Bool.and_eq_true] at ht
          obtain ⟨⟨hm, -⟩, hgm⟩ := ht
          cases epc with
          | capture mode cpc =>
              cases k with
              | io c =>
                  obtain ⟨r, hr, heq⟩ := Option.map_eq_some_iff.mp ha
                  cases heq
                  refine .inr ⟨?_, hlower⟩
                  simp [RecorderThread.pending, hm, hgm, eventNext_not_done hr]
              | fail =>
                  cases ha
                  exact .inr ⟨by simp [RecorderThread.pending, hm, hgm], hlower⟩
              | clock now => cases ha
          | insert clipName =>
              have hio : k ≠ .io .raise := by simpa [RecorderThread.succeeds] using hk
              simp only [workerNext, if_pos (And.intro hgm hio)] at ha
              cases ha
              rw [← beq_iff_eq.mp hm]
              exact .inl ⟨_, rfl, rfl⟩
          | done => cases ha
      | dead => cases ht
  | _ => cases ht

/-- Whatever the clock says, it can be read. -/
theorem eventTime_moves (m : ℕ) (p : Payload) (keywords : List String) (s : Process) :
    ((recorder cfg).next i s (.worker m p (.eventTime keywords)) (.clock 0)).isSome = true := by
  simp only [recorder, recorderNext, workerNext, readEventTime, Option.isSome_map]
  split <;> rfl

theorem capture_moves (m : ℕ) (p : Payload) (e : EventIn) (mode : CaptureMode) (pc : CapturePc)
    (s : Process) :
    ∃ c, ((recorder cfg).next i s (.worker m p (.event e (.capture mode pc))) (.io c)).isSome =
      true := by
  obtain ⟨c, hc⟩ := captureNext_moves cfg.clips mode (cfg.clips.clipBase e.eventTime) s.store pc
  refine ⟨c, ?_⟩
  simp only [recorder, recorderNext, workerNext, eventNext, Option.isSome_map]
  exact hc

theorem insert_moves (m : ℕ) (p : Payload) (e : EventIn) (clipName : Option String) (s : Process) :
    ((recorder cfg).next i s (.worker m p (.event e (.insert clipName))) (.io .go)).isSome =
      true := by
  simp only [recorder, recorderNext, workerNext, Option.isSome_map]
  split <;> rfl

theorem pending_moves (ht : t.pending cfg n = true) (s : Process) :
    ∃ k, t.succeeds cfg k = true ∧ ((recorder cfg).next i s t k).isSome = true := by
  cases t with
  | notify p npc =>
      cases npc with
      | start m => exact ⟨.io .go, rfl, rfl⟩
      | _ => cases ht
  | worker m p pc =>
      cases pc with
      | keywords => exact ⟨.io .go, rfl, rfl⟩
      | eventTime keywords =>
          simp only [RecorderThread.pending, workable, Bool.and_eq_true, Bool.or_eq_true] at ht
          -- a clock reading that can be formatted, for a payload without a time
          refine ⟨.clock 0, ?_, ?_⟩
          · simp only [RecorderThread.succeeds, readEventTime]
            cases htruthy : (p.get "event_time").truthy with
            | false => rfl
            | true =>
                have htime := ht.2.2.resolve_left (by simp [htruthy])
                split at htime
                · rename_i q hq
                  simpa [hq] using htime
                · cases htime
          · exact eventTime_moves m p keywords s
      | event e epc =>
          cases epc with
          | capture mode cpc =>
              obtain ⟨c, hc⟩ := capture_moves m p e mode cpc s
              exact ⟨.io c, rfl, hc⟩
          | insert clipName => exact ⟨.io .go, rfl, insert_moves m p e clipName s⟩
          | done => simp [RecorderThread.pending] at ht
      | dead => cases ht
  | _ => cases ht

/-- A pending row is inserted after finitely many steps of its thread. -/
theorem pending_inevitable (ht : t.pending cfg n = true) :
    Inevitable (recorder cfg) (fun t k => t.succeeds cfg k = true) (fun s s' _ => InsertsRow n s s')
      i t :=
  Inevitable.of_rank Rank.lower_wf RecorderThread.rank (J := fun t => t.pending cfg n = true)
    (fun _ s ht => pending_moves ht s) (fun _ _ _ _ _ ht hk h => pending_next ht hk h) ht

end Pending

end Babycat.Recorder
