/-
  Babycat.Streamer.StopOutcome

  What a streaming stop leaves (`camera.py`, `streaming_stop`).

  The flag and the PTZ target are dropped in front of the patch of the source,
  and a patch that fails does not bring them back: a stop that reports an error
  leaves everything as it was only when there was nothing to drop.  A `StopCall`
  is one call with the steps of the other threads in between.
-/

import Babycat.Streamer.SourceFlag

namespace Babycat.Streamer

open Babycat.Conc

-- ============================================================================
-- One call
-- ============================================================================

/-- A step of the others while thread `i` holds the runtime lock; the child does not exit. -/
inductive OtherStep (cfg : StreamerConfig) (i : ℕ) (s s' : Companion) : Prop
  | thread (j : ℕ) (t t' : StreamerThread) (k : CameraChoice) (hj : j ≠ i)
      (hout : t.inside = false) (hn : streamerNext cfg j s t k = some (s', t'))
  | child (e : ChildEvent) (he : e ≠ .crash) (hn : childNext s e = some s')

/-- The answer that a step gets, if it is the patch. -/
def StopPc.answer (k : CameraChoice) (before : Option CameraChoice) : StopPc → Option CameraChoice
  | .patch => some k
  | _ => before

/-- The call of `streaming_stop` by thread `i` in the state `s₀`: where it is, and the answer that
    its patch got. -/
inductive StopCall (cfg : StreamerConfig) (i : ℕ) (s₀ : Companion) :
    Companion → StopPc → Option CameraChoice → Prop
  | enter {s pc} (k : CameraChoice) : stopNext i s₀ k .acquire = some (s, pc) →
      StopCall cfg i s₀ s pc none
  | own {s s' pc pc' answer} (k : CameraChoice) : StopCall cfg i s₀ s pc answer →
      stopNext i s k pc = some (s', pc') →
      StopCall cfg i s₀ s' pc' (pc.answer k answer)
  | other {s s' pc answer} : StopCall cfg i s₀ s pc answer → OtherStep cfg i s s' →
      StopCall cfg i s₀ s' pc answer

/-- Flag, PTZ target and source say stopped and the answer is ok, or the answer is an error and
    they are as they were. -/
def AllOrNothing (s₀ s : Companion) (o : Outcome) : Prop :=
  (o = .ok ∧ s.applied.streamingActive = false ∧ s.ptz = none ∧ s.source = detached) ∨
    (o ≠ .ok ∧ s.applied.streamingActive = s₀.applied.streamingActive ∧ s.ptz = s₀.ptz ∧
      s.source = s₀.source)

/-- What a call has done up to a step. -/
def StopDone (s₀ s : Companion) (answer : Option CameraChoice) : StopPc → Prop
  | .acquireConfig | .read => s.applied = s₀.applied ∧ s.ptz = s₀.ptz ∧ s.source = s₀.source
  | .write a => a = s₀.applied.stopped ∧ s.ptz = s₀.ptz ∧ s.source = s₀.source
  | .releaseConfig | .clear =>
      s.applied = s₀.applied.stopped ∧ s.ptz = s₀.ptz ∧ s.source = s₀.source
  | .patch => s.applied = s₀.applied.stopped ∧ s.ptz = none ∧ s.source = s₀.source
  | .release o =>
      s.applied = s₀.applied.stopped ∧ s.ptz = none ∧
        ∃ k, answer = some k ∧
          ((k = .lost ∧ o = mediamtxApiError) ∨ (k = .patched ∧ o = .ok ∧ s.source = detached) ∨
            (k = .refused ∧ o = mediamtxApiError ∧ s.source = s₀.source))
  | .acquire | .returned _ => False

section Call

variable {cfg : StreamerConfig} {i : ℕ} {s₀ s s' : Companion} {k : CameraChoice}
variable {pc pc' : StopPc} {answer : Option CameraChoice} {o : Outcome}

/-- The others leave the three pieces and the lock alone. -/
theorem OtherStep.kept (h : OtherStep cfg i s s') (hlock : s.runtimeLock = some i) :
    Kept s s' ∧ s'.runtimeLock = some i := by
  cases h with
  | thread j t t' k hj hout hn =>
    obtain ⟨hkept, ⟨hsame, -⟩ | ⟨hfree, -⟩⟩ := next_outside hn hout
    · exact ⟨hkept, hsame.trans hlock⟩
    · rw [hlock] at hfree
      cases hfree
  | child e he hn =>
    refine ⟨?_, (childNext_runtimeLock hn).trans hlock⟩
    cases e with
    | crash => exact absurd rfl he
    | spawn | popen =>
      simp only [childNext] at hn
      split at hn <;> cases hn
      exact ⟨rfl, rfl, rfl, rfl⟩

theorem StopDone.of_kept (h : StopDone s₀ s answer pc) (hkept : Kept s s') :
    StopDone s₀ s' answer pc := by
  obtain ⟨happlied, hsource, hptz, -⟩ := hkept
  cases pc with
  | acquire | returned o => exact h
  | _ =>
    simp only [StopDone] at h ⊢
    rw [hptz, hsource]
    first
    | exact h
    | rw [happlied]; exact h

/-- The three answers of the control API. -/
theorem patchSource_answer {source : String} {ok : Bool}
    (h : patchSource s k source = some (s', ok)) :
    s'.applied = s.applied ∧ s'.ptz = s.ptz ∧ s'.runtimeLock = s.runtimeLock ∧
      ((k = .lost ∧ ok = false) ∨ (k = .patched ∧ ok = true ∧ s'.source = source) ∨
        (k = .refused ∧ ok = false ∧ s'.source = s.source)) := by
  cases k with
  | go => cases h
  | refused =>
    cases h
    exact ⟨rfl, rfl, rfl, .inr (.inr ⟨rfl, rfl, rfl⟩)⟩
  | lost =>
    simp only [patchSource] at h
    split at h <;> cases h
    exact ⟨rfl, rfl, rfl, .inl ⟨rfl, rfl⟩⟩
  | patched =>
    simp only [patchSource] at h
    split at h <;> cases h
    exact ⟨rfl, rfl, rfl, .inr (.inl ⟨rfl, rfl, rfl⟩)⟩

/-- A step of the call. -/
theorem StopDone.own (h : StopDone s₀ s answer pc) (hlock : s.runtimeLock = some i)
    (hn : stopNext i s k pc = some (s', pc')) (hnot : ∀ o, pc ≠ .release o) :
    StopDone s₀ s' (pc.answer k answer) pc' ∧ s'.runtimeLock = some i := by
  cases pc with
  | acquire | returned o => exact h.elim
  | release o => exact absurd rfl (hnot o)
  | acquireConfig =>
    simp only [stopNext] at hn
    split at hn <;> cases hn
    exact ⟨h, hlock⟩
  | read =>
    cases hn
    obtain ⟨happlied, hrest⟩ := h
    exact ⟨⟨by rw [happlied], hrest⟩, hlock⟩
  | write a =>
    cases hn
    exact ⟨h, hlock⟩
  | releaseConfig =>
    cases hn
    exact ⟨h, hlock⟩
  | clear =>
    cases hn
    obtain ⟨happlied, -, hsource⟩ := h
    exact ⟨⟨happlied, rfl, hsource⟩, hlock⟩
  | patch =>
    obtain ⟨⟨b, ok⟩, hpatch, heq⟩ := Option.map_eq_some_iff.mp hn
    cases heq
    obtain ⟨happlied, hptz, hsource⟩ := h
    obtain ⟨happlied', hptz', hlock', hanswer⟩ := patchSource_answer hpatch
    refine ⟨⟨happlied'.trans happlied, hptz'.trans hptz, k, rfl, ?_⟩, hlock'.trans hlock⟩
    rcases hanswer with ⟨rfl, rfl⟩ | ⟨rfl, rfl, hset⟩ | ⟨rfl, rfl, hsame⟩
    · exact .inl ⟨rfl, rfl⟩
    · exact .inr (.inl ⟨rfl, rfl, hset⟩)
    · exact .inr (.inr ⟨rfl, rfl, hsame.trans hsource⟩)

/-- Up to the release of the lock, a call has done what its steps say. -/
theorem StopCall.spec (h : StopCall cfg i s₀ s pc answer) :
    (∃ o, pc = .returned o) ∨ (StopDone s₀ s answer pc ∧ s.runtimeLock = some i) := by
  induction h with
  | enter k hn =>
    simp only [stopNext] at hn
    split at hn <;> cases hn
    exact .inr ⟨⟨rfl, rfl, rfl⟩, rfl⟩
  | @own s s' pc pc' answer k _ hn ih =>
    rcases ih with ⟨o, rfl⟩ | ⟨hdone, hlock⟩
    · cases hn
    · by_cases hrel : ∃ o, pc = .release o
      · obtain ⟨o, rfl⟩ := hrel
        cases hn
        exact .inl ⟨o, rfl⟩
      · exact .inr (hdone.own hlock hn fun o ho => hrel ⟨o, ho⟩)
  | other _ hother ih =>
    rcases ih with hret | ⟨hdone, hlock⟩
    · exact .inl hret
    · obtain ⟨hkept, hlock'⟩ := hother.kept hlock
      exact .inr ⟨hdone.of_kept hkept, hlock'⟩

/-- A stop is all or nothing exactly when the patch succeeds or there was nothing to drop. -/
theorem stop_allOrNothing_iff (cfg : StreamerConfig) (i : ℕ) (s₀ s : Companion) (o : Outcome)
    (k : CameraChoice) (h : StopCall cfg i s₀ s (.release o) (some k)) (hk : k ≠ .lost) :
    AllOrNothing s₀ s o ↔
      k = .patched ∨ (s₀.applied.streamingActive = false ∧ s₀.ptz = none) := by
  obtain ⟨o', ho'⟩ | ⟨⟨happlied, hptz, k', hk', hanswer⟩, -⟩ := h.spec
  · cases ho'
  · cases hk'
    have hflag : s.applied.streamingActive = false := by rw [happlied]; rfl
    rcases hanswer with ⟨rfl, -⟩ | ⟨rfl, rfl, hsource⟩ | ⟨rfl, rfl, hsource⟩
    · exact absurd rfl hk
    · exact iff_of_true (.inl ⟨rfl, hflag, hptz, hsource⟩) (.inl rfl)
    · constructor
      · rintro (⟨hok, -⟩ | ⟨-, hsame, hsame', -⟩)
        · cases hok
        · exact .inr ⟨hsame ▸ hflag, hsame' ▸ hptz⟩
      · rintro (hpatched | ⟨hbefore, hbefore'⟩)
        · cases hpatched
        · refine .inr ⟨fun hok => (by cases hok), ?_, ?_, hsource⟩
          · rw [hflag, hbefore]
          · rw [hptz, hbefore']

/-- In a run of the streamer, what happens while the call holds the lock is a step of the others. -/
theorem otherStep_of_step {c c' : Conf Companion StreamerThread}
    {e : Event StreamerRequest CameraChoice ChildEvent}
    (hmutex : ∀ j t, c.pool[j]? = some t → t.inside = true → c.shared.runtimeLock = some j)
    (hlock : c.shared.runtimeLock = some i) (hs : (streamer cfg).step c e = some c')
    (hcrash : e ≠ .env .crash) (hown : ∀ k, e ≠ .sched i k) :
    c'.shared = c.shared ∨ OtherStep cfg i c.shared c'.shared := by
  rcases Prog.step_cases hs with ⟨r, rfl, rfl⟩ | ⟨j, k, t, s, t', rfl, ht, hn, rfl⟩ |
      ⟨x, s, rfl, hx, rfl⟩
  · exact .inl rfl
  · have hj : j ≠ i := by
      rintro rfl
      exact hown k rfl
    refine .inr (.thread j t t' k hj ?_ hn)
    by_contra hin
    have hheld := hmutex j t ht (by simpa using hin)
    rw [hlock] at hheld
    exact hj (Option.some.inj hheld).symm
  · exact .inr (.child x (fun hx' => hcrash (by rw [hx'])) hx)

end Call

/-! ## A stop of a connected camera -/

def connectedProfile : Profile where
  sourceType := "rtsp_camera"
  ip := "192.0.2.7"
  username := "admin"
  password := "secret"
  rtspPort := .int 554
  onvifPort := .int 2020
  streamPath := "stream1"
  supported := rfl
  ip_filled := by decide
  username_filled := by decide
  password_filled := by decide

/-- Streaming is active, with the target and the source of the profile. -/
def connected : Companion where
  registered := some connectedProfile.toDict
  applied := ⟨true, some connectedProfile, [], [], fun _ => rfl⟩
  configLock := none
  runtimeLock := none
  restoring := none
  source := buildRtspUrl sampleStreamer.repr connectedProfile
  ptz := ptzTarget sampleStreamer.repr connectedProfile
  presets := []
  patrol := []
  child := .up
  spawned := 0

/-- The stop of the connected camera up to its patch. -/
theorem stop_until_patch : ∃ s, StopCall sampleStreamer 0 connected s .patch none ∧
    s.applied.streamingActive = false ∧ s.source = connected.source ∧ s.child = .up := by
  have h1 : StopCall sampleStreamer 0 connected _ .acquireConfig none := .enter .go rfl
  have h2 : StopCall sampleStreamer 0 connected _ .read none := .own .go h1 rfl
  have h3 : StopCall sampleStreamer 0 connected _ (.write connected.applied.stopped) none :=
    .own .go h2 rfl
  have h4 : StopCall sampleStreamer 0 connected _ .releaseConfig none := .own .go h3 rfl
  have h5 : StopCall sampleStreamer 0 connected _ .clear none := .own .go h4 rfl
  exact ⟨_, .own .go h5 rfl, rfl, rfl, rfl⟩

/-- A stop whose patch succeeds. -/
theorem stop_allOrNothing_iff_patched : ∃ s,
    StopCall sampleStreamer 0 connected s (.release .ok) (some .patched) ∧
      AllOrNothing connected s .ok := by
  obtain ⟨s, hcall, -, -, hup⟩ := stop_until_patch
  have hpatch : stopNext 0 s .patched .patch =
      some ({ s with source := detached }, .release .ok) := by
    simp only [stopNext, patchSource, if_pos hup]
    rfl
  have hend := StopCall.own .patched hcall hpatch
  exact ⟨_, hend, (stop_allOrNothing_iff _ _ _ _ _ _ hend (by decide)).mpr (.inl rfl)⟩

/-- The patch is refused: the answer is an error, and flag and PTZ target are gone. -/
theorem stop_refused_half_done : ∃ s,
    StopCall sampleStreamer 0 connected s (.release mediamtxApiError) (some .refused) ∧
      s.applied.streamingActive = false ∧ s.source = connected.source ∧
      ¬ AllOrNothing connected s mediamtxApiError := by
  obtain ⟨s, hcall, hflag, hsource, -⟩ := stop_until_patch
  refine ⟨s, .own .refused hcall rfl, hflag, hsource, ?_⟩
  rintro (⟨hok, -⟩ | ⟨-, hsame, -⟩)
  · exact absurd hok (by decide)
  · rw [hflag] at hsame
    cases hsame

end Babycat.Streamer
