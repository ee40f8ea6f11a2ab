/-
  Babycat.Router.EpochGuard

  The epoch guard of relayed streams (`_epoch_guarded`, and the loop of
  `relay_stream` with `stop_when`, FR-047).

  Both are generators: the response asks them for the next chunk or closes them,
  and they ask the inner source.  A script is what happens to one generator, with
  what the source gives each time it is asked; a trace is what the generator does:
  epoch checks, yields, and the closing of the source.  A chunk is given at the
  time at which the loop reads the clock for it.  The history of the account epoch
  is `currentEpoch`, which also says when its query raises.
-/

import Mathlib.Data.Rat.Defs
import Mathlib.Data.List.Basic
import Mathlib.Algebra.Order.Ring.Rat
import Mathlib.Tactic.Linarith

namespace Babycat.Router

-- ============================================================================
-- Generators
-- ============================================================================

/-- What the inner source gives when it is asked for a chunk. -/
inductive Pull (α : Type)
  | chunk (now : ℚ) (data : α)
  | stop
  | raise

/-- What the response does with the generator. -/
inductive Resume (α : Type)
  | next (pull : Pull α)
  | close

/-- Where a generator stands between two of these. -/
inductive Generator
  | fresh
  | suspended (lastCheck : ℚ)
  | finished

inductive StreamEvent (α : Type)
  | checked (now : ℚ)
  | yielded (now : ℚ) (data : α)
  | closed
  deriving DecidableEq

section Scripts

variable {α : Type}

def Resume.chunk? : Resume α → Option (ℚ × α)
  | .next (.chunk now data) => some (now, data)
  | _ => none

/-- The chunks of the source with their arrival times. -/
def chunks (script : List (Resume α)) : List (ℚ × α) := script.filterMap Resume.chunk?

def arrivals (script : List (Resume α)) : List ℚ := (chunks script).map Prod.fst

def StreamEvent.yield? : StreamEvent α → Option (ℚ × α)
  | .yielded now data => some (now, data)
  | _ => none

def StreamEvent.isClosed : StreamEvent α → Bool
  | .closed => true
  | _ => false

def yields (trace : List (StreamEvent α)) : List (ℚ × α) := trace.filterMap StreamEvent.yield?

/-- How often the source is closed. -/
def closings (trace : List (StreamEvent α)) : ℕ := trace.countP StreamEvent.isClosed

/-- The trace of a generator along a script. -/
def streamRun (step : Generator → Resume α → Generator × List (StreamEvent α)) :
    Generator → List (Resume α) → List (StreamEvent α)
  | _, [] => []
  | g, r :: rest => (step g r).2 ++ streamRun step (step g r).1 rest

end Scripts

-- ============================================================================
-- The two loops
-- ============================================================================

section Loops

variable {α β ε : Type}

/-- A generator whose loop body is given: the clock is read when the body starts, and the source
    is closed in its `finally`. -/
def generatorStep (body : ℚ → Pull α → Generator × List (StreamEvent α)) (start : ℚ) :
    Generator → Resume α → Generator × List (StreamEvent α)
  | .fresh, .next pull => body start pull
  | .fresh, .close => (.finished, [])
  | .suspended lastCheck, .next pull => body lastCheck pull
  | .suspended _, .close => (.finished, [.closed])
  | .finished, _ => (.finished, [])

/-- An iteration of `_epoch_guarded`. -/
def guardedBody (currentEpoch : ℚ → Except ε (Option ℤ)) (epoch : ℤ) (interval lastCheck : ℚ) :
    Pull α → Generator × List (StreamEvent α)
  | .chunk now data =>
      if interval ≤ now - lastCheck then
        match currentEpoch now with
        | .ok found =>
            if found ≠ some epoch then (.finished, [.checked now, .closed])
            else (.suspended now, [.checked now, .yielded now data])
        | .error _ => (.finished, [.checked now, .closed])
      else (.suspended lastCheck, [.yielded now data])
  | .stop | .raise => (.finished, [.closed])

/-- `_epoch_guarded` -/
def epochGuarded (currentEpoch : ℚ → Except ε (Option ℤ)) (epoch : ℤ) (interval start : ℚ) :
    Generator → Resume α → Generator × List (StreamEvent α) :=
  generatorStep (guardedBody currentEpoch epoch interval) start

/-- An iteration of `iterate` in `relay_stream`; the source is read with `read1`. -/
def relayBody (stopWhen : Option (ℚ → Except ε Bool)) (stopCheckInterval lastCheck : ℚ) :
    Pull (List β) → Generator × List (StreamEvent (List β))
  | .chunk now chunk =>
      if chunk.isEmpty then (.finished, [.closed])
      else
        match stopWhen with
        | none => (.suspended lastCheck, [.yielded now chunk])
        | some stop =>
            if stopCheckInterval ≤ now - lastCheck then
              match stop now with
              | .ok true => (.finished, [.checked now, .closed])
              | .ok false => (.suspended now, [.checked now, .yielded now chunk])
              | .error _ => (.finished, [.checked now, .closed])
            else (.suspended lastCheck, [.yielded now chunk])
  | .stop | .raise => (.finished, [.closed])

/-- `relay_stream` -/
def relayStream (stopWhen : Option (ℚ → Except ε Bool)) (stopCheckInterval start : ℚ) :
    Generator → Resume (List β) → Generator × List (StreamEvent (List β)) :=
  generatorStep (relayBody stopWhen stopCheckInterval) start

/-- The `stop_when` of `frame_stream`. -/
def epochDiffers (currentEpoch : ℚ → Except ε (Option ℤ)) (epoch : ℤ) : ℚ → Except ε Bool :=
  fun now => (currentEpoch now).map fun found => decide (found ≠ some epoch)

end Loops

-- ============================================================================
-- The traces of a guarded generator
-- ============================================================================

section Guarded

variable {α ε : Type} {currentEpoch : ℚ → Except ε (Option ℤ)} {epoch : ℤ}
variable {interval start : ℚ} {script : List (Resume α)} {trace : List (StreamEvent α)}

/-- The rest of a trace after a last check. -/
inductive Traced (currentEpoch : ℚ → Except ε (Option ℤ)) (epoch : ℤ) (interval : ℚ) :
    ℚ → List (Resume α) → List (StreamEvent α) → Prop
  | nil {lastCheck} : Traced currentEpoch epoch interval lastCheck [] []
  | recent {lastCheck now data rest trace} : now < lastCheck + interval →
      Traced currentEpoch epoch interval lastCheck rest trace →
      Traced currentEpoch epoch interval lastCheck (.next (.chunk now data) :: rest)
        (.yielded now data :: trace)
  | passed {lastCheck now data rest trace} : currentEpoch now = .ok (some epoch) →
      Traced currentEpoch epoch interval now rest trace →
      Traced currentEpoch epoch interval lastCheck (.next (.chunk now data) :: rest)
        (.checked now :: .yielded now data :: trace)
  | failed {lastCheck now data rest} : currentEpoch now ≠ .ok (some epoch) →
      Traced currentEpoch epoch interval lastCheck (.next (.chunk now data) :: rest)
        [.checked now, .closed]
  | ended {lastCheck r rest} : Resume.chunk? r = none →
      Traced currentEpoch epoch interval lastCheck (r :: rest) [.closed]

variable {lastCheck now : ℚ} {data : α}

theorem guardedBody_recent (h : now < lastCheck + interval) :
    guardedBody currentEpoch epoch interval lastCheck (.chunk now data) =
      (.suspended lastCheck, [.yielded now data]) := by
  rw [guardedBody, if_neg (by linarith)]

theorem guardedBody_passed (h : lastCheck + interval ≤ now)
    (hepoch : currentEpoch now = .ok (some epoch)) :
    guardedBody currentEpoch epoch interval lastCheck (.chunk now data) =
      (.suspended now, [.checked now, .yielded now data]) := by
  rw [guardedBody, if_pos (by linarith), hepoch]
  exact if_neg (fun hne => hne rfl)

/-- Another epoch ends the relay, and so does a query that raises. -/
theorem guardedBody_failed (h : lastCheck + interval ≤ now)
    (hepoch : currentEpoch now ≠ .ok (some epoch)) :
    guardedBody currentEpoch epoch interval lastCheck (.chunk now data) =
      (.finished, [.checked now, .closed]) := by
  rw [guardedBody, if_pos (by linarith)]
  cases hread : currentEpoch now with
  | error e => rfl
  | ok found => exact if_pos fun heq => hepoch (by rw [hread, heq])

/-- A generator that is over does nothing. -/
theorem streamRun_finished {body : ℚ → Pull α → Generator × List (StreamEvent α)} :
    streamRun (generatorStep body start) .finished script = [] := by
  induction script with
  | nil => rfl
  | cons r rest ih => exact ih

/-- A generator that is started reads the clock first. -/
theorem streamRun_fresh {body : ℚ → Pull α → Generator × List (StreamEvent α)} :
    streamRun (generatorStep body start) .fresh script = [] ∨
    streamRun (generatorStep body start) .fresh script =
      streamRun (generatorStep body start) (.suspended start) script := by
  cases script with
  | nil => exact .inl rfl
  | cons r rest =>
    cases r with
    | next pull => exact .inr rfl
    | close => exact .inl streamRun_finished

theorem epochGuarded_traced :
    Traced currentEpoch epoch interval lastCheck script
      (streamRun (epochGuarded currentEpoch epoch interval start) (.suspended lastCheck) script) := by
  induction script generalizing lastCheck with
  | nil => exact .nil
  | cons r rest ih =>
    cases r with
    | close =>
      rw [streamRun, epochGuarded, generatorStep, streamRun_finished, List.append_nil]
      exact .ended rfl
    | next pull =>
      rw [streamRun, epochGuarded, generatorStep]
      cases pull with
      | stop | raise =>
        rw [guardedBody, streamRun_finished, List.append_nil]
        exact .ended rfl
      | chunk now data =>
        by_cases hrecent : now < lastCheck + interval
        · rw [guardedBody_recent hrecent]
          exact .recent hrecent ih
        · by_cases hepoch : currentEpoch now = .ok (some epoch)
          · rw [guardedBody_passed (not_lt.mp hrecent) hepoch]
            exact .passed hepoch ih
          · rw [guardedBody_failed (not_lt.mp hrecent) hepoch, streamRun_finished, List.append_nil]
            exact .failed hepoch

/-! ## What holds of every trace -/

theorem Traced.inOrder (h : Traced currentEpoch epoch interval lastCheck script trace) :
    yields trace <+: chunks script := by
  induction h with
  | nil | failed | ended => exact List.nil_prefix
  | recent _ _ ih => exact (List.prefix_cons_inj _).mpr ih
  | passed _ _ ih => exact (List.prefix_cons_inj _).mpr ih

theorem Traced.closings_le (h : Traced currentEpoch epoch interval lastCheck script trace) :
    closings trace ≤ 1 := by
  induction h with
  | nil => exact Nat.zero_le _
  | failed | ended => exact le_refl _
  | recent _ _ ih => exact ih
  | passed _ _ ih => exact ih

/-- After a failed check the source is closed and nothing else happens. -/
theorem Traced.after_failed (h : Traced currentEpoch epoch interval lastCheck script trace)
    {pre post : List (StreamEvent α)} {c : ℚ} (heq : trace = pre ++ .checked c :: post)
    (hepoch : currentEpoch c ≠ .ok (some epoch)) : post = [.closed] := by
  induction h generalizing pre with
  | nil => cases pre <;> cases heq
  | recent _ _ ih =>
    cases pre with
    | nil => cases heq
    | cons e pre => exact ih (List.cons.inj heq).2
  | passed hpassed _ ih =>
    cases pre with
    | nil =>
      cases heq
      exact absurd hpassed hepoch
    | cons e pre =>
      cases pre with
      | nil => cases heq
      | cons e' pre => exact ih (List.cons.inj (List.cons.inj heq).2).2
  | failed _ =>
    cases pre with
    | nil =>
      cases heq
      rfl
    | cons e pre =>
      cases pre with
      | nil => cases heq
      | cons e' pre => cases pre <;> cases heq
  | ended _ =>
    cases pre with
    | nil => cases heq
    | cons e pre => cases pre <;> cases heq

/-- A check that found the epoch of the session speaks for a chunk at `t`. -/
structure Vouches (currentEpoch : ℚ → Except ε (Option ℤ)) (epoch : ℤ) (interval c t : ℚ) :
    Prop where
  epochAt : currentEpoch c = .ok (some epoch)
  before : c ≤ t
  recent : t < c + interval ∨ c = t

/-- The chunk is vouched for by a check of the trace, or by the time of the last one before. -/
theorem Traced.vouched (h : Traced currentEpoch epoch interval lastCheck script trace)
    (horder : (lastCheck :: arrivals script).Pairwise (· ≤ ·))
    {pre post : List (StreamEvent α)} {t : ℚ} {d : α} (heq : trace = pre ++ .yielded t d :: post) :
    (lastCheck ≤ t ∧ t < lastCheck + interval) ∨
    ∃ c, .checked c ∈ pre ∧ Vouches currentEpoch epoch interval c t := by
  induction h generalizing pre with
  | nil => cases pre <;> cases heq
  | @recent lastCheck now data rest trace hrecent _ ih =>
    obtain ⟨hlast, htail⟩ := List.pairwise_cons.mp horder
    have hnow : lastCheck ≤ now := hlast now List.mem_cons_self
    cases pre with
    | nil =>
      cases heq
      exact .inl ⟨hnow, hrecent⟩
    | cons e pre =>
      have hskip : (lastCheck :: arrivals rest).Pairwise (· ≤ ·) :=
        List.pairwise_cons.mpr ⟨fun u hu => hlast u (List.mem_cons_of_mem _ hu),
          (List.pairwise_cons.mp htail).2⟩
      rcases ih hskip (List.cons.inj heq).2 with hin | ⟨c, hc, hv⟩
      · exact .inl hin
      · exact .inr ⟨c, List.mem_cons_of_mem _ hc, hv⟩
  | @passed lastCheck now data rest trace hpassed _ ih =>
    obtain ⟨-, htail⟩ := List.pairwise_cons.mp horder
    right
    cases pre with
    | nil => cases heq
    | cons e pre =>
      have heq := List.cons.inj heq
      rw [← heq.1]
      replace heq : _ = pre ++ _ := heq.2
      cases pre with
      | nil =>
        cases heq
        exact ⟨_, List.mem_cons_self, hpassed, le_refl _, .inr rfl⟩
      | cons e' pre =>
        rcases ih htail (List.cons.inj heq).2 with ⟨hle, hlt⟩ | ⟨c, hc, hv⟩
        · exact ⟨now, List.mem_cons_self, hpassed, hle, .inl hlt⟩
        · exact ⟨c, List.mem_cons_of_mem _ (List.mem_cons_of_mem _ hc), hv⟩
  | failed _ =>
    cases pre with
    | nil => cases heq
    | cons e pre =>
      cases pre with
      | nil => cases heq
      | cons e' pre => cases pre <;> cases heq
  | ended _ =>
    cases pre with
    | nil => cases heq
    | cons e pre => cases pre <;> cases heq

end Guarded

-- ============================================================================
-- The two relays
-- ============================================================================

section Relays

variable {β ε : Type} {currentEpoch : ℚ → Except ε (Option ℤ)} {epoch : ℤ}
variable {interval start : ℚ}

/-- An empty read is the end of the source. -/
def Pull.untilEmpty : Pull (List β) → Pull (List β)
  | .chunk now data => if data.isEmpty then .stop else .chunk now data
  | .stop => .stop
  | .raise => .raise

def Resume.untilEmpty : Resume (List β) → Resume (List β)
  | .next pull => .next pull.untilEmpty
  | .close => .close

/-- The two loop bodies decide alike. -/
theorem relayBody_guarded (lastCheck : ℚ) (pull : Pull (List β)) :
    relayBody (some (epochDiffers currentEpoch epoch)) interval lastCheck pull =
      guardedBody currentEpoch epoch interval lastCheck pull.untilEmpty := by
  cases pull with
  | stop | raise => rfl
  | chunk now data =>
    by_cases hempty : data.isEmpty = true
    · simp only [relayBody, Pull.untilEmpty, if_pos hempty, guardedBody]
    · simp only [relayBody, Pull.untilEmpty, if_neg hempty, guardedBody, epochDiffers]
      split
      · cases currentEpoch now with
        | error e => rfl
        | ok found =>
          by_cases hsame : found = some epoch
          · simp [Except.map, hsame]
          · simp [Except.map, hsame]
      · rfl

/-- `relay_stream` with the `stop_when` of `frame_stream` does what `_epoch_guarded` does on the
    chunks up to the first empty read. -/
theorem relayStream_guarded (g : Generator) (script : List (Resume (List β))) :
    streamRun (relayStream (some (epochDiffers currentEpoch epoch)) interval start) g script =
      streamRun (epochGuarded currentEpoch epoch interval start) g
        (script.map Resume.untilEmpty) := by
  induction script generalizing g with
  | nil => rfl
  | cons r rest ih =>
    have hstep : relayStream (some (epochDiffers currentEpoch epoch)) interval start g r =
        epochGuarded currentEpoch epoch interval start g r.untilEmpty := by
      cases g with
      | finished => rfl
      | fresh | suspended lastCheck =>
        cases r with
        | close => rfl
        | next pull => exact relayBody_guarded _ pull
    rw [List.map_cons, streamRun, streamRun, hstep, ih]

end Relays

/-- What FR-047 asks of a relayed stream, for the trace of a generator started at `start`.  The
    account epoch has changed at `changed` and is not the session's from then on. -/
structure Guards {α ε : Type} (currentEpoch : ℚ → Except ε (Option ℤ)) (epoch : ℤ)
    (interval start : ℚ) (script : List (Resume α)) (trace : List (StreamEvent α)) : Prop where
  inOrder : yields trace <+: chunks script
  vouched : ∀ pre post t d, trace = pre ++ .yielded t d :: post →
    t < start + interval ∨ ∃ c, .checked c ∈ pre ∧ Vouches currentEpoch epoch interval c t
  notStale : ∀ changed t d, changed ≤ t → changed + interval ≤ t → start + interval ≤ t →
    (∀ c, changed ≤ c → c ≤ t → currentEpoch c ≠ .ok (some epoch)) → .yielded t d ∉ trace
  afterFailed : ∀ pre post c, trace = pre ++ .checked c :: post →
    currentEpoch c ≠ .ok (some epoch) → post = [.closed] ∧ closings trace = 1
  closedOnce : closings trace ≤ 1

section Result

variable {α ε : Type} {currentEpoch : ℚ → Except ε (Option ℤ)} {epoch : ℤ}
variable {interval start : ℚ} {script : List (Resume α)} {trace : List (StreamEvent α)}

theorem Guards.nil : Guards currentEpoch epoch interval start script [] where
  inOrder := List.nil_prefix
  vouched pre post t d heq := by cases pre <;> cases heq
  notStale _ _ _ _ _ _ _ hm := absurd hm List.not_mem_nil
  afterFailed pre post c heq := by cases pre <;> cases heq
  closedOnce := Nat.zero_le _

theorem Traced.guards (h : Traced currentEpoch epoch interval start script trace)
    (horder : (start :: arrivals script).Pairwise (· ≤ ·)) :
    Guards currentEpoch epoch interval start script trace := by
  have hvouched : ∀ pre post t d, trace = pre ++ .yielded t d :: post →
      t < start + interval ∨ ∃ c, .checked c ∈ pre ∧ Vouches currentEpoch epoch interval c t :=
    fun pre post t d heq => (h.vouched horder heq).imp_left And.right
  refine ⟨h.inOrder, hvouched, ?_, ?_, h.closings_le⟩
  · intro changed t d hle hchanged hstart hother hm
    obtain ⟨pre, post, heq⟩ := List.append_of_mem hm
    rcases hvouched pre post t d heq with hlt | ⟨c, -, hv⟩
    · exact absurd hlt (not_lt.mpr hstart)
    · -- the check is later than the change
      have hc : changed ≤ c := by
        rcases hv.recent with hlt | rfl
        · linarith
        · exact hle
      exact hother c hc hv.before hv.epochAt
  · intro pre post c heq hepoch
    have hpost := h.after_failed heq hepoch
    refine ⟨hpost, le_antisymm h.closings_le ?_⟩
    rw [heq, hpost, closings, List.countP_append]
    exact Nat.le_add_left 1 _

theorem epochGuarded_guards (horder : (start :: arrivals script).Pairwise (· ≤ ·)) :
    Guards currentEpoch epoch interval start script
      (streamRun (epochGuarded currentEpoch epoch interval start) .fresh script) := by
  rcases @streamRun_fresh α start script (guardedBody currentEpoch epoch interval) with heq | heq
  · rw [epochGuarded, heq]
    exact .nil
  · rw [epochGuarded, heq]
    exact epochGuarded_traced.guards horder

end Result

/-- The epoch guard of a relayed stream: whatever the source, the response and the account do, a
    guarded generator keeps FR-047, and the loop of `relay_stream` does what it does. -/
theorem epoch_guard {β ε : Type} (currentEpoch : ℚ → Except ε (Option ℤ)) (epoch : ℤ)
    (interval start : ℚ) :
    (∀ (α : Type) (script : List (Resume α)), (start :: arrivals script).Pairwise (· ≤ ·) →
      Guards currentEpoch epoch interval start script
        (streamRun (epochGuarded currentEpoch epoch interval start) .fresh script)) ∧
    ∀ reads : List (Resume (List β)),
      streamRun (relayStream (some (epochDiffers currentEpoch epoch)) interval start) .fresh reads =
        streamRun (epochGuarded currentEpoch epoch interval start) .fresh
          (reads.map Resume.untilEmpty) :=
  ⟨fun _ _ horder => epochGuarded_guards horder, fun reads => relayStream_guarded _ reads⟩

/-- The account epoch goes from 1 to 2 at time 3. -/
def sampleEpoch (now : ℚ) : Except Unit (Option ℤ) := .ok (some (if now < 3 then 1 else 2))

def sampleScript : List (Resume (List ℕ)) :=
  [.next (.chunk 1 [1]), .next (.chunk 2 [2]), .next (.chunk 3 [3]), .next (.chunk 4 [4]),
    .next (.chunk 5 [5])]

theorem epoch_guard_sample :
    streamRun (epochGuarded sampleEpoch 1 2 0) .fresh sampleScript =
      [.yielded 1 [1], .checked 2, .yielded 2 [2], .yielded 3 [3], .checked 4, .closed] ∧
    yields (streamRun (epochGuarded sampleEpoch 1 2 0) .fresh sampleScript) <+:
      chunks sampleScript := by
  refine ⟨by with_unfolding_all decide,
    ((@epoch_guard ℕ Unit sampleEpoch 1 2 0).1 _ sampleScript ?_).inOrder⟩
  decide

end Babycat.Router
