/-
  Babycat.Router.FanOut

  The requests that reach several components: `/streaming/start`,
  `/streaming/stop`, `/analysis/start` and `/analysis/stop` (`main.py`).

  `_fan_out` posts to its targets in parallel, so the legs of one request are
  delivered in any order and between the legs of other requests.  A delivered
  leg sets the flag of its component: `streaming_active` of the streamer,
  `analysis_active` of the analyzer, `buffer_active` of the recorder.  Every
  component keeps its own order of deliveries; nothing relates the orders of two
  components, and `flags_agree` says that this is all that can set them apart.
-/

import Babycat.Conc.Pool
import Mathlib.Data.List.Basic

namespace Babycat.Router.FanOut

open Babycat.Conc

inductive Component
  | streamer
  | analyzer
  | recorder
  deriving DecidableEq

def Component.name : Component → String
  | .streamer => "streamer"
  | .analyzer => "analyzer"
  | .recorder => "recorder"

/-- One target of a request: the component and what its endpoint sets the flag to. -/
@[ext]
structure Leg where
  component : Component
  active : Bool
  deriving DecidableEq

/-- How a call to a component ends for the router: an error status may come back, or stand
    for a transport error, whether or not the component has set its flag. -/
inductive Reply
  | accepted
  | failed (reached : Bool) (status : ℕ)
  deriving DecidableEq

inductive Response
  | ok (accepted : List (String × ℕ))
  | relayed (status : ℕ)
  | error (status : ℕ) (detail : String)
  deriving DecidableEq

inductive Request
  | streamingStart
  | streamingStop
  | analysisStart
  | analysisStop
  deriving DecidableEq

/-- The flags of the components; `log` keeps the deliveries of each, newest first, with the
    request they came from. -/
structure Shared where
  active : Component → Bool
  log : Component → List (ℕ × Bool)

/-- A request under way; a leg carries its status code once it is done. -/
inductive Thread
  | relay
  | check
  | sending (what : String) (legs : List (Leg × Option ℕ))
  | finished (r : Response)
  deriving DecidableEq

def pending (legs : List Leg) : List (Leg × Option ℕ) := legs.map fun leg => (leg, none)

def startLegs : List Leg := [⟨.analyzer, true⟩, ⟨.recorder, true⟩]

def stopLegs : List Leg := [⟨.analyzer, false⟩, ⟨.recorder, false⟩]

def enter : Request → Thread
  | .streamingStart => .relay
  | .streamingStop => .sending "stop" (pending (⟨.streamer, false⟩ :: stopLegs))
  | .analysisStart => .check
  | .analysisStop => .sending "stop" (pending stopLegs)

/-- The component handles a leg of request `i`. -/
def Shared.deliver (s : Shared) (i : ℕ) (leg : Leg) : Shared where
  active := Function.update s.active leg.component leg.active
  log := Function.update s.log leg.component ((i, leg.active) :: s.log leg.component)

/-- The response of a fan-out whose legs are all done. -/
def aggregate (what : String) (legs : List (Leg × Option ℕ)) : Response :=
  let results := legs.map fun leg => (leg.1.component.name, leg.2.getD 502)
  let failures := (results.filter fun r => decide (400 ≤ r.2)).map Prod.fst
  if failures = [] then .ok results
  else .error 502 (what ++ " not accepted by: " ++ String.intercalate ", " failures)

/-- One step of a request; `k` picks the leg that moves, `reply` how its call ends. -/
def next (i : ℕ) (s : Shared) : Thread → ℕ × Reply → Option (Shared × Thread)
  | .relay, (_, .accepted) => some (s.deliver i ⟨.streamer, true⟩, .finished (.relayed 200))
  | .relay, (_, .failed reached status) =>
      if status < 400 then none
      else some (if reached then s.deliver i ⟨.streamer, true⟩ else s, .finished (.relayed status))
  | .check, (_, .failed _ _) => some (s, .finished (.error 502 "cannot verify streaming state"))
  | .check, (_, .accepted) =>
      if s.active .streamer then some (s, .sending "start" (pending startLegs))
      else some (s, .finished (.error 409 "live streaming is not active"))
  | .sending what legs, (k, reply) =>
      match legs[k]?, reply with
      | some (leg, none), .accepted =>
          some (s.deliver i leg, .sending what (legs.set k (leg, some 200)))
      | some (leg, none), .failed reached status =>
          if status < 400 then none
          else some (if reached then s.deliver i leg else s,
            .sending what (legs.set k (leg, some status)))
      | some (_, some _), _ => none
      | none, _ =>
          if legs.all fun leg => leg.2.isSome then some (s, .finished (aggregate what legs))
          else none
  | .finished _, _ => none

/-- The router's fan-out; the components change their flags on delivery only. -/
def fanOut : Prog Shared Thread Request (ℕ × Reply) PEmpty where
  enter := enter
  next := next
  env _ e := nomatch e

/-- No request yet; the analyzer and the recorder agree. -/
def boot (streaming analysis : Bool) : Conf Shared Thread where
  shared :=
    { active := fun x => match x with
        | .streamer => streaming
        | _ => analysis
      log := fun _ => [] }
  pool := []

/-- Every call succeeds. -/
def allAccepted (_ : Conf Shared Thread) : Event Request (ℕ × Reply) PEmpty → Bool
  | .sched _ (_, reply) => decide (reply = .accepted)
  | _ => true

def AllAccepted (c : Conf Shared Thread) (e : Event Request (ℕ × Reply) PEmpty) : Prop :=
  allAccepted c e = true

instance (c : Conf Shared Thread) (e : Event Request (ℕ × Reply) PEmpty) :
    Decidable (AllAccepted c e) := inferInstanceAs (Decidable (_ = true))

def Thread.isFinished : Thread → Bool
  | .finished _ => true
  | _ => false

/-- No request is in flight. -/
def Quiescent (c : Conf Shared Thread) : Prop := ∀ t ∈ c.pool, t.isFinished = true

/-- The request whose start (`v`), or whose stop, the component handled last. -/
def Shared.last (s : Shared) (x : Component) (v : Bool) : Option ℕ :=
  ((s.log x).find? fun d => d.2 == v).map Prod.fst

/-- Of a start and a stop that are the last ones of a component, the analyzer and the recorder
    handled the same one later. -/
def SameOrder (s : Shared) : Prop :=
  ∀ i j, (s.last .analyzer true = some i ∨ s.last .recorder true = some i) →
    (s.last .analyzer false = some j ∨ s.last .recorder false = some j) →
    ((s.log .analyzer).idxOf (i, true) < (s.log .analyzer).idxOf (j, false) ↔
      (s.log .recorder).idxOf (i, true) < (s.log .recorder).idxOf (j, false))

/-! ## What the deliveries of a request are -/

/-- What the logs hold of request `i`: every leg that is done, once, and nothing else. -/
def Delivered (i : ℕ) (s : Shared) : Thread → Prop
  | .relay | .check => ∀ v, (i, v) ∉ s.log .analyzer ∧ (i, v) ∉ s.log .recorder
  | .sending _ legs =>
      (∀ x v, x ≠ .streamer →
        ((i, v) ∈ s.log x ↔ ∃ status, ((⟨x, v⟩ : Leg), some status) ∈ legs)) ∧
      (∀ v, (∃ st, ((⟨.analyzer, v⟩ : Leg), st) ∈ legs) ↔
        ∃ st, ((⟨.recorder, v⟩ : Leg), st) ∈ legs)
  | .finished _ => ∀ v, (i, v) ∈ s.log .analyzer ↔ (i, v) ∈ s.log .recorder

/-- What holds in every state of a run in which every call succeeds. -/
structure FanOutInv (start : Bool) (c : Conf Shared Thread) : Prop where
  latest : ∀ x, x ≠ .streamer →
    c.shared.active x = ((c.shared.log x).head?.map Prod.snd).getD start
  entered : ∀ x i v, (i, v) ∈ c.shared.log x → i < c.pool.length
  threads : ∀ (i : ℕ) t, c.pool[i]? = some t → Delivered i c.shared t

section Step

variable {s : Shared} {i j : ℕ} {leg : Leg} {x : Component} {v : Bool}

theorem mem_log_deliver :
    (j, v) ∈ (s.deliver i leg).log x ↔
      (x = leg.component ∧ j = i ∧ v = leg.active) ∨ (j, v) ∈ s.log x := by
  simp only [Shared.deliver]
  by_cases hx : x = leg.component
  · subst hx
    simp
  · simp [hx]

theorem latest_deliver {start : Bool}
    (h : s.active x = ((s.log x).head?.map Prod.snd).getD start) :
    (s.deliver i leg).active x = (((s.deliver i leg).log x).head?.map Prod.snd).getD start := by
  simp only [Shared.deliver]
  by_cases hx : x = leg.component
  · subst hx
    simp
  · simpa [Function.update_of_ne hx] using h

/-- The deliveries of other requests do not concern request `j`. -/
theorem Delivered.of_deliver {t : Thread} (hij : j ≠ i) (h : Delivered j s t) :
    Delivered j (s.deliver i leg) t := by
  have hmem : ∀ x v, (j, v) ∈ (s.deliver i leg).log x ↔ (j, v) ∈ s.log x := by
    intro x v
    rw [mem_log_deliver]
    simp [hij]
  cases t with
  | relay | check => exact fun v => ⟨by rw [hmem]; exact (h v).1, by rw [hmem]; exact (h v).2⟩
  | sending what legs => exact ⟨fun x v hx => (hmem x v).trans (h.1 x v hx), h.2⟩
  | finished r => exact fun v => (hmem _ v).trans ((h v).trans (hmem _ v).symm)

variable {legs : List (Leg × Option ℕ)} {k n st : ℕ} {l : Leg}

/-- The legs that are done after one more of them is. -/
theorem mem_set_done (h : legs[k]? = some (leg, none)) :
    (l, some st) ∈ legs.set k (leg, some n) ↔ (l = leg ∧ st = n) ∨ (l, some st) ∈ legs := by
  simp only [List.mem_iff_getElem?, getElem?_set_of_get h]
  constructor
  · rintro ⟨j, hj⟩
    by_cases hkj : k = j
    · left; simpa [hkj, eq_comm] using hj
    · right; exact ⟨j, by simpa [hkj] using hj⟩
  · rintro (⟨rfl, rfl⟩ | ⟨j, hj⟩)
    · exact ⟨k, by simp⟩
    · refine ⟨j, ?_⟩
      by_cases hkj : k = j
      · subst hkj; rw [h] at hj; cases hj
      · simpa [hkj] using hj

/-- Which legs there are does not change. -/
theorem exists_mem_set_leg (h : legs[k]? = some (leg, none)) :
    (∃ st, (l, st) ∈ legs.set k (leg, some n)) ↔ ∃ st, (l, st) ∈ legs := by
  simp only [List.mem_iff_getElem?, getElem?_set_of_get h]
  constructor
  · rintro ⟨st, j, hj⟩
    by_cases hkj : k = j
    · obtain ⟨rfl, -⟩ : leg = l ∧ some n = st := by simpa [hkj] using hj
      exact ⟨none, k, h⟩
    · exact ⟨st, j, by simpa [hkj] using hj⟩
  · rintro ⟨st, j, hj⟩
    by_cases hkj : k = j
    · subst hkj
      obtain ⟨rfl, -⟩ : leg = l ∧ none = st := by simpa [h] using hj
      exact ⟨some n, k, by simp⟩
    · exact ⟨st, j, by simpa [hkj] using hj⟩

/-- One more leg of the request is delivered. -/
theorem Delivered.sending {what : String} (hk : legs[k]? = some (leg, none))
    (h : Delivered i s (.sending what legs)) :
    Delivered i (s.deliver i leg) (.sending what (legs.set k (leg, some n))) := by
  refine ⟨fun x v hx => ?_, fun v => ?_⟩
  · rw [mem_log_deliver, h.1 x v hx]
    simp only [mem_set_done hk, Leg.ext_iff]
    constructor
    · rintro (⟨rfl, -, rfl⟩ | ⟨st, hst⟩)
      · exact ⟨n, .inl ⟨⟨rfl, rfl⟩, rfl⟩⟩
      · exact ⟨st, .inr hst⟩
    · rintro ⟨st, ⟨⟨rfl, rfl⟩, -⟩ | hst⟩
      · exact .inl ⟨rfl, trivial, rfl⟩
      · exact .inr ⟨st, hst⟩
  · rw [exists_mem_set_leg hk, exists_mem_set_leg hk]
    exact h.2 v

/-- A request whose legs are all done has reached both components or neither. -/
theorem Delivered.finish {what : String} {r : Response}
    (hall : (legs.all fun leg => leg.2.isSome) = true) (h : Delivered i s (.sending what legs)) :
    Delivered i s (.finished r) := by
  have hdone : ∀ l : Leg, (∃ status, (l, some status) ∈ legs) ↔ ∃ st, (l, st) ∈ legs := by
    intro l
    constructor
    · rintro ⟨status, hs⟩; exact ⟨some status, hs⟩
    · rintro ⟨st, hs⟩
      have hsome := List.all_eq_true.mp hall _ hs
      obtain ⟨status, hst⟩ := Option.isSome_iff_exists.mp hsome
      simp only at hst
      exact ⟨status, hst ▸ hs⟩
  intro v
  rw [h.1 .analyzer v (by decide), h.1 .recorder v (by decide), hdone, hdone]
  exact h.2 v

/-- A request that has just got its legs. -/
theorem Delivered.pending {what : String} {legs : List Leg}
    (hnone : ∀ v, (i, v) ∉ s.log .analyzer ∧ (i, v) ∉ s.log .recorder)
    (hpair : ∀ v, (⟨.analyzer, v⟩ : Leg) ∈ legs ↔ (⟨.recorder, v⟩ : Leg) ∈ legs) :
    Delivered i s (.sending what (pending legs)) := by
  refine ⟨fun x v hx => ?_, fun v => ?_⟩
  · have hlog : (i, v) ∉ s.log x := by
      cases x with
      | streamer => exact absurd rfl hx
      | analyzer => exact (hnone v).1
      | recorder => exact (hnone v).2
    simp [hlog, FanOut.pending]
  · simpa [FanOut.pending] using hpair v

theorem delivered_enter (r : Request)
    (hnone : ∀ v, (i, v) ∉ s.log .analyzer ∧ (i, v) ∉ s.log .recorder) :
    Delivered i s (enter r) := by
  cases r with
  | streamingStart | analysisStart => exact hnone
  | streamingStop | analysisStop =>
      exact Delivered.pending hnone fun v => by simp [stopLegs]

/-- A step of request `i` whose call succeeds delivers one leg of it or nothing. -/
theorem next_accepted {t t' : Thread} {s' : Shared}
    (hn : next i s t (k, .accepted) = some (s', t')) (h : Delivered i s t) :
    (s' = s ∨ ∃ leg, s' = s.deliver i leg) ∧ Delivered i s' t' := by
  cases t with
  | relay =>
      cases hn
      refine ⟨.inr ⟨_, rfl⟩, fun v => ?_⟩
      simp only [mem_log_deliver]
      simp [h v]
  | check =>
      simp only [next] at hn
      split at hn
      · cases hn
        exact ⟨.inl rfl, Delivered.pending h fun v => by simp [startLegs]⟩
      · cases hn
        exact ⟨.inl rfl, fun v => by simp [h v]⟩
  | sending what legs =>
      simp only [next] at hn
      split at hn
      · rename_i leg hk _
        cases hn
        exact ⟨.inr ⟨leg, rfl⟩, h.sending hk⟩
      · rename_i heq
        cases heq
      · cases hn
      · split at hn
        · rename_i hall
          cases hn
          exact ⟨.inl rfl, h.finish hall⟩
        · cases hn
  | finished r => cases hn

end Step

/-- Every step whose call succeeds keeps the invariant. -/
theorem fanOutInv_step {start : Bool} {c c' : Conf Shared Thread}
    {e : Event Request (ℕ × Reply) PEmpty} (h : FanOutInv start c) (hG : AllAccepted c e)
    (hs : fanOut.step c e = some c') : FanOutInv start c' := by
  rcases Prog.step_cases hs with ⟨r, rfl, rfl⟩ | ⟨i, ⟨k, reply⟩, t, s, t', rfl, ht, hn, rfl⟩ |
      ⟨x, -⟩
  · refine ⟨h.latest, fun x i v hi => ?_, fun i t hi => ?_⟩
    · simpa using Nat.lt_succ_of_lt (h.entered x i v hi)
    · rcases getElem?_append_cases hi with hi | ⟨rfl, rfl⟩
      · exact h.threads i t hi
      · -- no delivery carries the index of the new request
        exact delivered_enter r fun v => ⟨fun hm => absurd (h.entered _ _ v hm) (lt_irrefl _),
          fun hm => absurd (h.entered _ _ v hm) (lt_irrefl _)⟩
  · obtain rfl : reply = .accepted := by simpa [AllAccepted, allAccepted] using hG
    have hlt : i < c.pool.length := (List.getElem?_eq_some_iff.mp ht).1
    obtain ⟨hshared, hown⟩ := next_accepted hn (h.threads i t ht)
    rcases hshared with rfl | ⟨leg, rfl⟩
    · refine ⟨h.latest, fun x j v hj => by simpa using h.entered x j v hj, fun j v hj => ?_⟩
      rcases getElem?_set_cases ht hj with ⟨rfl, rfl⟩ | ⟨-, hj⟩
      · exact hown
      · exact h.threads j v hj
    · refine ⟨fun x hx => latest_deliver (h.latest x hx), fun x j v hj => ?_, fun j v hj => ?_⟩
      · rcases mem_log_deliver.mp hj with ⟨-, rfl, -⟩ | hj
        · simpa using hlt
        · simpa using h.entered x j v hj
      · rcases getElem?_set_cases ht hj with ⟨rfl, rfl⟩ | ⟨hne, hj⟩
        · exact hown
        · exact (h.threads j v hj).of_deliver hne
  · cases x

theorem fanOutInv_boot (streaming analysis : Bool) :
    FanOutInv analysis (boot streaming analysis) where
  latest x hx := by
    cases x with
    | streamer => exact absurd rfl hx
    | analyzer | recorder => rfl
  entered x i v hi := by simp [boot] at hi
  threads i t hi := by simp [boot] at hi

/-- With no request in flight, both components have handled the same requests. -/
theorem FanOutInv.same_requests {start : Bool} {c : Conf Shared Thread} (h : FanOutInv start c)
    (hq : Quiescent c) (i : ℕ) (v : Bool) :
    (i, v) ∈ c.shared.log .analyzer ↔ (i, v) ∈ c.shared.log .recorder := by
  by_cases hi : i < c.pool.length
  · have hfin := hq c.pool[i] (List.getElem_mem hi)
    have ht := h.threads i _ (List.getElem?_eq_getElem hi)
    cases hr : c.pool[i] with
    | finished r => rw [hr] at ht; exact ht v
    | relay | check | sending => rw [hr] at hfin; cases hfin
  · constructor <;> intro hm <;> exact absurd (h.entered _ i v hm) hi

/-- The latest delivery is the last one of its kind. -/
theorem last_of_latest {s : Shared} {x : Component} {i : ℕ} {v : Bool} {older : List (ℕ × Bool)}
    (h : s.log x = (i, v) :: older) : s.last x v = some i := by
  simp [Shared.last, h]

/-- The components agree whenever no request is in flight and both handled the last start and the
    last stop in the same order. -/
theorem flags_agree (streaming analysis : Bool) (c : Conf Shared Thread)
    (hrun : Steps fanOut.step AllAccepted (boot streaming analysis) c) (hq : Quiescent c)
    (horder : SameOrder c.shared) : c.shared.active .analyzer = c.shared.active .recorder := by
  have h : FanOutInv analysis c :=
    hrun.invariant (fun _ _ _ hi hG hs => fanOutInv_step hi hG hs)
      (fanOutInv_boot streaming analysis)
  have hsame := h.same_requests hq
  rw [h.latest .analyzer (by decide), h.latest .recorder (by decide)]
  cases ha : c.shared.log .analyzer with
  | nil =>
      -- nothing was delivered to either component
      have hr : c.shared.log .recorder = [] := by
        rw [List.eq_nil_iff_forall_not_mem]
        rintro ⟨i, v⟩ hm
        have := (hsame i v).mpr hm
        rw [ha] at this; cases this
      rw [hr]
  | cons x xs =>
      cases hr : c.shared.log .recorder with
      | nil =>
          have := (hsame x.1 x.2).mp (by rw [ha]; exact List.mem_cons_self)
          rw [hr] at this; cases this
      | cons y ys =>
          obtain ⟨i, v⟩ := x
          obtain ⟨j, w⟩ := y
          have hi : c.shared.last .analyzer v = some i := last_of_latest ha
          have hj : c.shared.last .recorder w = some j := last_of_latest hr
          -- the two latest deliveries cannot be opposite ones
          cases v <;> cases w
          · rfl
          · have hord := (horder j i (.inr hj) (.inl hi)).mpr
            rw [ha, hr, List.idxOf_cons_self] at hord
            rw [List.idxOf_cons_self, List.idxOf_cons_ne _ (by simp)] at hord
            exact absurd (hord (Nat.succ_pos _)) (Nat.not_lt_zero _)
          · have hord := (horder i j (.inl hi) (.inr hj)).mp
            rw [ha, hr, List.idxOf_cons_self] at hord
            rw [List.idxOf_cons_self, List.idxOf_cons_ne _ (by simp)] at hord
            exact absurd (hord (Nat.succ_pos _)) (Nat.not_lt_zero _)
          · rfl

/-- A start and a stop overlap; `legs` is the order in which their legs arrive. -/
def sampleOverlap (legs : List (ℕ × ℕ)) : List (Event Request (ℕ × Reply) PEmpty) :=
  [.enter .analysisStart, .enter .analysisStop, .sched 0 (0, .accepted)] ++
    (legs.map fun leg => .sched leg.1 (leg.2, .accepted)) ++
    [.sched 0 (2, .accepted), .sched 1 (2, .accepted)]

/-- The stop reaches both components after the start. -/
theorem flags_agree_overlap :
    ∃ c, Steps fanOut.step AllAccepted (boot true false) c ∧ Quiescent c ∧
      c.shared.active .analyzer = c.shared.active .recorder := by
  let c := exec (guardedStep fanOut.step AllAccepted) (boot true false)
    (sampleOverlap [(0, 0), (1, 0), (0, 1), (1, 1)])
  have hrun : Steps fanOut.step AllAccepted (boot true false) c :=
    Steps.execGuarded (by decide)
  have hq : Quiescent c := by simp only [Quiescent]; decide
  have horder : SameOrder c.shared := by
    have ha : c.shared.log .analyzer = [(1, false), (0, true)] := by decide
    have hr : c.shared.log .recorder = [(1, false), (0, true)] := by decide
    intro i j _ _
    rw [ha, hr]
  exact ⟨c, hrun, hq, flags_agree true false c hrun hq horder⟩

/-- The legs cross: the analyzer ends stopped, the recorder ends started. -/
theorem flags_differ_crossed :
    ∃ c, Steps fanOut.step AllAccepted (boot true false) c ∧ Quiescent c ∧
      c.shared.active .analyzer = false ∧ c.shared.active .recorder = true := by
  refine ⟨exec (guardedStep fanOut.step AllAccepted) (boot true false)
    (sampleOverlap [(0, 0), (1, 0), (1, 1), (0, 1)]), Steps.execGuarded (by decide), ?_,
    by decide, by decide⟩
  simp only [Quiescent]
  decide

end Babycat.Router.FanOut
