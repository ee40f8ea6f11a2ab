/-
  Babycat.Router.MonitorSent

  What the router sends to its clients.

  The sources share no field, so a merged snapshot is, field by field, what each
  source said of itself, and a source that is not there takes its own fields
  with it and no other (`merged_lookup`).  A client is sent the merges of the
  parts at moments that follow each other (`sent_run`), and with nothing left to
  tell, to read or to send it has what the analyzer's state shows
  (`client_current`).
-/

import Babycat.Router.MonitorFresh

namespace Babycat.Monitor

open Babycat.Conc

-- ============================================================================
-- The fields of a merged snapshot
-- ============================================================================

/-- No field is shared. -/
theorem has_unique {key : String} {source source' : Source} (h : source.has key = true)
    (h' : source'.has key = true) : source = source' := by
  have hanalyzer : ∀ key ∈ recorderKeys ++ streamerKeys, Source.analyzer.has key = false := by
    decide
  have hrecorder : ∀ key ∈ streamerKeys, Source.recorder.has key = false := by decide
  have hmem : ∀ {l : List String}, l.contains key = true → key ∈ l := fun hl =>
    List.contains_iff_mem.mp hl
  have hapart : ∀ {s : Source}, s.has key = true → s.has key = false → False := fun ht hf => by
    rw [ht] at hf
    cases hf
  cases source <;> cases source'
  case analyzer.analyzer | recorder.recorder | streamer.streamer => rfl
  case analyzer.recorder =>
    exact (hapart h (hanalyzer key (List.mem_append_left _ (hmem h')))).elim
  case analyzer.streamer =>
    exact (hapart h (hanalyzer key (List.mem_append_right _ (hmem h')))).elim
  case recorder.analyzer =>
    exact (hapart h' (hanalyzer key (List.mem_append_left _ (hmem h)))).elim
  case recorder.streamer => exact (hapart h (hrecorder key (hmem h'))).elim
  case streamer.analyzer =>
    exact (hapart h' (hanalyzer key (List.mem_append_right _ (hmem h)))).elim
  case streamer.recorder => exact (hapart h' (hrecorder key (hmem h))).elim

/-- No source has the field that the merge adds. -/
theorem has_monitorSources (source : Source) : source.has "monitor_sources" = false := by
  cases source <;> decide

namespace Parts

variable (p : Parts) {key : String}

theorem lookup_update (merged : Dict) (part : Option Dict) (key : String) :
    (update merged part).lookup key =
      (part.bind fun d => d.lookup key).or (merged.lookup key) := by
  cases part with
  | none => rw [update, Option.bind_none, Option.none_or]
  | some d =>
    rw [update, Option.bind_some]
    split_ifs with hempty
    · have hnone : d.lookup key = none := by rw [AList.lookup, hempty, List.dlookup_nil]
      rw [hnone, Option.none_or]
    · exact lookup_union d merged key

/-- What a source says of a field. -/
def field (source : Source) (key : String) : Option Value :=
  (p.get source).bind fun part => part.dict.lookup key

theorem field_none {source : Source} (h : source.has key = false) : p.field source key = none := by
  rw [field]
  cases p.get source with
  | none => rfl
  | some part =>
    rw [Option.bind_some, AList.lookup_eq_none]
    intro hmem
    rw [part.fields key hmem] at h
    cases h

theorem lookup_mergedParts : p.mergedParts.lookup key =
    (p.field .streamer key).or ((p.field .recorder key).or (p.field .analyzer key)) := by
  have hdict : ∀ {source : Source} (part : Option (Part source)),
      ((part.map Part.dict).bind fun d => d.lookup key) =
        part.bind fun part => part.dict.lookup key := by
    intro source part
    cases part <;> rfl
  rw [mergedParts, lookup_update, lookup_update, lookup_update, AList.lookup_empty, Option.or_none,
    hdict, hdict, hdict]
  rfl

/-- A field of a source is in the merge what that source says of it. -/
theorem merged_lookup {source : Source} (h : source.has key = true) :
    p.merged.lookup key = p.field source key := by
  have hne : key ≠ "monitor_sources" := by
    rintro rfl
    rw [has_monitorSources] at h
    cases h
  have hothers : ∀ source' ≠ source, p.field source' key = none := by
    intro source' hother
    apply p.field_none
    cases hhas : source'.has key with
    | false => rfl
    | true => exact absurd (has_unique hhas h) hother
  rw [merged, AList.lookup_insert_ne hne, lookup_mergedParts]
  cases source with
  | analyzer =>
    rw [hothers .streamer (by decide), hothers .recorder (by decide), Option.none_or,
      Option.none_or]
  | recorder =>
    rw [hothers .streamer (by decide), hothers .analyzer (by decide), Option.none_or,
      Option.or_none]
  | streamer =>
    rw [hothers .recorder (by decide), hothers .analyzer (by decide), Option.none_or,
      Option.or_none]

/-- Beside the fields of the sources there is only the one that tells which of them are there. -/
theorem merged_other (h : ∀ source : Source, source.has key = false) :
    p.merged.lookup key = if key = "monitor_sources" then some p.monitorSources else none := by
  split_ifs with heq
  · subst heq
    exact AList.lookup_insert _
  · rw [merged, AList.lookup_insert_ne heq, lookup_mergedParts, p.field_none (h .streamer),
      p.field_none (h .recorder), p.field_none (h .analyzer)]
    rfl

end Parts

-- ============================================================================
-- What each thread knows
-- ============================================================================

/-- `d` is the merge of the parts after bump `n`. -/
def Shared.Was (s : Shared) (n : ℕ) (d : Dict) : Prop :=
  ∃ p, s.versions.reverse[n]? = some p ∧ d = p.merged

structure VersionsOk (s : Shared) : Prop where
  latest : s.versions.head? = some s.parts
  count : s.versions.length = s.seq + 1

structure Client.Knows (s : Shared) (c : Client) : Prop where
  last : c.last = c.sent.head?.map Prod.fst
  inOrder : c.sent.Pairwise fun a b => b.1 < a.1
  were : ∀ e ∈ c.sent, s.Was e.1 e.2

/-- What it is about to send was not sent before. -/
def ClientPc.Knows (s : Shared) (c : Client) : ClientPc → Prop
  | .look => True
  | .emit n d => s.Was n d ∧ ∀ e ∈ c.sent, e.1 < n

/-- Handler `i` serves its connection alone. -/
def HandlerPc.Serves (i : ℕ) (s : Shared) : HandlerPc → Prop
  | .accept | .closed => True
  | .get n (some d) => ∃ c : Conn, s.conns[n]? = some c ∧ c.handler = some i ∧
      c.sent.getLast? = some d
  | .subscribe n | .get n none | .snapshot n | .write n _ | .unsubscribe n =>
      ∃ c : Conn, s.conns[n]? = some c ∧ c.handler = some i

/-- The router's part is the last line that it has read of the connection. -/
def ReaderPc.Knows (s : Shared) : ReaderPc → Prop
  | .readLine n => ∃ c : Conn, s.conns[n]? = some c ∧ c.read ≤ c.sent.length ∧
      (0 < c.read → s.parts.analyzer = c.sent[c.read - 1]?)
  | .bump n d => ∃ c : Conn, s.conns[n]? = some c ∧ c.read ≤ c.sent.length ∧ 0 < c.read ∧
      c.sent[c.read - 1]? = some d
  | .connect | .drop | .sleep => True

def Thread.Knows (i : ℕ) (s : Shared) : Thread → Prop
  | .method .. | .poller _ => True
  | .handler pc => pc.Serves i s
  | .reader pc => i = 0 ∧ pc.Knows s
  | .client c pc => c.Knows s ∧ pc.Knows s c

section Steps

variable {i j n m : ℕ} {s s' : Shared} {k : Choice} {f : Conn → Conn} {c : Conn}

theorem get_updateConn (h : s.conns[n]? = some c) :
    (s.updateConn m f).conns[n]? = some (if m = n then f c else c) := by
  rw [Shared.updateConn, List.getElem?_modify, h]
  rfl

/-- What a step does to the versions: nothing, or it adds the parts that there are then. -/
theorem next_versions {t t' : Thread} (h : monitor.next i s t k = some (s', t')) :
    (s'.versions = s.versions ∧ s'.seq = s.seq ∧ s'.parts = s.parts) ∨
      (s'.versions = s'.parts :: s.versions ∧ s'.seq = s.seq + 1) := by
  cases t with
  | method m pc =>
    obtain ⟨r, hr, heq⟩ := Option.map_eq_some_iff.mp h
    cases heq
    left
    cases pc with
    | call =>
      cases hr
      exact ⟨rfl, rfl, rfl⟩
    | returned => cases hr
    | acquire =>
      rw [methodNext] at hr
      split_ifs at hr
      cases hr
      exact ⟨rfl, rfl, rfl⟩
    | push rest => cases rest <;> cases hr <;> exact ⟨rfl, rfl, rfl⟩
  | handler pc =>
    obtain ⟨r, hr, heq⟩ := Option.map_eq_some_iff.mp h
    cases heq
    left
    cases pc with
    | accept =>
      simp only [handlerNext] at hr
      split at hr
      · cases hr
      · split_ifs at hr
        cases hr
        exact ⟨rfl, rfl, rfl⟩
    | subscribe | get | write | unsubscribe =>
      rw [handlerNext] at hr
      split_ifs at hr <;> cases hr <;> exact ⟨rfl, rfl, rfl⟩
    | snapshot =>
      cases hr
      exact ⟨rfl, rfl, rfl⟩
    | closed => cases hr
  | reader pc =>
    obtain ⟨r, hr, heq⟩ := Option.map_eq_some_iff.mp h
    cases heq
    rcases readerNext_cases hr with ⟨-, hs, -⟩ | ⟨n, c, d, -, -, -, hs, -⟩ | ⟨n, d, -, hs, -⟩ |
      ⟨-, hs, -⟩ | ⟨hs, -⟩
    all_goals rw [hs]
    · exact .inl ⟨rfl, rfl, rfl⟩
    · exact .inl ⟨rfl, rfl, rfl⟩
    · exact .inr ⟨rfl, rfl⟩
    · exact .inr ⟨rfl, rfl⟩
    · exact .inl ⟨rfl, rfl, rfl⟩
  | poller pc =>
    cases h
    cases pc with
    | bumpRecorder | bumpStreamer => exact .inr ⟨rfl, rfl⟩
    | recorder | streamer | sleep => exact .inl ⟨rfl, rfl, rfl⟩
  | client c pc =>
    cases h
    exact .inl ⟨rfl, rfl, rfl⟩

/-- What was, has been. -/
theorem Shared.Was.later {d : Dict} (h : s.Was n d) (hlater : s.versions <:+ s'.versions) :
    s'.Was n d := by
  obtain ⟨p, hp, hd⟩ := h
  obtain ⟨new, hnew⟩ := hlater
  refine ⟨p, ?_, hd⟩
  rw [← hnew, List.reverse_append, List.getElem?_append_left (List.getElem?_eq_some_iff.mp hp).1]
  exact hp

theorem next_later {t t' : Thread} (h : monitor.next i s t k = some (s', t')) :
    s.versions <:+ s'.versions := by
  rcases next_versions h with ⟨hsame, -⟩ | ⟨hnew, -⟩
  · exact hsame ▸ List.suffix_rfl
  · exact hnew ▸ List.suffix_cons _ _

theorem VersionsOk.next {t t' : Thread} (hv : VersionsOk s)
    (h : monitor.next i s t k = some (s', t')) : VersionsOk s' := by
  rcases next_versions h with ⟨hversions, hseq, hparts⟩ | ⟨hversions, hseq⟩
  · exact ⟨by rw [hversions, hparts, hv.latest], by rw [hversions, hseq, hv.count]⟩
  · exact ⟨by rw [hversions, List.head?_cons], by rw [hversions, hseq, List.length_cons, hv.count]⟩

/-- The parts that there are have the number that there is. -/
theorem VersionsOk.current (hv : VersionsOk s) : s.versions.reverse[s.seq]? = some s.parts := by
  have hlatest := hv.latest
  have hcount := hv.count
  cases hversions : s.versions with
  | nil =>
    rw [hversions] at hlatest
    cases hlatest
  | cons p rest =>
    rw [hversions] at hlatest hcount
    cases hlatest
    have hlength : rest.reverse.length = s.seq := by
      rw [List.length_reverse]
      exact Nat.succ.inj hcount
    rw [List.reverse_cons, List.getElem?_append_right hlength.le, hlength, Nat.sub_self]
    rfl

theorem Shared.Was.le {d : Dict} (h : s.Was n d) (hv : VersionsOk s) : n ≤ s.seq := by
  obtain ⟨p, hp, -⟩ := h
  have hlt := (List.getElem?_eq_some_iff.mp hp).1
  rw [List.length_reverse, hv.count] at hlt
  omega

/-- What a client knows stays true. -/
theorem Client.Knows.later {c : Client} (h : c.Knows s) (hlater : s.versions <:+ s'.versions) :
    c.Knows s' :=
  ⟨h.last, h.inOrder, fun e he => (h.were e he).later hlater⟩

theorem ClientPc.Knows.later {c : Client} {pc : ClientPc} (h : pc.Knows s c)
    (hlater : s.versions <:+ s'.versions) : pc.Knows s' c := by
  cases pc with
  | look => trivial
  | emit n d => exact ⟨h.1.later hlater, h.2⟩

/-- A client's own step. -/
theorem client_own {c : Client} {pc : ClientPc} (hv : VersionsOk s) (hc : c.Knows s)
    (hpc : pc.Knows s c) :
    (clientNext s c pc).1.Knows s ∧ (clientNext s c pc).2.Knows s (clientNext s c pc).1 := by
  cases pc with
  | look =>
    rw [clientNext]
    split_ifs with hlast
    · exact ⟨hc, trivial⟩
    · refine ⟨hc, ⟨s.parts, hv.current, rfl⟩, fun e he => ?_⟩
      have hle := (hc.were e he).le hv
      -- the numbers fall from the last message on, and the last one is not the current one
      have hbelow : ∃ e₀, c.sent.head? = some e₀ ∧ e.1 ≤ e₀.1 := by
        cases hsent : c.sent with
        | nil =>
          rw [hsent] at he
          cases he
        | cons e₀ rest =>
          rw [hsent] at he
          refine ⟨e₀, rfl, ?_⟩
          rcases List.mem_cons.mp he with rfl | hrest
          · exact le_rfl
          · have horder := hc.inOrder
            rw [hsent, List.pairwise_cons] at horder
            exact (horder.1 e hrest).le
      obtain ⟨e₀, hhead, hle₀⟩ := hbelow
      have hmem : e₀ ∈ c.sent := List.mem_of_mem_head? hhead
      have hle₁ := (hc.were e₀ hmem).le hv
      have hne : e₀.1 ≠ s.seq := by
        intro heq
        apply hlast
        rw [hc.last, hhead, Option.map_some, heq]
      show e.1 < s.seq
      omega
  | emit n d =>
    obtain ⟨hwas, hnew⟩ := hpc
    refine ⟨⟨rfl, ?_, ?_⟩, trivial⟩
    · exact List.pairwise_cons.mpr ⟨hnew, hc.inOrder⟩
    · intro e he
      rcases List.mem_cons.mp he with rfl | he
      · exact hwas
      · exact hc.were e he

/-- The connections of the other handlers are as they were. -/
def OthersKept (i : ℕ) (s s' : Shared) : Prop :=
  ∀ (n : ℕ) (c : Conn), s.conns[n]? = some c → ∀ j, j ≠ i → c.handler = some j →
    ∃ c' : Conn, s'.conns[n]? = some c' ∧ c'.handler = some j ∧ c'.sent = c.sent

/-- The lines that the router has read are still there, and its part is the same. -/
def LinesKept (s s' : Shared) : Prop :=
  s'.parts.analyzer = s.parts.analyzer ∧ ∀ (n : ℕ) (c : Conn), s.conns[n]? = some c →
    ∃ c' : Conn, s'.conns[n]? = some c' ∧ c'.read = c.read ∧ c.sent <+: c'.sent

theorem OthersKept.of_eq (h : s'.conns = s.conns) : OthersKept i s s' :=
  fun n c hc _ _ hj => ⟨c, by rw [h, hc], hj, rfl⟩

theorem LinesKept.of_eq (hparts : s'.parts.analyzer = s.parts.analyzer)
    (h : s'.conns = s.conns) : LinesKept s s' :=
  ⟨hparts, fun n c hc => ⟨c, by rw [h, hc], rfl, List.prefix_rfl⟩⟩

/-- A handler that changes its own connection leaves those of the others alone. -/
theorem OthersKept.updateConn {r : Shared} (hr : r.conns = s.conns)
    (hown : ∀ c : Conn, s.conns[m]? = some c → c.handler = some i ∨ c.handler = none) :
    OthersKept i s (r.updateConn m f) := by
  intro n c hc j hne hj
  have hget : (r.updateConn m f).conns[n]? = some (if m = n then f c else c) :=
    get_updateConn (by rw [hr, hc])
  by_cases hmn : m = n
  · subst hmn
    rcases hown c hc with hi | hnone
    · rw [hi] at hj
      exact absurd (Option.some.inj hj).symm hne
    · rw [hnone] at hj
      cases hj
  · rw [if_neg hmn] at hget
    exact ⟨c, hget, hj, rfl⟩

theorem LinesKept.updateConn {r : Shared} (hr : r.conns = s.conns)
    (hparts : r.parts = s.parts) (hread : ∀ c : Conn, (f c).read = c.read)
    (hsent : ∀ c : Conn, c.sent <+: (f c).sent) : LinesKept s (r.updateConn m f) := by
  refine ⟨congrArg Parts.analyzer hparts, fun n c hc => ?_⟩
  have hget : (r.updateConn m f).conns[n]? = some (if m = n then f c else c) :=
    get_updateConn (by rw [hr, hc])
  by_cases hmn : m = n
  · rw [if_pos hmn] at hget
    exact ⟨f c, hget, hread c, hsent c⟩
  · rw [if_neg hmn] at hget
    exact ⟨c, hget, rfl, List.prefix_rfl⟩

/-- What a step of a handler does: it serves its connection on, alone. -/
theorem handler_own {pc pc' : HandlerPc} (hpc : pc.Serves i s)
    (h : handlerNext i s k pc = some (s', pc')) :
    pc'.Serves i s' ∧ OthersKept i s s' ∧ LinesKept s s' := by
  cases pc with
  | accept =>
    simp only [handlerNext] at h
    split at h
    · cases h
    · rename_i c hc
      split_ifs at h with hfree
      cases h
      refine ⟨⟨_, get_updateConn hc, by rw [if_pos rfl]⟩, ?_, ?_⟩
      · refine .updateConn rfl fun c' hc' => ?_
        cases hc.symm.trans hc'
        exact .inr hfree
      · exact .updateConn rfl rfl (fun _ => rfl) fun _ => List.prefix_rfl
  | subscribe n =>
    rw [handlerNext] at h
    split_ifs at h
    cases h
    exact ⟨hpc, .of_eq rfl, .of_eq rfl rfl⟩
  | get n last =>
    have hconn : ∃ c : Conn, s.conns[n]? = some c ∧ c.handler = some i := by
      cases last with
      | none => exact hpc
      | some d =>
        obtain ⟨c, hc, hi, -⟩ := hpc
        exact ⟨c, hc, hi⟩
    rw [handlerNext] at h
    split_ifs at h <;> cases h <;> exact ⟨hconn, .of_eq rfl, .of_eq rfl rfl⟩
  | snapshot n =>
    cases h
    exact ⟨hpc, .of_eq rfl, .of_eq rfl rfl⟩
  | write n d =>
    obtain ⟨c, hc, hi⟩ := hpc
    rw [handlerNext] at h
    split_ifs at h
    · cases h
      exact ⟨⟨c, hc, hi⟩, .of_eq rfl, .of_eq rfl rfl⟩
    · cases h
      refine ⟨⟨_, get_updateConn hc, ?_, ?_⟩, ?_, ?_⟩
      · rw [if_pos rfl]
        exact hi
      · rw [if_pos rfl]
        exact List.getLast?_concat
      · refine .updateConn rfl fun c' hc' => ?_
        cases hc.symm.trans hc'
        exact .inl hi
      · exact .updateConn rfl rfl (fun _ => rfl) fun c => List.prefix_append _ _
  | unsubscribe n =>
    obtain ⟨c, hc, hi⟩ := hpc
    rw [handlerNext] at h
    split_ifs at h
    cases h
    refine ⟨trivial, ?_, ?_⟩
    · refine .updateConn rfl fun c' hc' => ?_
      cases hc.symm.trans hc'
      exact .inl hi
    · exact .updateConn rfl rfl (fun _ => rfl) fun _ => List.prefix_rfl
  | closed => cases h

/-- A step of the reader. -/
theorem reader_own {pc pc' : ReaderPc} (hpc : pc.Knows s)
    (h : readerNext s k pc = some (s', pc')) : pc'.Knows s' ∧ OthersKept i s s' := by
  rcases readerNext_cases h with ⟨-, rfl, rfl⟩ | ⟨n, c, d, rfl, hc, hd, rfl, rfl⟩ |
    ⟨n, d, rfl, rfl, rfl⟩ | ⟨-, rfl, rfl⟩ | ⟨rfl, hpc'⟩
  · refine ⟨⟨Conn.fresh, ?_, le_rfl, fun hpos => absurd hpos (Nat.lt_irrefl 0)⟩, ?_⟩
    · show (s.conns ++ [Conn.fresh])[s.conns.length]? = some Conn.fresh
      rw [List.getElem?_append_right le_rfl, Nat.sub_self]
      rfl
    · intro n c hc j _ hj
      refine ⟨c, ?_, hj, rfl⟩
      show (s.conns ++ [Conn.fresh])[n]? = some c
      rw [List.getElem?_append_left (List.getElem?_eq_some_iff.mp hc).1]
      exact hc
  · have hlt := (List.getElem?_eq_some_iff.mp hd).1
    refine ⟨⟨_, get_updateConn hc, ?_, ?_, ?_⟩, ?_⟩
    · rw [if_pos rfl]
      exact hlt
    · rw [if_pos rfl]
      exact Nat.succ_pos _
    · rw [if_pos rfl]
      exact hd
    · intro m c' hc' j _ hj
      refine ⟨_, get_updateConn hc', ?_, ?_⟩ <;> split_ifs <;> first | exact hj | rfl
  · obtain ⟨c, hc, hle, hpos, hd⟩ := hpc
    exact ⟨⟨c, hc, hle, fun _ => hd.symm⟩, .of_eq rfl⟩
  · exact ⟨trivial, .of_eq rfl⟩
  · refine ⟨?_, .of_eq rfl⟩
    rcases hpc' with rfl | rfl <;> trivial

/-- A thread that is neither a handler nor the reader leaves the connections alone. -/
theorem others_own {t t' : Thread} (ht : ∀ pc, t ≠ .handler pc) (hr : ∀ pc, t ≠ .reader pc)
    (h : monitor.next i s t k = some (s', t')) : OthersKept i s s' ∧ LinesKept s s' := by
  cases t with
  | handler pc => exact absurd rfl (ht pc)
  | reader pc => exact absurd rfl (hr pc)
  | method m pc =>
    obtain ⟨r, hr, heq⟩ := Option.map_eq_some_iff.mp h
    cases heq
    cases pc with
    | call =>
      cases hr
      exact ⟨.of_eq rfl, .of_eq rfl rfl⟩
    | acquire =>
      rw [methodNext] at hr
      split_ifs at hr
      cases hr
      exact ⟨.of_eq rfl, .of_eq rfl rfl⟩
    | push rest => cases rest <;> cases hr <;> exact ⟨.of_eq rfl, .of_eq rfl rfl⟩
    | returned => cases hr
  | poller pc =>
    cases h
    cases pc <;> exact ⟨.of_eq rfl, .of_eq rfl rfl⟩
  | client c pc =>
    cases h
    exact ⟨.of_eq rfl, .of_eq rfl rfl⟩

theorem HandlerPc.Serves.later {pc : HandlerPc} (h : pc.Serves j s) (hne : j ≠ i)
    (hkept : OthersKept i s s') : pc.Serves j s' := by
  have hconn : ∀ {n : ℕ}, (∃ c : Conn, s.conns[n]? = some c ∧ c.handler = some j) →
      ∃ c : Conn, s'.conns[n]? = some c ∧ c.handler = some j := by
    rintro n ⟨c, hc, hj⟩
    obtain ⟨c', hc', hj', -⟩ := hkept n c hc j hne hj
    exact ⟨c', hc', hj'⟩
  cases pc with
  | accept | closed => trivial
  | get n last =>
    cases last with
    | none => exact hconn h
    | some d =>
      obtain ⟨c, hc, hj, hlast⟩ := h
      obtain ⟨c', hc', hj', hsent⟩ := hkept n c hc j hne hj
      exact ⟨c', hc', hj', by rw [hsent, hlast]⟩
  | subscribe n | snapshot n | write n d | unsubscribe n => exact hconn h

theorem ReaderPc.Knows.later {pc : ReaderPc} (h : pc.Knows s) (hkept : LinesKept s s') :
    pc.Knows s' := by
  obtain ⟨hparts, hconns⟩ := hkept
  -- a line that was read is the same line of the longer list
  have hline : ∀ {l l' : List (Part .analyzer)} {a : ℕ}, l <+: l' → a ≤ l.length → 0 < a →
      l'[a - 1]? = l[a - 1]? := by
    rintro l l' a ⟨new, rfl⟩ hle hpos
    exact List.getElem?_append_left (by omega)
  cases pc with
  | readLine n =>
    obtain ⟨c, hc, hle, hpart⟩ := h
    obtain ⟨c', hc', hread, hsent⟩ := hconns n c hc
    refine ⟨c', hc', ?_, fun hpos => ?_⟩
    · rw [hread]
      exact hle.trans hsent.length_le
    · rw [hread] at hpos ⊢
      rw [hparts, hpart hpos, hline hsent hle hpos]
  | bump n d =>
    obtain ⟨c, hc, hle, hpos, hd⟩ := h
    obtain ⟨c', hc', hread, hsent⟩ := hconns n c hc
    refine ⟨c', hc', ?_, ?_, ?_⟩
    · rw [hread]
      exact hle.trans hsent.length_le
    · rw [hread]
      exact hpos
    · rw [hread, hline hsent hle hpos]
      exact hd
  | connect | drop | sleep => trivial

end Steps

-- ============================================================================
-- Runs
-- ============================================================================

theorem monitor_knows {G : Monitoring → Event Request Choice Env → Prop} :
    OwickiGries monitor G VersionsOk Thread.Knows where
  enter i s r _ := by
    cases r with
    | method m => trivial
    | handler => trivial
    | client => exact ⟨⟨rfl, List.Pairwise.nil, fun e he => nomatch he⟩, trivial⟩
  own c i k t s' t' hc _ ht hn := by
    have hknown := hc.2 i t ht
    refine ⟨hc.1.next hn, ?_⟩
    cases t with
    | method m pc =>
      obtain ⟨r, -, heq⟩ := Option.map_eq_some_iff.mp hn
      cases heq
      trivial
    | handler pc =>
      obtain ⟨r, hr, heq⟩ := Option.map_eq_some_iff.mp hn
      cases heq
      exact (handler_own hknown hr).1
    | reader pc =>
      obtain ⟨r, hr, heq⟩ := Option.map_eq_some_iff.mp hn
      cases heq
      exact ⟨hknown.1, (reader_own (i := i) hknown.2 hr).1⟩
    | poller pc =>
      cases hn
      trivial
    | client v pc =>
      cases hn
      exact client_own hc.1 hknown.1 hknown.2
  others c i k t s' t' j v hc _ ht hn hne hj := by
    have hmoves := hc.2 i t ht
    have hknown := hc.2 j v hj
    cases v with
    | method m pc => trivial
    | poller pc => trivial
    | client w pc => exact ⟨hknown.1.later (next_later hn), hknown.2.later (next_later hn)⟩
    | handler pc =>
      refine HandlerPc.Serves.later hknown hne ?_
      cases t with
      | handler pc' =>
        obtain ⟨r, hr, heq⟩ := Option.map_eq_some_iff.mp hn
        cases heq
        exact (handler_own hmoves hr).2.1
      | reader pc' =>
        obtain ⟨r, hr, heq⟩ := Option.map_eq_some_iff.mp hn
        cases heq
        exact (reader_own hmoves.2 hr).2
      | method | poller | client => exact (others_own (by rintro _ ⟨⟩) (by rintro _ ⟨⟩) hn).1
    | reader pc =>
      refine ⟨hknown.1, hknown.2.later ?_⟩
      cases t with
      | handler pc' =>
        obtain ⟨r, hr, heq⟩ := Option.map_eq_some_iff.mp hn
        cases heq
        exact (handler_own hmoves hr).2.2
      | reader pc' => exact absurd (hknown.1.trans hmoves.1.symm) hne
      | method | poller | client => exact (others_own (by rintro _ ⟨⟩) (by rintro _ ⟨⟩) hn).2
  env c x s' hc _ hx := by
    have hsame : s'.versions = c.shared.versions ∧ s'.seq = c.shared.seq ∧
        s'.parts = c.shared.parts ∧ s'.conns = c.shared.conns := by
      cases x <;> cases hx <;> exact ⟨rfl, rfl, rfl, rfl⟩
    obtain ⟨hversions, hseq, hparts, hconns⟩ := hsame
    have hlater : c.shared.versions <:+ s'.versions := hversions ▸ List.suffix_rfl
    refine ⟨⟨by rw [hversions, hparts, hc.1.latest], by rw [hversions, hseq, hc.1.count]⟩,
      fun j v hj => ?_⟩
    have hknown := hc.2 j v hj
    cases v with
    | method | poller => trivial
    | handler pc =>
      have hkept : OthersKept (j + 1) c.shared s' := .of_eq hconns
      exact HandlerPc.Serves.later hknown (Nat.lt_succ_self j).ne hkept
    | reader pc =>
      exact ⟨hknown.1, hknown.2.later (.of_eq (congrArg Parts.analyzer hparts) hconns)⟩
    | client w pc => exact ⟨hknown.1.later hlater, hknown.2.later hlater⟩

section Run

variable {app : AppState} {recorder : Part .recorder} {streamer : Part .streamer}
variable {c : Monitoring} {i j n : ℕ} {d : Part .analyzer} {v : Client} {pc : ClientPc}

theorem known_run (hrun : Steps monitor.step free (start app recorder streamer) c) :
    Annotated VersionsOk Thread.Knows c := by
  refine monitor_knows.steps hrun ⟨⟨rfl, rfl⟩, fun i t ht => ?_⟩
  match i with
  | 0 =>
    cases ht
    exact ⟨rfl, trivial⟩
  | 1 =>
    cases ht
    trivial
  | i + 2 => cases ht

/-- The messages that a client is sent are merged snapshots with rising numbers: each of them is,
    field by field, what the sources said after the bump of that number, with nothing of a source
    that was not there. -/
theorem sent_run (hrun : Steps monitor.step free (start app recorder streamer) c)
    (hj : c.pool[j]? = some (.client v pc)) :
    (v.sent.Pairwise fun a b => b.1 < a.1) ∧
      ∀ e ∈ v.sent, ∃ p, c.shared.versions.reverse[e.1]? = some p ∧
        (∀ (source : Source) (key : String), source.has key = true →
          e.2.lookup key = p.field source key) ∧
        e.2.lookup "monitor_sources" = some p.monitorSources := by
  obtain ⟨hclient, -⟩ := (known_run hrun).2 j _ hj
  refine ⟨hclient.inOrder, fun e he => ?_⟩
  obtain ⟨p, hp, hd⟩ := hclient.were e he
  refine ⟨p, hp, fun source key hkey => ?_, ?_⟩
  · rw [hd, p.merged_lookup hkey]
  · rw [hd, p.merged_other has_monitorSources, if_pos rfl]

/-- With no method about to tell anybody, a handler that waits for its queue after a message, no
    line that the router has not read, and a client that has been sent the last number: the
    client has been sent what the analyzer's state shows. -/
theorem client_current (hrun : Steps monitor.step free (start app recorder streamer) c)
    (hmethods : ∀ t ∈ c.pool, ¬t.Tells i)
    (hi : c.pool[i]? = some (.handler (.get n (some d)))) (hempty : (i, true) ∉ c.shared.queues)
    (hreader : c.pool[0]? = some (.reader (.readLine n)))
    (hread : ∀ conn, c.shared.conns[n]? = some conn → conn.read = conn.sent.length)
    (hj : c.pool[j]? = some (.client v .look)) (hlast : v.last = some c.shared.seq) :
    ∃ e ∈ v.sent, e.1 = c.shared.seq ∧
      ∀ now, ∀ key ∈ pushedKeys, e.2.lookup key = (c.shared.app.snapshot now).lookup key := by
  have hknown := known_run hrun
  obtain ⟨hclient, -⟩ := hknown.2 j _ hj
  obtain ⟨conn, hconn, -, hline⟩ := hknown.2 i _ hi
  obtain ⟨-, conn', hconn', -, hpart⟩ := hknown.2 0 _ hreader
  cases hconn.symm.trans hconn'
  -- the analyzer's part is the last line of the connection
  have hall := hread conn hconn
  have hnonempty : conn.sent ≠ [] := by
    intro hnil
    rw [hnil] at hline
    cases hline
  have hanalyzer : c.shared.parts.analyzer = some d := by
    rw [hpart (by rw [hall]; exact List.length_pos_iff.mpr hnonempty), hall,
      ← List.getLast?_eq_getElem?, hline]
  -- that line shows what the state shows
  have hwait := (wakeup_run hrun i _ (map_phase_get hi)).2 _ rfl
  have hshown : shown d.dict = c.shared.app.shown := by
    refine hwait.settled hempty fun p hp => ?_
    obtain ⟨t, ht, rfl⟩ := List.mem_map.mp hp
    exact hmethods t ht
  -- the client's last message is the merge of the parts that there are
  rw [hclient.last] at hlast
  obtain ⟨e, hhead, hnumber⟩ := Option.map_eq_some_iff.mp hlast
  have hmem : e ∈ v.sent := List.mem_of_mem_head? hhead
  refine ⟨e, hmem, hnumber, fun now key hkey => ?_⟩
  obtain ⟨p, hp, hd⟩ := hclient.were e hmem
  rw [hnumber, hknown.1.current] at hp
  cases hp
  have hhas : ∀ key ∈ pushedKeys, Source.analyzer.has key = true := by decide
  have hfield : c.shared.parts.field .analyzer key = d.dict.lookup key := by
    show c.shared.parts.analyzer.bind _ = _
    rw [hanalyzer]
    rfl
  rw [hd, Parts.merged_lookup _ (hhas key hkey), hfield]
  rw [← c.shared.app.snapshot_shown now] at hshown
  exact List.map_inj_left.mp hshown key hkey

end Run

/-- The method has told it, the handler has written it, and a client has been sent it. -/
abbrev readySent : List (Event Request Choice Env) :=
  modelReady ++ [goes 3, goes 3, goes 3, goes 2, goes 2, goes 2, goes 0, goes 0, goes 0, goes 0,
    .enter .client, goes 4, goes 4]

theorem sent_run_ready : ∃ c v, Steps monitor.step free loading c ∧
    c.pool[4]? = some (.client v .look) ∧ v.last = some 2 ∧
      (v.sent.Pairwise fun a b => b.1 < a.1) ∧
      ∀ e ∈ v.sent, ∃ p, c.shared.versions.reverse[e.1]? = some p ∧
        (∀ (source : Source) (key : String), source.has key = true →
          e.2.lookup key = p.field source key) ∧
        e.2.lookup "monitor_sources" = some p.monitorSources :=
  ⟨exec monitor.step loading readySent, _, Steps.exec rfl, rfl, rfl,
    sent_run (j := 4) (Steps.exec rfl) rfl⟩

theorem client_current_ready : ∃ c v, Steps monitor.step free loading c ∧
    c.pool[4]? = some (.client v .look) ∧ c.shared.app.vlmState = "ready" ∧
      ∃ e ∈ v.sent, e.1 = 2 ∧
        ∀ now, ∀ key ∈ pushedKeys, e.2.lookup key = (c.shared.app.snapshot now).lookup key := by
  have hrun : Steps monitor.step free loading (exec monitor.step loading readySent) :=
    Steps.exec rfl
  have hshape : ∃ d v, (exec monitor.step loading readySent).pool = [.reader (.readLine 0),
      .poller .recorder, .handler (.get 0 (some d)), .method (.setVlmState "ready" "") .returned,
      .client v .look] ∧ v.last = some 2 := ⟨_, _, rfl, rfl⟩
  have hseq : (exec monitor.step loading readySent).shared.seq = 2 := rfl
  have hqueues : (exec monitor.step loading readySent).shared.queues = [(2, false)] := rfl
  have hready : (exec monitor.step loading readySent).shared.app.vlmState = "ready" := rfl
  have hread : ∀ conn, (exec monitor.step loading readySent).shared.conns[0]? = some conn →
      conn.read = conn.sent.length := by
    rintro conn hconn
    cases hconn
    rfl
  generalize exec monitor.step loading readySent = c at *
  obtain ⟨d, v, hpool, hlast⟩ := hshape
  have hquiet : ∀ t ∈ c.pool, ¬t.Tells 2 := by
    intro t ht hsignals
    rw [hpool] at ht
    simp only [List.mem_cons, List.not_mem_nil, or_false] at ht
    rcases ht with rfl | rfl | rfl | rfl | rfl <;> exact hsignals
  have hempty : (2, true) ∉ c.shared.queues := by
    rw [hqueues]
    decide
  have hsent := client_current (i := 2) (j := 4) (n := 0) hrun hquiet (by rw [hpool]; rfl) hempty
    (by rw [hpool]; rfl) hread (by rw [hpool]; rfl) (by rw [hlast, hseq])
  rw [hseq] at hsent
  exact ⟨c, v, hrun, by rw [hpool]; rfl, hready, hsent⟩

end Babycat.Monitor
