/-
  Babycat.Router.MonitorWire

  The bytes of the analyzer's event stream: what `_serve_sse` writes
  (`snapshot_sse_message`) and what `_analyzer_sse_reader` makes of the bytes
  that have come in.

  The connection can end behind any byte, also within a character or a number.
  The reader publishes the snapshots that came in whole and no other: so
  `Babycat.Router.Monitor` may take a line for the dict that it encodes.
-/

import Babycat.Text.JsonPrefix
import Babycat.Text.JsonPoints
import Babycat.Text.Utf8
import Babycat.Router.ClientStorage

namespace Babycat.Monitor

open Babycat.Text

-- ============================================================================
-- The messages
-- ============================================================================

/-- A snapshot as `json.dumps` takes it. -/
structure Snapshot where
  fields : List (PyStr × Json)
  ok : Json.WellFormed (.dict fields)

def Snapshot.value (snap : Snapshot) : Json := .dict snap.fields

/-- The characters of a text without surrogates. -/
def chars (s : PyStr) : List Char := s.map fun c => Char.ofNat c.val

/-- `str.encode()`; a surrogate raises. -/
def encodeText (s : PyStr) : Option (List UInt8) :=
  if encodable s then some (encode (chars s)) else none

/-- `bytes.decode("utf-8", errors="replace")` -/
def decodeText (bytes : List UInt8) : PyStr := (decodeReplace bytes).map codePoint

/-- The line of a message; without a snapshot if `snapshot()` raised. -/
def messageLine : Option Snapshot → PyStr
  | none => pyStr ": snapshot_unavailable"
  | some snap => pyStr "data: " ++ Json.dumps Storage.spaced snap.value

/-- `snapshot_sse_message()`; `none` if the encoder raises. -/
def snapshotSseMessage (snap : Option Snapshot) : Option (List UInt8) :=
  encodeText (messageLine snap ++ pyStr "\n\n")

/-- What the loop of `_serve_sse` writes; an exception of the encoder ends it. -/
def written : List (Option Snapshot) → List UInt8
  | [] => []
  | snap :: snaps =>
      match snapshotSseMessage snap with
      | none => []
      | some bytes => bytes ++ written snaps

/-- The messages that it writes. -/
def sendable (snaps : List (Option Snapshot)) : List (Option Snapshot) :=
  snaps.takeWhile fun snap => (snapshotSseMessage snap).isSome

-- ============================================================================
-- The reader
-- ============================================================================

/-- The lines of a response with their line ends; the last may have none. -/
def rawLines : List UInt8 → List (List UInt8)
  | [] => []
  | b :: rest =>
      if b = 10 then [b] :: rawLines rest
      else
        match rawLines rest with
        | [] => [[b]]
        | line :: lines => (b :: line) :: lines

/-- What `_analyzer_sse_reader` publishes of a stripped line; an invalid document is dropped. -/
def lineValue (line : PyStr) : Option Json :=
  if (pyStr "data: ").isPrefixOf line then Json.loads (line.drop (pyStr "data: ").length) else none

def readLine (raw : List UInt8) : Option Json := lineValue (strip (decodeText raw))

/-- What it publishes of the bytes that have come in. -/
def published (received : List UInt8) : List Json := (rawLines received).filterMap readLine

-- ============================================================================
-- Texts
-- ============================================================================

section Texts

variable {s : PyStr} {snap : Option Snapshot}

theorem codePoint_chars (h : encodable s = true) : (chars s).map codePoint = s := by
  rw [chars, List.map_map]
  refine (List.map_congr_left fun c hc => ?_).trans (List.map_id s)
  have hsurrogate := encodable_iff.mp h c hc
  rw [surrogate, Bool.and_eq_false_iff, decide_eq_false_iff_not, decide_eq_false_iff_not]
    at hsurrogate
  have hvalid : c.val.isValidChar := by
    have hlt := c.isLt
    unfold Nat.isValidChar
    omega
  refine Fin.ext ?_
  show (Char.ofNat c.val).toNat = c.val
  rw [Char.ofNat, dif_pos hvalid]
  rfl

theorem decodeText_encode (h : encodable s = true) (rest : List UInt8) :
    decodeText (encode (chars s) ++ rest) = s ++ decodeText rest := by
  rw [decodeText, decodeReplace_encode, List.map_append, codePoint_chars h, decodeText]

theorem flat_spaced : Json.Flat Storage.spaced where
  indent := rfl
  comma := List.forall_mem_singleton.mpr (by decide)
  colon := List.forall_mem_singleton.mpr (by decide)

theorem oneLine_message (snap : Option Snapshot) : Json.OneLine (messageLine snap) := by
  cases snap with
  | none => exact (Json.printable_of_all rfl).oneLine
  | some snap =>
    exact (Json.printable_of_all rfl).oneLine.append (flat_spaced.dumpsAt snap.value 0)

/-- A message is its line and two line ends. -/
theorem snapshotSseMessage_eq_some {bytes : List UInt8} (h : snapshotSseMessage snap = some bytes) :
    encodable (messageLine snap) = true ∧ bytes = encode (chars (messageLine snap)) ++ [10, 10] := by
  rw [snapshotSseMessage, encodeText] at h
  split_ifs at h with hencodable
  refine ⟨(encodable_append.mp hencodable).1, ?_⟩
  rw [← Option.some.inj h, chars, List.map_append, encode, List.flatMap_append]
  rfl

/-- There is no line end in it. -/
theorem not_mem_message (h : encodable (messageLine snap) = true) :
    (10 : UInt8) ∉ encode (chars (messageLine snap)) := by
  intro hmem
  have hdecoded : '\n' ∈ decodeReplace (encode (chars (messageLine snap))) :=
    mem_decodeReplace (c := '\n') (by decide) hmem
  have hself := decodeReplace_encode (chars (messageLine snap)) []
  rw [List.append_nil, show decodeReplace [] = [] from rfl, List.append_nil] at hself
  rw [hself] at hdecoded
  have hline : codePoint '\n' ∈ messageLine snap := by
    rw [← codePoint_chars h]
    exact List.mem_map_of_mem hdecoded
  exact absurd (oneLine_message snap _ hline) (by decide)

end Texts

-- ============================================================================
-- Lines
-- ============================================================================

section Lines

variable {line rest : List UInt8}

theorem rawLines_line (h : (10 : UInt8) ∉ line) :
    rawLines (line ++ 10 :: rest) = (line ++ [10]) :: rawLines rest := by
  induction line with
  | nil => rfl
  | cons b line ih =>
    obtain ⟨hb, hline⟩ := List.ne_and_not_mem_of_not_mem_cons h
    rw [List.cons_append, rawLines, if_neg (Ne.symm hb), ih hline]
    rfl

theorem rawLines_open (h : (10 : UInt8) ∉ line) (hne : line ≠ []) : rawLines line = [line] := by
  induction line with
  | nil => exact absurd rfl hne
  | cons b line ih =>
    obtain ⟨hb, hline⟩ := List.ne_and_not_mem_of_not_mem_cons h
    rw [rawLines, if_neg (Ne.symm hb)]
    by_cases hnil : line = []
    · rw [hnil]
      rfl
    · rw [ih hline hnil]

end Lines

-- ============================================================================
-- One message
-- ============================================================================

section Message

variable {snap : Option Snapshot}

/-- A message starts and ends with no blank. -/
theorem message_ends (snap : Option Snapshot) : ∃ c s d, messageLine snap = c :: (s ++ [d]) ∧
    isSpace c = false ∧ isSpace d = false := by
  cases snap with
  | none => exact ⟨codePoint ':', pyStr " snapshot_unavailabl", codePoint 'e', rfl, rfl, rfl⟩
  | some snap =>
    obtain ⟨s, hs⟩ := Json.dumps_dict Storage.spaced snap.fields
    refine ⟨codePoint 'd', pyStr "ata: " ++ Json.openDict :: s, Json.closeDict, ?_, rfl, rfl⟩
    rw [messageLine, Snapshot.value, hs, List.append_assoc]
    rfl

/-- A line that has come in whole, with its line end or without. -/
theorem readLine_whole (h : encodable (messageLine snap) = true) (stop : List UInt8)
    (hstop : ∀ c ∈ decodeText stop, isSpace c = true) :
    readLine (encode (chars (messageLine snap)) ++ stop) = snap.map Snapshot.value := by
  obtain ⟨c, s, d, hline, hc, hd⟩ := message_ends snap
  have hstrip : strip (messageLine snap ++ decodeText stop) = messageLine snap := by
    refine stripBy_append ?_ ?_ hstop ?_
    · rw [hline]
      exact fun a ha => by rw [← Option.some.inj ha, hc]
    · rw [hline, ← List.cons_append, List.getLast?_concat]
      exact fun a ha => by rw [← Option.some.inj ha, hd]
    · rw [hline]
      exact List.cons_ne_nil _ _
  rw [readLine, decodeText_encode h, hstrip]
  cases snap with
  | none => rfl
  | some snap =>
    have hpre : (pyStr "data: ").isPrefixOf (messageLine (some snap)) = true :=
      List.isPrefixOf_iff_prefix.mpr (List.prefix_append _ _)
    rw [lineValue, if_pos hpre, messageLine, List.drop_left]
    exact Json.loads_dumps _ snap.ok

theorem lineEnd_blank : ∀ c ∈ decodeText [10], isSpace c = true := by
  have hdecoded : decodeText [10] = [codePoint '\n'] := rfl
  rw [hdecoded]
  exact List.forall_mem_singleton.mpr rfl

theorem message_some (h : encodable (messageLine snap) = true) :
    encode (chars (messageLine snap)) ≠ [] := by
  intro hnil
  obtain ⟨c, s, d, hline, -⟩ := message_ends snap
  have hdecoded := decodeText_encode h []
  rw [hnil, hline] at hdecoded
  cases hdecoded

/-- A text that does not start as the data lines do. -/
theorem lineValue_of_head {line : PyStr} (h : codePoint 'd' ∉ line.head?) :
    lineValue line = none := by
  rw [lineValue, if_neg]
  intro hpre
  obtain ⟨t, rfl⟩ := List.isPrefixOf_iff_prefix.mp hpre
  exact h rfl

/-- What a beginning of a line is stripped to. -/
theorem strip_beginning {p q : PyStr} {c : CodePoint} (h : p ++ c :: q = messageLine snap) :
    strip p <+: p := by
  refine stripBy_prefix fun a ha => ?_
  obtain ⟨d, s, e, hline, hd, -⟩ := message_ends snap
  cases p with
  | nil => cases ha
  | cons b p =>
    rw [hline] at h
    rw [← Option.some.inj ha, (List.cons.inj h).1, hd]

/-- A line that is cut off publishes nothing, wherever it is cut. -/
theorem lineValue_cut {p q : PyStr} {c : CodePoint} (h : p ++ c :: q = messageLine snap) :
    lineValue (strip p) = none := by
  obtain ⟨t, ht⟩ := strip_beginning h
  cases snap with
  | none =>
    refine lineValue_of_head fun hd => ?_
    have hhead : (p ++ c :: q).head? = some (codePoint ':') := by
      rw [h]
      rfl
    rw [← ht, List.append_assoc, List.head?_append, hd] at hhead
    exact absurd (Option.some.inj hhead) (by decide)
  | some snap =>
    rw [lineValue]
    split_ifs with hpre
    · obtain ⟨d, hd⟩ := List.isPrefixOf_iff_prefix.mp hpre
      rw [← ht, ← hd, List.append_assoc, List.append_assoc] at h
      rw [← hd, List.drop_left]
      exact Json.loads_beginning _ snap.ok (List.append_cancel_left h)
        (List.append_ne_nil_of_right_ne_nil t (List.cons_ne_nil c q))
    · rfl

theorem lineValue_cut_character {p q : PyStr} {c : CodePoint}
    (h : p ++ c :: q = messageLine snap) :
    lineValue (strip (p ++ [codePoint replacement])) = none := by
  obtain ⟨d, s, e, hline, hd, -⟩ := message_ends snap
  have hself : strip (p ++ [codePoint replacement]) = p ++ [codePoint replacement] := by
    refine stripBy_eq_self (fun a ha => ?_) fun a ha => ?_
    · cases p with
      | nil =>
        rw [← Option.some.inj ha]
        rfl
      | cons b p =>
        rw [hline] at h
        rw [← Option.some.inj ha, (List.cons.inj h).1, hd]
    · rw [List.getLast?_concat] at ha
      rw [← Option.some.inj ha]
      rfl
  rw [hself]
  cases snap with
  | none =>
    refine lineValue_of_head ?_
    cases p with
    | nil => decide
    | cons b p =>
      have hb : b = codePoint ':' := (List.cons.inj h).1
      rw [hb]
      exact fun hmem => absurd (Option.some.inj hmem) (by decide)
  | some snap =>
    rw [lineValue]
    split_ifs with hpre
    · obtain ⟨u, hu⟩ := List.isPrefixOf_iff_prefix.mp hpre
      rw [← hu, List.drop_left]
      rcases List.eq_nil_or_concat u with rfl | ⟨u, x, rfl⟩
      · -- the replacement character would be the blank
        rfl
      · rw [List.concat_eq_append, ← List.append_assoc] at hu
        obtain ⟨hp, hx⟩ := List.append_inj' hu rfl
        rw [List.concat_eq_append, List.singleton_inj.mp hx]
        cases u with
        | nil => rfl
        | cons b u =>
          obtain ⟨t, ht⟩ := Json.dumps_dict Storage.spaced snap.fields
          rw [← hp, List.append_assoc, messageLine, Snapshot.value, ht] at h
          have hb : b = Json.openDict := (List.cons.inj (List.append_cancel_left h)).1
          rw [hb]
          exact Json.loads_end (by decide) (by decide)
    · rfl

end Message

-- ============================================================================
-- The whole stream
-- ============================================================================

section Stream

variable {snap : Option Snapshot} {snaps : List (Option Snapshot)} {received bytes : List UInt8}

/-- What is published of the messages. -/
def values (snaps : List (Option Snapshot)) : List Json :=
  snaps.filterMap fun snap => snap.map Snapshot.value

theorem written_cons (h : snapshotSseMessage snap = some bytes) :
    written (snap :: snaps) = bytes ++ written snaps := by
  rw [written, h]

theorem sendable_cons (h : snapshotSseMessage snap = some bytes) :
    sendable (snap :: snaps) = snap :: sendable snaps :=
  List.takeWhile_cons_of_pos (by rw [h]; rfl)

/-- A line that has come in whole gives the snapshot of its message. -/
theorem filterMap_whole {raw : List UInt8} {lines : List (List UInt8)}
    (h : readLine raw = snap.map Snapshot.value) :
    (raw :: lines).filterMap readLine = values [snap] ++ lines.filterMap readLine := by
  rw [List.filterMap_cons, h]
  cases snap with
  | none => rfl
  | some snap => rfl

/-- A message that has come in whole is published, and then what follows it. -/
theorem published_message (h : snapshotSseMessage snap = some bytes) :
    published (bytes ++ received) = values [snap] ++ published received := by
  obtain ⟨hencodable, rfl⟩ := snapshotSseMessage_eq_some h
  have hlines : rawLines (encode (chars (messageLine snap)) ++ [10, 10] ++ received) =
      (encode (chars (messageLine snap)) ++ [10]) :: [10] :: rawLines received := by
    rw [List.append_assoc, List.cons_append, rawLines_line (not_mem_message hencodable)]
    rfl
  have hblank : readLine [10] = none := rfl
  have hread := readLine_whole hencodable [10] lineEnd_blank
  rw [published, hlines, filterMap_whole hread, List.filterMap_cons_none hblank, ← published]

/-- Of a message that is cut off, its snapshot is published once its line is there. -/
theorem published_cut (h : snapshotSseMessage snap = some bytes) (hcut : received <+: bytes)
    (hne : received ≠ bytes) : published received = [] ∨ published received = values [snap] := by
  obtain ⟨hencodable, rfl⟩ := snapshotSseMessage_eq_some h
  have hclean := not_mem_message hencodable
  rcases List.prefix_or_prefix_of_prefix hcut (List.prefix_append _ _) with hline | hline
  · rcases decodeReplace_cut _ hline with rfl | ⟨p, c, q, hpq, hdecoded⟩
    · -- the line without its line end
      right
      have hread := readLine_whole hencodable [] (List.forall_mem_nil _)
      rw [List.append_nil] at hread
      rw [published, rawLines_open hclean (message_some hencodable), filterMap_whole hread]
      exact List.append_nil _
    · left
      by_cases hnil : received = []
      · rw [hnil]
        rfl
      · have hnone : readLine received = none := by
          have hline' : p.map codePoint ++ codePoint c :: q.map codePoint = messageLine snap := by
            rw [← codePoint_chars hencodable, hpq, List.map_append, List.map_cons]
          rw [readLine, decodeText]
          rcases hdecoded with hdecoded | hdecoded
          · rw [hdecoded]
            exact lineValue_cut hline'
          · rw [hdecoded, List.map_append]
            exact lineValue_cut_character hline'
        rw [published, rawLines_open (fun hmem => hclean (hline.subset hmem)) hnil,
          List.filterMap_cons_none hnone]
        rfl
  · -- the line, and one line end or none
    right
    obtain ⟨t, rfl⟩ := hline
    obtain ⟨u, hu⟩ := (List.prefix_append_right_inj _).mp hcut
    have ht : t = [] ∨ t = [10] := by
      match t with
      | [] => exact .inl rfl
      | [a] => exact .inr (by rw [(List.cons.inj hu).1])
      | [a, b] =>
        obtain ⟨rfl, hrest⟩ := List.cons.inj hu
        obtain ⟨rfl, -⟩ := List.cons.inj hrest
        exact absurd rfl hne
      | a :: b :: c :: t =>
        have hlength := congrArg List.length hu
        simp only [List.length_append, List.length_cons, List.length_nil] at hlength
        omega
    have hlines : rawLines (encode (chars (messageLine snap)) ++ t) =
        [encode (chars (messageLine snap)) ++ t] := by
      rcases ht with rfl | rfl
      · rw [List.append_nil]
        exact rawLines_open hclean (message_some hencodable)
      · exact rawLines_line hclean
    have hstop : ∀ c ∈ decodeText t, isSpace c = true := by
      rcases ht with rfl | rfl
      · exact List.forall_mem_nil _
      · exact lineEnd_blank
    rw [published, hlines, filterMap_whole (readLine_whole hencodable t hstop)]
    exact List.append_nil _

/-- The snapshots are published in the order of their messages, and no other: of what the analyzer
    writes, however much of it comes in. -/
theorem published_sent (snaps : List (Option Snapshot)) (received : List UInt8)
    (h : received <+: written snaps) :
    ∃ k ≤ (sendable snaps).length, published received = values ((sendable snaps).take k) ∧
      ∀ j ≤ (sendable snaps).length, written ((sendable snaps).take j) <+: received → j ≤ k := by
  induction snaps generalizing received with
  | nil =>
    rw [List.prefix_nil.mp h]
    exact ⟨0, Nat.zero_le _, rfl, fun j hj _ => hj⟩
  | cons snap snaps ih =>
    cases hmessage : snapshotSseMessage snap with
    | none =>
      -- the encoder has ended the loop
      have hsendable : sendable (snap :: snaps) = [] :=
        List.takeWhile_cons_of_neg (by rw [hmessage]; exact Bool.false_ne_true)
      rw [written, hmessage] at h
      rw [List.prefix_nil.mp h, hsendable]
      exact ⟨0, Nat.zero_le _, rfl, fun j hj _ => hj⟩
    | some bytes =>
      rw [written_cons hmessage] at h
      rw [sendable_cons hmessage, List.length_cons]
      by_cases hwhole : bytes <+: received
      · obtain ⟨received, rfl⟩ := hwhole
        obtain ⟨k, hk, hpublished, hmost⟩ := ih received ((List.prefix_append_right_inj _).mp h)
        refine ⟨k + 1, Nat.succ_le_succ hk, ?_, fun j hj hcame => ?_⟩
        · rw [published_message hmessage, hpublished, List.take_succ_cons, values, values, values,
            ← List.filterMap_append]
          rfl
        · cases j with
          | zero => exact Nat.zero_le _
          | succ j =>
            rw [List.take_succ_cons, written_cons hmessage] at hcame
            have hcame' := (List.prefix_append_right_inj _).mp hcame
            exact Nat.succ_le_succ (hmost j (Nat.le_of_succ_le_succ hj) hcame')
      · have hcut : received <+: bytes :=
          (List.prefix_or_prefix_of_prefix h (List.prefix_append _ _)).resolve_right hwhole
        have hne : received ≠ bytes := by
          rintro rfl
          exact hwhole (List.prefix_refl _)
        have hnone : ∀ j, written ((snap :: sendable snaps).take j) <+: received → j = 0 := by
          intro j hcame
          cases j with
          | zero => rfl
          | succ j =>
            rw [List.take_succ_cons, written_cons hmessage] at hcame
            exact absurd ((List.prefix_append _ _).trans hcame) hwhole
        rcases published_cut hmessage hcut hne with hpublished | hpublished
        · exact ⟨0, Nat.zero_le _, hpublished, fun j _ hcame => Nat.le_of_eq (hnone j hcame)⟩
        · refine ⟨1, Nat.succ_le_succ (Nat.zero_le _), ?_, fun j _ hcame => ?_⟩
          · rw [hpublished, List.take_succ_cons, List.take_zero]
          · rw [hnone j hcame]
            exact Nat.zero_le _

end Stream

-- ============================================================================
-- A connection that ends
-- ============================================================================

/-- A snapshot with a character of two bytes. -/
abbrev accented : Snapshot where
  fields := [(pyStr "infer_raw", .str (pyStr "é"))]
  ok := by decide

/-- The second message ends between the two bytes. -/
abbrev cutStream : List UInt8 := (written [some accented, some accented]).take 49

theorem published_sent_cut : ∃ k ≤ (sendable [some accented, some accented]).length,
    published cutStream = values ((sendable [some accented, some accented]).take k) ∧
      ∀ j ≤ (sendable [some accented, some accented]).length,
        written ((sendable [some accented, some accented]).take j) <+: cutStream → j ≤ k :=
  published_sent _ _ (List.take_prefix _ _)

end Babycat.Monitor
