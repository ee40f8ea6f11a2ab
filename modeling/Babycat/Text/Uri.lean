/-
  Babycat.Text.Uri

  The generic grammar of URIs, for those with an authority.

  `parse` splits a text at its delimiters and checks every part;
  `parse_eq_some` says that it finds the parts, and the only ones, of which the
  text is made up.  Behind a scheme, two slashes always start an authority.
-/

import Babycat.Text.JsonNumber
import Babycat.Text.JsonText
import Babycat.Text.Url

namespace Babycat.Text.Uri

open Json (isDigit digitsValue)

-- ============================================================================
-- Characters
-- ============================================================================

def colon : CodePoint := codePoint ':'
def slash : CodePoint := codePoint '/'
def atSign : CodePoint := codePoint '@'
def question : CodePoint := codePoint '?'
def hash : CodePoint := codePoint '#'
def percent : CodePoint := codePoint '%'
def openBracket : CodePoint := codePoint '['
def closeBracket : CodePoint := codePoint ']'

def isAlpha (c : CodePoint) : Bool := (65 ≤ c.val && c.val ≤ 90) || (97 ≤ c.val && c.val ≤ 122)

def isHex (c : CodePoint) : Bool := (Json.hexDigit c).isSome

def unreserved (c : CodePoint) : Bool := alwaysSafe c.val

def subDelims : PyStr := pyStr "!$&'()*+,;="

/-- What a registered name and a user may hold besides escapes. -/
def nameChar (c : CodePoint) : Bool := unreserved c || subDelims.contains c

def userChar (c : CodePoint) : Bool := nameChar c || c = colon

def pathChar (c : CodePoint) : Bool := nameChar c || c = colon || c = atSign || c = slash

def queryChar (c : CodePoint) : Bool := pathChar c || c = question

/-- A text of some characters and of escapes, each a percent sign with two digits. -/
def encoded (plain : CodePoint → Bool) : PyStr → Bool
  | [] => true
  | c :: a :: b :: rest =>
      if c = percent then isHex a && isHex b && encoded plain rest
      else plain c && encoded plain (a :: b :: rest)
  | c :: rest => plain c && encoded plain rest

section Encoded

variable {plain : CodePoint → Bool} {c : CodePoint} {s rest : PyStr}

theorem encoded_cons (hc : c ≠ percent) :
    encoded plain (c :: rest) = (plain c && encoded plain rest) := by
  cases rest with
  | nil => rfl
  | cons a rest =>
    cases rest with
    | nil => rfl
    | cons b rest => rw [encoded, if_neg hc]

theorem encoded_percent {a b : CodePoint} :
    encoded plain (percent :: a :: b :: rest) = (isHex a && isHex b && encoded plain rest) := by
  rw [encoded, if_pos rfl]

end Encoded

-- ============================================================================
-- Hosts
-- ============================================================================

/-- A number up to 255 without leading zeros. -/
def decOctet (s : PyStr) : Bool :=
  s != [] && s.all isDigit && (s.length == 1 || s.head? != some (codePoint '0')) &&
    digitsValue s ≤ 255

def ipv4 (s : PyStr) : Bool :=
  let parts := s.splitOn (codePoint '.')
  parts.length == 4 && parts.all decOctet

/-- Sixteen bits in hexadecimal digits. -/
def h16 (s : PyStr) : Bool := 1 ≤ s.length && s.length ≤ 4 && s.all isHex

/-- The number of groups of sixteen bits; the last two may be an address of version 4. -/
def groups (last : Bool) (s : PyStr) : Option ℕ :=
  if s = [] then some 0
  else
    let parts := s.splitOn colon
    let final := parts.getLast?.getD []
    if !parts.dropLast.all h16 then none
    else if h16 final then some parts.length
    else if last && ipv4 final then some (parts.length + 1)
    else none

/-- The texts around the first two colons in a row. -/
def splitZeros : PyStr → Option (PyStr × PyStr)
  | c :: d :: rest =>
      if c = colon && d = colon then some ([], rest)
      else (splitZeros (d :: rest)).map fun r => (c :: r.1, r.2)
  | _ => none

def ipv6 (s : PyStr) : Bool :=
  match splitZeros s with
  | none => groups true s == some 8
  | some (left, right) =>
      match groups false left, groups true right with
      | some m, some n => m + n ≤ 7
      | _, _ => false

def ipvFuture : PyStr → Bool
  | [] => false
  | c :: rest =>
      (c = codePoint 'v' || c = codePoint 'V') && rest.takeWhile isHex != [] &&
        match rest.dropWhile isHex with
        | d :: tail => d = codePoint '.' && tail != [] && tail.all userChar
        | [] => false

/-- An address in brackets; all its characters may stand in a user, too. -/
def ipLiteral (s : PyStr) : Bool :=
  match s with
  | [] => false
  | c :: rest =>
      c = openBracket && rest.getLast? == some closeBracket && rest.dropLast.all userChar &&
        (ipv6 rest.dropLast || ipvFuture rest.dropLast)

def isHost (s : PyStr) : Bool := ipLiteral s || encoded nameChar s

-- ============================================================================
-- The parts of a URI
-- ============================================================================

structure Parts where
  scheme : PyStr
  userinfo : Option PyStr
  host : PyStr
  port : Option PyStr
  path : PyStr
  query : Option PyStr
  fragment : Option PyStr
  deriving DecidableEq

def isScheme : PyStr → Bool
  | [] => false
  | c :: rest =>
      isAlpha c && rest.all fun c => isAlpha c || isDigit c || (pyStr "+-.").contains c

def isPort (s : PyStr) : Bool := s.all isDigit

/-- Segments, each behind a slash. -/
def isPath (s : PyStr) : Bool := encoded pathChar s && (s == [] || s.head? == some slash)

namespace Parts

/-- Every part is of its kind. -/
def WellFormed (u : Parts) : Prop :=
  isScheme u.scheme = true ∧ (∀ s ∈ u.userinfo, encoded userChar s = true) ∧
    isHost u.host = true ∧ (∀ s ∈ u.port, isPort s = true) ∧ isPath u.path = true ∧
    (∀ s ∈ u.query, encoded queryChar s = true) ∧ ∀ s ∈ u.fragment, encoded queryChar s = true

instance (u : Parts) : Decidable u.WellFormed := by
  unfold WellFormed
  infer_instance

/-- A part with its delimiter, if it is there. -/
def behind (delimiter : CodePoint) : Option PyStr → PyStr
  | none => []
  | some s => delimiter :: s

def userText : Option PyStr → PyStr
  | none => []
  | some s => s ++ [atSign]

def authority (u : Parts) : PyStr := userText u.userinfo ++ (u.host ++ behind colon u.port)

/-- The URI that is made up of the parts. -/
def text (u : Parts) : PyStr :=
  u.scheme ++ colon :: slash :: slash ::
    (u.authority ++ (u.path ++ (behind question u.query ++ behind hash u.fragment)))

end Parts

-- ============================================================================
-- Splitting
-- ============================================================================

/-- The text up to a delimiter, and the rest from there on. -/
def splitAtDelimiter (delimiters : PyStr) (s : PyStr) : PyStr × PyStr :=
  (s.takeWhile fun c => !delimiters.contains c, s.dropWhile fun c => !delimiters.contains c)

/-- What is behind a delimiter. -/
def afterDelimiter (delimiter : CodePoint) : PyStr → Option PyStr
  | [] => none
  | c :: rest => if c = delimiter then some rest else none

/-- The user, and the rest of an authority. -/
def splitUser (s : PyStr) : Option PyStr × PyStr :=
  match splitAtDelimiter [atSign] s with
  | (_, []) => (none, s)
  | (user, _ :: rest) => (some user, rest)

/-- The host, and what is behind it. -/
def splitHost (s : PyStr) : PyStr × PyStr :=
  if s.head? = some openBracket then
    let r := splitAtDelimiter [closeBracket] s
    (r.1 ++ r.2.take 1, r.2.drop 1)
  else splitAtDelimiter [colon] s

/-- The parts between the delimiters. -/
def split (s : PyStr) : Option Parts :=
  let (scheme, s) := splitAtDelimiter [colon] s
  match s with
  | _ :: _ :: _ :: s =>
      let (authority, s) := splitAtDelimiter [slash, question, hash] s
      let (userinfo, hostPort) := splitUser authority
      let (host, behindHost) := splitHost hostPort
      let (path, s) := splitAtDelimiter [question, hash] s
      let (queryText, fragmentText) := splitAtDelimiter [hash] s
      some {
        scheme, userinfo, host, path
        port := afterDelimiter colon behindHost
        query := afterDelimiter question queryText
        fragment := afterDelimiter hash fragmentText }
  | _ => none

/-- The parts of a URI; none if the text is none. -/
def parse (s : PyStr) : Option Parts :=
  (split s).filter fun u => u.WellFormed ∧ u.text = s

-- ============================================================================
-- The delimiters are outside the parts
-- ============================================================================

section Delimiters

variable {plain : CodePoint → Bool} {delimiters s a b : PyStr} {c d : CodePoint}

/-- A character that is neither plain nor in an escape. -/
def foreign (plain : CodePoint → Bool) (d : CodePoint) : Bool :=
  !plain d && d != percent && !isHex d

theorem encoded_not_mem (h : encoded plain s = true) (hd : foreign plain d = true) : d ∉ s := by
  rw [foreign, Bool.and_eq_true, Bool.and_eq_true, Bool.not_eq_true', Bool.not_eq_true',
    bne_iff_ne] at hd
  obtain ⟨⟨hplain, hpercent⟩, hhex⟩ := hd
  have hne : ∀ {c}, plain c = true → d ≠ c := by
    rintro c hc rfl
    rw [hplain] at hc
    cases hc
  have hneHex : ∀ {c}, isHex c = true → d ≠ c := by
    rintro c hc rfl
    rw [hhex] at hc
    cases hc
  fun_induction encoded plain s with
  | case1 => exact List.not_mem_nil
  | case2 a b rest ih =>
    rw [Bool.and_eq_true, Bool.and_eq_true] at h
    obtain ⟨⟨ha, hb⟩, hrest⟩ := h
    exact List.not_mem_cons_of_ne_of_not_mem hpercent
      (List.not_mem_cons_of_ne_of_not_mem (hneHex ha)
        (List.not_mem_cons_of_ne_of_not_mem (hneHex hb) (ih hrest)))
  | case3 c a b rest hc ih | case4 c rest hshape ih =>
    rw [Bool.and_eq_true] at h
    exact List.not_mem_cons_of_ne_of_not_mem (hne h.1) (ih h.2)

/-- Where the first delimiter starts the rest, the text is split there. -/
theorem splitAtDelimiter_append (ha : ∀ d ∈ delimiters, d ∉ a)
    (hb : ∀ c ∈ b.head?, c ∈ delimiters) : splitAtDelimiter delimiters (a ++ b) = (a, b) := by
  have hall : ∀ c ∈ a, (!delimiters.contains c) = true := by
    intro c hc
    rw [Bool.not_eq_true', List.contains_eq_mem, decide_eq_false_iff_not]
    exact fun hmem => ha c hmem hc
  rw [splitAtDelimiter, List.takeWhile_append_of_pos hall, List.dropWhile_append_of_pos hall]
  cases b with
  | nil => rw [List.takeWhile_nil, List.dropWhile_nil, List.append_nil]
  | cons c b =>
    have hc : (!delimiters.contains c) = false := by
      rw [Bool.not_eq_false', List.contains_eq_mem, decide_eq_true_iff]
      exact hb c rfl
    rw [List.takeWhile_cons, List.dropWhile_cons, hc, if_neg Bool.false_ne_true,
      if_neg Bool.false_ne_true, List.append_nil]

theorem afterDelimiter_behind (delimiter : CodePoint) (part : Option PyStr) :
    afterDelimiter delimiter (Parts.behind delimiter part) = part := by
  cases part with
  | none => rfl
  | some s => exact if_pos rfl

theorem behind_head {delimiter : CodePoint} {part : Option PyStr} :
    ∀ c ∈ (Parts.behind delimiter part).head?, c = delimiter := by
  intro c hc
  cases part with
  | none => cases hc
  | some s => exact (Option.some.inj hc).symm

theorem behind_not_mem {delimiter d : CodePoint} {part : Option PyStr} (hne : d ≠ delimiter)
    (h : ∀ s ∈ part, d ∉ s) : d ∉ Parts.behind delimiter part := by
  cases part with
  | none => exact List.not_mem_nil
  | some s => exact List.not_mem_cons_of_ne_of_not_mem hne (h s rfl)

theorem all_not_mem {p : CodePoint → Bool} (h : s.all p = true) (hd : p d = false) : d ∉ s := by
  intro hmem
  rw [List.all_eq_true.mp h d hmem] at hd
  cases hd

end Delimiters

section Hosts

variable {s : PyStr} {d : CodePoint}

/-- An address in brackets: what is between them has none. -/
theorem ipLiteral_spec (h : ipLiteral s = true) :
    ∃ inner, s = openBracket :: (inner ++ [closeBracket]) ∧ inner.all userChar = true := by
  cases s with
  | nil => cases h
  | cons c rest =>
    rw [ipLiteral, Bool.and_eq_true, Bool.and_eq_true, Bool.and_eq_true, decide_eq_true_iff,
      beq_iff_eq] at h
    obtain ⟨⟨⟨rfl, hlast⟩, hinner⟩, -⟩ := h
    refine ⟨rest.dropLast, ?_, hinner⟩
    rw [List.dropLast_append_getLast? closeBracket hlast]

/-- No delimiter of an authority or behind it is in a host. -/
theorem isHost_not_mem (h : isHost s = true) (hd : foreign userChar d = true)
    (hopen : d ≠ openBracket) (hclose : d ≠ closeBracket) : d ∉ s := by
  have huser : userChar d = false := by
    rw [foreign, Bool.and_eq_true, Bool.and_eq_true, Bool.not_eq_true'] at hd
    exact hd.1.1
  have hname : foreign nameChar d = true := by
    rw [foreign, Bool.and_eq_true, Bool.and_eq_true, Bool.not_eq_true'] at hd ⊢
    rw [userChar, Bool.or_eq_false_iff] at huser
    exact ⟨⟨huser.1, hd.1.2⟩, hd.2⟩
  rw [isHost, Bool.or_eq_true] at h
  rcases h with hliteral | hname'
  · obtain ⟨inner, rfl, hinner⟩ := ipLiteral_spec hliteral
    intro hmem
    rcases List.mem_cons.mp hmem with heq | hmem
    · exact hopen heq
    rcases List.mem_append.mp hmem with hmem | hmem
    · exact all_not_mem hinner huser hmem
    · exact hclose (List.mem_singleton.mp hmem)
  · exact encoded_not_mem hname' hname

/-- The host ends at its bracket or at the colon of the port. -/
theorem splitHost_append (h : isHost s = true) (port : Option PyStr) :
    splitHost (s ++ Parts.behind colon port) = (s, Parts.behind colon port) := by
  rw [isHost, Bool.or_eq_true] at h
  rw [splitHost]
  by_cases hliteral : ipLiteral s = true
  · obtain ⟨inner, rfl, hinner⟩ := ipLiteral_spec hliteral
    have hsplit : splitAtDelimiter [closeBracket]
        (openBracket :: inner ++ (closeBracket :: Parts.behind colon port)) =
          (openBracket :: inner, closeBracket :: Parts.behind colon port) := by
      refine splitAtDelimiter_append ?_ ?_
      · rw [List.forall_mem_singleton]
        exact List.not_mem_cons_of_ne_of_not_mem (by decide) (all_not_mem hinner (by decide))
      · intro c hc
        exact List.mem_singleton.mpr (Option.some.inj hc).symm
    have htext : openBracket :: (inner ++ [closeBracket]) ++ Parts.behind colon port =
        openBracket :: inner ++ (closeBracket :: Parts.behind colon port) := by
      rw [List.cons_append, List.append_assoc, List.singleton_append, List.cons_append]
    rw [htext, hsplit]
    rfl
  · have hname : encoded nameChar s = true := h.resolve_left hliteral
    have hhead : (s ++ Parts.behind colon port).head? ≠ some openBracket := by
      intro hhead
      have hmem := List.mem_of_mem_head? hhead
      rcases List.mem_append.mp hmem with hmem | hmem
      · exact encoded_not_mem hname (by decide) hmem
      · cases s with
        | nil =>
          have hcolon : openBracket = colon := behind_head openBracket hhead
          exact absurd hcolon (by decide)
        | cons c s =>
          have hc : c = openBracket := Option.some.inj hhead
          rw [hc] at hname
          exact encoded_not_mem hname (by decide) List.mem_cons_self
    rw [if_neg hhead]
    refine splitAtDelimiter_append ?_ ?_
    · rw [List.forall_mem_singleton]
      exact encoded_not_mem hname (by decide)
    · exact fun c hc => List.mem_singleton.mpr (behind_head c hc)

end Hosts

-- ============================================================================
-- A URI has one set of parts
-- ============================================================================

section Parse

variable {u : Parts} {s : PyStr}

theorem splitUser_append {userinfo : Option PyStr} {rest : PyStr}
    (huser : ∀ x ∈ userinfo, encoded userChar x = true) (hrest : atSign ∉ rest) :
    splitUser (Parts.userText userinfo ++ rest) = (userinfo, rest) := by
  cases userinfo with
  | none =>
    have hsplit : splitAtDelimiter [atSign] (rest ++ []) = (rest, []) :=
      splitAtDelimiter_append (by rwa [List.forall_mem_singleton]) fun c hc => by cases hc
    rw [List.append_nil] at hsplit
    rw [Parts.userText, List.nil_append, splitUser, hsplit]
  | some user =>
    have hsplit : splitAtDelimiter [atSign] (user ++ atSign :: rest) = (user, atSign :: rest) := by
      refine splitAtDelimiter_append ?_ ?_
      · rw [List.forall_mem_singleton]
        exact encoded_not_mem (huser user rfl) (by decide)
      · intro c hc
        exact List.mem_singleton.mpr (Option.some.inj hc).symm
    rw [Parts.userText, List.append_assoc, List.singleton_append, splitUser, hsplit]

theorem isScheme_not_mem {s : PyStr} (h : isScheme s = true) : colon ∉ s := by
  cases s with
  | nil => exact List.not_mem_nil
  | cons c rest =>
    rw [isScheme, Bool.and_eq_true] at h
    refine List.not_mem_cons_of_ne_of_not_mem ?_ (all_not_mem h.2 (by decide))
    rintro rfl
    exact absurd h.1 (by decide)

theorem authority_not_mem {d : CodePoint} (h : u.WellFormed) (hd : foreign userChar d = true)
    (hsigns : d ∉ [atSign, colon, openBracket, closeBracket]) (hdigit : isDigit d = false) :
    d ∉ u.authority := by
  obtain ⟨-, huser, hhost, hport, -⟩ := h
  simp only [List.mem_cons, List.not_mem_nil, or_false, not_or] at hsigns
  obtain ⟨hat, hcolon, hopen, hclose⟩ := hsigns
  intro hmem
  rcases List.mem_append.mp hmem with hmem | hmem
  · cases huserinfo : u.userinfo with
    | none =>
      rw [huserinfo] at hmem
      exact absurd hmem List.not_mem_nil
    | some user =>
      rw [huserinfo] at hmem
      rcases List.mem_append.mp hmem with hmem | hmem
      · exact encoded_not_mem (huser user huserinfo) hd hmem
      · exact hat (List.mem_singleton.mp hmem)
  rcases List.mem_append.mp hmem with hmem | hmem
  · exact isHost_not_mem hhost hd hopen hclose hmem
  · exact behind_not_mem hcolon (fun s hs => all_not_mem (hport s hs) hdigit) hmem

theorem head_append {a b : PyStr} {delimiters : PyStr} (ha : ∀ c ∈ a.head?, c ∈ delimiters)
    (hb : ∀ c ∈ b.head?, c ∈ delimiters) : ∀ c ∈ (a ++ b).head?, c ∈ delimiters := by
  intro c hc
  cases a with
  | nil => exact hb c hc
  | cons d a => exact ha c hc

theorem isPath_head {s : PyStr} (h : isPath s = true) : ∀ c ∈ s.head?, c = slash := by
  intro c hc
  rw [isPath, Bool.and_eq_true, Bool.or_eq_true, beq_iff_eq, beq_iff_eq] at h
  rcases h.2 with hnil | hhead
  · rw [hnil] at hc
    cases hc
  · rw [hhead] at hc
    exact (Option.some.inj hc).symm

/-- The parts are found at their delimiters. -/
theorem split_text (h : u.WellFormed) : split u.text = some u := by
  obtain ⟨hscheme, huser, hhost, hport, hpath, hquery, hfragment⟩ := h
  have hencoded : encoded pathChar u.path = true := by
    rw [isPath, Bool.and_eq_true] at hpath
    exact hpath.1
  have hfragmentHead : ∀ c ∈ (Parts.behind hash u.fragment).head?, c ∈ [hash] :=
    fun c hc => List.mem_singleton.mpr (behind_head c hc)
  have hqueryHead : ∀ c ∈ (Parts.behind question u.query ++ Parts.behind hash u.fragment).head?,
      c ∈ [question, hash] := by
    refine head_append (fun c hc => ?_) fun c hc => List.mem_cons_of_mem _ (hfragmentHead c hc)
    rw [behind_head c hc]
    exact List.mem_cons_self
  have hpathHead : ∀ c ∈ (u.path ++ (Parts.behind question u.query ++
      Parts.behind hash u.fragment)).head?, c ∈ [slash, question, hash] := by
    refine head_append (fun c hc => ?_) fun c hc => List.mem_cons_of_mem _ (hqueryHead c hc)
    rw [isPath_head hpath c hc]
    exact List.mem_cons_self
  have hsplitScheme : splitAtDelimiter [colon] u.text = (u.scheme, colon :: slash :: slash ::
      (u.authority ++ (u.path ++ (Parts.behind question u.query ++
        Parts.behind hash u.fragment)))) := by
    refine splitAtDelimiter_append ?_ fun c hc => List.mem_singleton.mpr (Option.some.inj hc).symm
    rw [List.forall_mem_singleton]
    exact isScheme_not_mem hscheme
  have hsplitAuthority : splitAtDelimiter [slash, question, hash] (u.authority ++ (u.path ++
      (Parts.behind question u.query ++ Parts.behind hash u.fragment))) =
        (u.authority, u.path ++ (Parts.behind question u.query ++
          Parts.behind hash u.fragment)) := by
    refine splitAtDelimiter_append ?_ hpathHead
    have hwell : u.WellFormed := ⟨hscheme, huser, hhost, hport, hpath, hquery, hfragment⟩
    simp only [List.forall_mem_cons]
    exact ⟨authority_not_mem hwell (by decide) (by decide) (by decide),
      authority_not_mem hwell (by decide) (by decide) (by decide),
      authority_not_mem hwell (by decide) (by decide) (by decide), List.forall_mem_nil _⟩
  have hsplitUser : splitUser u.authority = (u.userinfo, u.host ++ Parts.behind colon u.port) := by
    refine splitUser_append huser fun hmem => ?_
    rcases List.mem_append.mp hmem with hmem | hmem
    · exact isHost_not_mem hhost (by decide) (by decide) (by decide) hmem
    · exact behind_not_mem (by decide) (fun s hs => all_not_mem (hport s hs) (by decide)) hmem
  have hsplitPath : splitAtDelimiter [question, hash] (u.path ++ (Parts.behind question u.query ++
      Parts.behind hash u.fragment)) = (u.path, Parts.behind question u.query ++
        Parts.behind hash u.fragment) := by
    refine splitAtDelimiter_append ?_ hqueryHead
    simp only [List.forall_mem_cons]
    exact ⟨encoded_not_mem hencoded (by decide), encoded_not_mem hencoded (by decide),
      List.forall_mem_nil _⟩
  have hsplitQuery : splitAtDelimiter [hash] (Parts.behind question u.query ++
      Parts.behind hash u.fragment) =
        (Parts.behind question u.query, Parts.behind hash u.fragment) := by
    refine splitAtDelimiter_append ?_ hfragmentHead
    rw [List.forall_mem_singleton]
    exact behind_not_mem (by decide) fun s hs => encoded_not_mem (hquery s hs) (by decide)
  simp only [split, hsplitScheme, hsplitAuthority, hsplitUser, splitHost_append hhost, hsplitPath,
    hsplitQuery, afterDelimiter_behind]

/-- What is parsed is a URI of these parts. -/
theorem parse_eq_some : parse s = some u ↔ u.WellFormed ∧ u.text = s := by
  rw [parse, Option.filter_eq_some_iff, decide_eq_true_iff]
  constructor
  · exact fun h => h.2
  · intro h
    refine ⟨?_, h⟩
    rw [← h.2]
    exact split_text h.1

end Parse

end Babycat.Text.Uri
