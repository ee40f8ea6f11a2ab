/-
  Babycat.Recorder.ResolveClip

  The file that a clip name of a request stands for (`_resolve_clip`).

  The name is tried as the last component of a path, and then given to
  `rglob`, which reads it as a pattern.  A name with `*`, `?` or `[` that passes
  the checks of the endpoint takes the first clip that the pattern fits.  The
  recorder writes no such name, so every other request gets the clip it names
  or none (`Addresses`).
-/

import Babycat.Text.Wildcard
import Babycat.Recorder.ClipNames
import Babycat.Recorder.PartialContent

namespace Babycat.Recorder

open Babycat.Text Babycat.Time

-- ============================================================================
-- Glob patterns
-- ============================================================================

/-- What a request can raise on the way to its clip. -/
inductive ResolveError
  /-- `**` inside a component. -/
  | invalidPattern
  | nameTooLong
  deriving DecidableEq

/-- A member of a set. -/
inductive SetItem
  | single (c : Char)
  | range (low high : Char)
  deriving DecidableEq

namespace SetItem

/-- A range whose ends are the wrong way round. -/
def isEmpty : SetItem → Bool
  | single _ => false
  | range low high => high < low

def has (c : Char) : SetItem → Bool
  | single d => c == d
  | range low high => low ≤ c && c ≤ high

end SetItem

/-- The members of a set, one after the other. -/
def setItems : List Char → List SetItem
  | [] => []
  | low :: '-' :: high :: rest => .range low high :: setItems rest
  | c :: rest => .single c :: setItems rest

/-- Whether a set is inverted, and its members.  The empty ranges are left out first, and a `!`
    that comes to the front in this way inverts the set, too; if it begins a range, the hyphen and
    the end of the range are members. -/
def setMembers (body : List Char) : Bool × List SetItem :=
  match body with
  | '!' :: rest => (true, (setItems rest).filter fun item => !item.isEmpty)
  | body =>
      match (setItems body).filter fun item => !item.isEmpty with
      | .single '!' :: items => (true, items)
      | .range '!' high :: items => (true, .single '-' :: .single high :: items)
      | items => (false, items)

/-- `[body]` -/
def setPlace (body : List Char) : Wild Char :=
  let (inverted, items) := setMembers body
  .one fun c => items.any (SetItem.has c) != inverted

/-- The text in front of a `]`, and what is behind it. -/
def upToBracket (text : List Char) : Option (List Char × List Char) :=
  match text.dropWhile (· != ']') with
  | [] => none
  | _ :: rest => some (text.takeWhile (· != ']'), rest)

/-- The body of a set behind its `[`: a `]` in front belongs to it. -/
def setBody (text : List Char) : Option (List Char × List Char) :=
  match text with
  | '!' :: ']' :: text => (upToBracket text).map fun r => ('!' :: ']' :: r.1, r.2)
  | ']' :: text => (upToBracket text).map fun r => (']' :: r.1, r.2)
  | text => upToBracket text

/-- `fnmatch.translate`, one place after the other; a `[` that is not closed stands for itself. -/
def globPlaces : ℕ → List Char → List (Wild Char)
  | 0, _ => []
  | _ + 1, [] => []
  | n + 1, '*' :: rest => .many :: globPlaces n rest
  | n + 1, '?' :: rest => .one (fun _ => true) :: globPlaces n rest
  | n + 1, '[' :: rest =>
      match setBody rest with
      | some (body, rest) => setPlace body :: globPlaces n rest
      | none => .one (· == '[') :: globPlaces n rest
  | n + 1, c :: rest => .one (· == c) :: globPlaces n rest

/-- A component that is matched against the entries of a directory. -/
def isWildcardPattern (pattern : List Char) : Bool :=
  pattern.any fun c => c == '*' || c == '?' || c == '['

/-- The places of a component that is a pattern. -/
def compilePattern (pattern : List Char) : Except ResolveError (List (Wild Char)) :=
  if ['*', '*'] <:+: pattern then .error .invalidPattern
  else .ok (globPlaces pattern.length pattern)

-- ============================================================================
-- The clip tree
-- ============================================================================

/-- An entry of a directory, which is known by its path under `CLIP_DIR`. -/
structure TreeEntry where
  dir : List (List Char)
  name : List Char
  isFile : Bool
  deriving DecidableEq

/-- The suffix of a published clip. -/
def clipSuffix : List Char := ".mp4".toList

/-- A clip that is not in progress. -/
def TreeEntry.Published (e : TreeEntry) : Prop := e.isFile = true ∧ clipSuffix <:+ e.name

instance (e : TreeEntry) : Decidable e.Published := inferInstanceAs (Decidable (_ ∧ _))

/-- The file of a clip, by the local time and the milliseconds of its event: the directories
    are the year and the month. -/
def clipEntry (t : DateTime) (ms : ℤ) : TreeEntry where
  dir := [padInt 1 t.date.year, zeroPad 2 t.date.month]
  name := t.compact ++ '_' :: padInt 3 ms ++ clipSuffix
  isFile := true

/-- The longest name that a file can have, in bytes. -/
def nameMax : ℕ := 255

/-- Whether a file can have the name; a name that is too long raises. -/
def checkName (name : List Char) : Except ResolveError Bool :=
  if name.contains '\x00' then .ok false
  else if nameMax < (name.map Char.utf8Size).sum then .error .nameTooLong
  else .ok true

/-- What is under `CLIP_DIR`, in the order in which `rglob` comes to it: the clips are those that
    the recorder has published. -/
structure ClipTree where
  entries : List TreeEntry
  named : ∀ e ∈ entries, checkName e.name = .ok true
  recorded : ∀ e ∈ entries, e.Published → ∃ t ms, e = clipEntry t ms

namespace ClipTree

def isDir (tree : ClipTree) (dir : List (List Char)) : Bool :=
  dir.isEmpty || tree.entries.any fun e => !e.isFile && e.dir ++ [e.name] == dir

/-- `Path.exists` -/
def lookup (tree : ClipTree) (dir : List (List Char)) (name : List Char) :
    Except ResolveError (Option TreeEntry) :=
  if tree.isDir dir then
    (checkName name).map fun possible =>
      if possible then tree.entries.find? fun e => e.dir == dir && e.name == name else none
  else .ok none

/-- `rglob` with a single component. -/
def rglob (tree : ClipTree) (pattern : List Char) : Except ResolveError (List TreeEntry) :=
  if isWildcardPattern pattern then
    (compilePattern pattern).map fun ps => tree.entries.filter fun e => Wild.fits ps e.name
  else
    (checkName pattern).map fun possible =>
      if possible then tree.entries.filter fun e => e.name == pattern else []

end ClipTree

-- ============================================================================
-- The endpoint
-- ============================================================================

/-- The digits that are not decimal ones: superscripts, subscripts and circled numbers. -/
def otherDigits : List (ℕ × ℕ) :=
  [(178, 179), (185, 185), (4969, 4977), (6618, 6618), (8304, 8304), (8308, 8313), (8320, 8329),
    (9312, 9320), (9332, 9340), (9352, 9360), (9450, 9450), (9461, 9469), (9471, 9471),
    (10102, 10110), (10112, 10120), (10122, 10130), (68160, 68163), (69216, 69224),
    (69714, 69722), (127232, 127242)]

/-- `str.isdigit` of one character. -/
def isDigitChar (c : Char) : Bool :=
  isDecimal c || otherDigits.any fun r => decide (r.1 ≤ c.toNat ∧ c.toNat ≤ r.2)

/-- The names that are looked for at all. -/
def AcceptedName (name : List Char) : Prop :=
  clipSuffix <:+ name ∧ '/' ∉ name ∧ '\\' ∉ name ∧ ¬ "..".toList <:+: name

instance (name : List Char) : Decidable (AcceptedName name) :=
  inferInstanceAs (Decidable (_ ∧ _ ∧ _ ∧ _))

/-- The path that the date of a name leads to. -/
def ClipTree.byDate (tree : ClipTree) (name : List Char) :
    Except ResolveError (Option TreeEntry) :=
  if 8 ≤ name.length ∧ (name.take 8).all isDigitChar = true then
    (tree.lookup [name.take 4, (name.drop 4).take 2] name).map fun found =>
      found.filter TreeEntry.isFile
  else .ok none

/-- `_resolve_clip` -/
def resolveClip (tree : ClipTree) (name : List Char) : Except ResolveError (Option TreeEntry) :=
  if AcceptedName name then
    match tree.byDate name with
    | .error e => .error e
    | .ok (some e) => .ok (some e)
    | .ok none => (tree.rglob name).map (List.find? TreeEntry.isFile)
  else .ok none

/-- `get_clip` by name, in a tree whose files have the bytes `content`. -/
def getNamedClip (tree : ClipTree) (content : TreeEntry → List UInt8) (name : List Char)
    (rangeHeader : Option (List Char)) : ClipAnswer :=
  match resolveClip tree name with
  | .error _ => .raised
  | .ok found => getClip (found.map content) rangeHeader

namespace ClipTree

/-- The clip `e` and its sidecar. -/
def unlinkPair (tree : ClipTree) (e : TreeEntry) : ClipTree where
  entries := tree.entries.filter fun f => !f.isFile || (f != e &&
    !(f.dir == e.dir && f.name == e.name.take (e.name.length - 4) ++ ".json".toList))
  named f hf := tree.named f (List.mem_of_mem_filter hf)
  recorded f hf := tree.recorded f (List.mem_of_mem_filter hf)

/-- `delete_clips`: an exception leaves the rest of the names. -/
def deleteNamed (tree : ClipTree) : List (List Char) → ClipTree × Except ResolveError ℕ
  | [] => (tree, .ok 0)
  | name :: rest =>
      match resolveClip tree name with
      | .error e => (tree, .error e)
      | .ok none => tree.deleteNamed rest
      | .ok (some e) =>
          let r := (tree.unlinkPair e).deleteNamed rest
          (r.1, r.2.map (· + 1))

end ClipTree

-- ============================================================================
-- What a request means
-- ============================================================================

/-- The name stands for the clip of that name and for no other. -/
structure Exact (tree : ClipTree) (name : List Char) : Prop where
  own : ∀ e, resolveClip tree name = .ok (some e) →
    e ∈ tree.entries ∧ e.Published ∧ e.name = name
  found : ∀ e ∈ tree.entries, e.Published → e.name = name → resolveClip tree name = .ok (some e)

/-- The request deletes no clip but those it names. -/
def DeletesListed (tree : ClipTree) (names : List (List Char)) : Prop :=
  ∀ e ∈ tree.entries, e.Published → e ∉ (tree.deleteNamed names).1.entries → e.name ∈ names

/-- The date of the name leads to a directory in which no file can have it. -/
def RefusedByDate (tree : ClipTree) (name : List Char) : Prop :=
  8 ≤ name.length ∧ (name.take 8).all isDigitChar = true ∧
    tree.isDir [name.take 4, (name.drop 4).take 2] = true ∧ checkName name = .error .nameTooLong

/-- The name is not looked for, or it is no pattern, or no clip fits the pattern. -/
def Addresses (tree : ClipTree) (name : List Char) : Prop :=
  AcceptedName name → isWildcardPattern name = true → ¬ RefusedByDate tree name →
    ∀ ps, compilePattern name = .ok ps →
      ∀ e ∈ tree.entries, e.Published → Wild.fits ps e.name = false

-- ============================================================================
-- Patterns and the suffix
-- ============================================================================

/-- What a suffix does not contain stands in front of it. -/
theorem suffix_behind {xs a b : List Char} {c : Char} (h : xs <:+ a ++ c :: b) (hc : c ∉ xs) :
    xs <:+ b := by
  induction a with
  | nil =>
    rcases List.suffix_cons_iff.mp h with rfl | h
    · exact absurd List.mem_cons_self hc
    · exact h
  | cons d a ih =>
    rcases List.suffix_cons_iff.mp h with rfl | h
    · exact absurd (List.mem_cons_of_mem d (List.mem_append_right a List.mem_cons_self)) hc
    · exact ih h

theorem upToBracket_eq {text body rest : List Char} (h : upToBracket text = some (body, rest)) :
    text = body ++ ']' :: rest := by
  unfold upToBracket at h
  split at h
  · cases h
  · rename_i c rest' hdrop
    obtain ⟨rfl, rfl⟩ := Prod.mk.inj (Option.some.inj h)
    have hsplit := List.takeWhile_append_dropWhile (p := (· != ']')) (l := text)
    have hbracket : c = ']' := by
      have := List.head?_dropWhile_not (· != ']') text
      rw [hdrop] at this
      simpa using this
    rw [hdrop, hbracket] at hsplit
    exact hsplit.symm

theorem setBody_eq {text body rest : List Char} (h : setBody text = some (body, rest)) :
    ∃ pre, text = pre ++ ']' :: rest := by
  unfold setBody at h
  split at h
  · obtain ⟨r, hr, heq⟩ := Option.map_eq_some_iff.mp h
    obtain ⟨-, rfl⟩ := Prod.mk.inj heq
    exact ⟨'!' :: ']' :: r.1, by rw [upToBracket_eq hr]; rfl⟩
  · obtain ⟨r, hr, heq⟩ := Option.map_eq_some_iff.mp h
    obtain ⟨-, rfl⟩ := Prod.mk.inj heq
    exact ⟨']' :: r.1, by rw [upToBracket_eq hr]; rfl⟩
  · exact ⟨body, upToBracket_eq h⟩

theorem globPlaces_literal {n : ℕ} {c : Char} {rest : List Char} (hstar : c ≠ '*') (hany : c ≠ '?')
    (hset : c ≠ '[') :
    globPlaces (n + 1) (c :: rest) = .one (· == c) :: globPlaces n rest := by
  simp [globPlaces]

/-- A pattern without wildcards is matched as it stands. -/
theorem globPlaces_plain {n : ℕ} {s : List Char} (hlen : s.length ≤ n)
    (hplain : isWildcardPattern s = false) :
    globPlaces n s = Wild.lits (fun x c => c == x) s := by
  induction n generalizing s with
  | zero =>
    obtain rfl := List.length_eq_zero_iff.mp (Nat.le_zero.mp hlen)
    rfl
  | succ n ih =>
    cases s with
    | nil => rfl
    | cons c s =>
      simp only [isWildcardPattern, List.any_cons, Bool.or_eq_false_iff, beq_eq_false_iff_ne]
        at hplain
      obtain ⟨⟨⟨hstar, hany⟩, hset⟩, hrest⟩ := hplain
      have hrest := ih (Nat.le_of_succ_le_succ hlen) hrest
      rw [globPlaces_literal hstar hany hset, hrest]
      rfl

theorem eq_of_fits_lits {s t : List Char}
    (h : Wild.fits (Wild.lits (fun x c => c == x) s) t = true) : t = s := by
  have hall := (Wild.fits_lits _ s t).mp h
  simp only [beq_iff_eq] at hall
  exact (List.forall₂_eq_eq_eq ▸ hall.flip : t = s)

theorem suffix_of_cons {c : Char} {rest : List Char} (h : clipSuffix <:+ c :: rest) (hc : c ≠ '.') :
    clipSuffix <:+ rest := by
  rcases List.suffix_cons_iff.mp h with heq | h
  · exact absurd (List.cons.inj heq).1.symm hc
  · exact h

theorem setPlace_one (body : List Char) : ∃ p, setPlace body = .one p := ⟨_, rfl⟩

/-- What the rest of a pattern fits ends like the rest. -/
theorem suffix_of_one {p : Char → Bool} {ps : List (Wild Char)} {t : List Char}
    (ht : Wild.fits (.one p :: ps) t = true)
    (ih : ∀ {u}, Wild.fits ps u = true → clipSuffix <:+ u) :
    clipSuffix <:+ t := by
  cases t with
  | nil => cases ht
  | cons d t =>
    rw [Wild.fits_one_cons, Bool.and_eq_true] at ht
    exact (ih ht.2).trans (List.suffix_cons d t)

/-- A pattern that ends in `.mp4` fits only names that do. -/
theorem suffix_of_fits {n : ℕ} {s t : List Char} (hlen : s.length ≤ n) (hs : clipSuffix <:+ s)
    (ht : Wild.fits (globPlaces n s) t = true) : clipSuffix <:+ t := by
  induction n, s using globPlaces.induct generalizing t with
  | case1 s =>
    obtain rfl := List.length_eq_zero_iff.mp (Nat.le_zero.mp hlen)
    exact absurd hs (by decide)
  | case2 n => exact absurd hs (by decide)
  | case3 n rest ih =>
    rw [globPlaces] at ht
    obtain ⟨u, hu, hfits⟩ := (Wild.fits_many _ t).mp ht
    exact (ih (Nat.le_of_succ_le_succ hlen) (suffix_of_cons hs (by decide)) hfits).trans hu
  | case4 n rest ih =>
    rw [globPlaces] at ht
    exact suffix_of_one ht fun hu =>
      ih (Nat.le_of_succ_le_succ hlen) (suffix_of_cons hs (by decide)) hu
  | case5 n rest body rest' hbody ih =>
    obtain ⟨p, hp⟩ := setPlace_one body
    simp only [globPlaces, hbody, hp] at ht
    obtain ⟨pre, rfl⟩ := setBody_eq hbody
    have hlen' : rest'.length ≤ n := by
      simp only [List.length_cons, List.length_append] at hlen
      omega
    have hrest' := suffix_behind (suffix_of_cons hs (by decide)) (c := ']') (by decide)
    exact suffix_of_one ht fun hu => ih hlen' hrest' hu
  | case6 n rest hbody ih =>
    rw [globPlaces, hbody] at ht
    exact suffix_of_one ht fun hu =>
      ih (Nat.le_of_succ_le_succ hlen) (suffix_of_cons hs (by decide)) hu
  | case7 n c rest hset hany hstar ih =>
    rcases List.suffix_cons_iff.mp hs with heq | hrest
    · have hplain : isWildcardPattern (c :: rest) = false := by
        rw [← heq]
        decide
      rw [globPlaces_plain hlen hplain] at ht
      rw [eq_of_fits_lits ht]
      exact hs
    · rw [globPlaces_literal hset hany hstar] at ht
      exact suffix_of_one ht fun hu => ih (Nat.le_of_succ_le_succ hlen) hrest hu

-- ============================================================================
-- The names of the recorder
-- ============================================================================

/-- A clip's name is a stamp, milliseconds and the suffix. -/
def clipStem (t : DateTime) (ms : ℤ) : List Char := t.compact ++ '_' :: padInt 3 ms

theorem clipEntry_name (t : DateTime) (ms : ℤ) :
    (clipEntry t ms).name = clipStem t ms ++ clipSuffix := rfl

theorem not_mem_clipStem {c : Char} (hdigit : c.isDigit = false) (hminus : c ≠ '-')
    (hunder : c ≠ '_') (t : DateTime) (ms : ℤ) : c ∉ clipStem t ms := by
  simp [clipStem, DateTime.compact, not_mem_text hdigit hminus, not_mem_timeText hdigit,
    not_mem_padInt hdigit hminus, hunder]

theorem not_mem_clipEntry {c : Char} (hdigit : c.isDigit = false) (hminus : c ≠ '-')
    (hunder : c ≠ '_') (hsuffix : c ∉ clipSuffix) (t : DateTime) (ms : ℤ) :
    c ∉ (clipEntry t ms).name := by
  rw [clipEntry_name, List.mem_append]
  rintro (hstem | hmem)
  · exact not_mem_clipStem hdigit hminus hunder t ms hstem
  · exact hsuffix hmem

theorem clipEntry_plain (t : DateTime) (ms : ℤ) :
    isWildcardPattern (clipEntry t ms).name = false := by
  rw [isWildcardPattern, List.any_eq_false]
  intro c hc hwild
  simp only [Bool.or_eq_true, beq_iff_eq] at hwild
  rcases hwild with (rfl | rfl) | rfl
  all_goals exact not_mem_clipEntry (by decide) (by decide) (by decide) (by decide) t ms hc

theorem clipEntry_accepted (t : DateTime) (ms : ℤ) : AcceptedName (clipEntry t ms).name := by
  refine ⟨List.suffix_append _ _, ?_, ?_, ?_⟩
  · exact not_mem_clipEntry (by decide) (by decide) (by decide) (by decide) t ms
  · exact not_mem_clipEntry (by decide) (by decide) (by decide) (by decide) t ms
  · intro hdots
    -- the only dot is that of the suffix
    have hstem : (clipStem t ms).count '.' = 0 :=
      List.count_eq_zero.mpr (not_mem_clipStem (by decide) (by decide) (by decide) t ms)
    have hcount := hdots.sublist.count_le '.'
    rw [clipEntry_name, List.count_append, hstem] at hcount
    exact absurd hcount (by decide)

theorem clipEntry_injective {t u : DateTime} {ms ns : ℤ}
    (h : (clipEntry t ms).name = (clipEntry u ns).name) : clipEntry t ms = clipEntry u ns := by
  obtain ⟨rfl, rfl⟩ := DateTime.compact_numbered_injective (List.append_cancel_right h)
  rfl

/-- The file of an event's clip is one of them. -/
theorem eventBaseName_clipEntry (offset : ℤ → ℤ) (t : ℚ) :
    (eventBaseName offset t).toList ++ clipSuffix =
      (clipEntry (DateTime.ofSeconds (localSecond offset t)) (millis t)).name := by
  simp [eventBaseName, clipEntry]

section Tree

variable {tree : ClipTree} {name : List Char} {e f : TreeEntry}

theorem published_plain (he : e ∈ tree.entries) (hp : e.Published) :
    isWildcardPattern e.name = false := by
  obtain ⟨t, ms, rfl⟩ := tree.recorded e he hp
  exact clipEntry_plain t ms

/-- A clip is known by its name. -/
theorem published_unique (he : e ∈ tree.entries) (hf : f ∈ tree.entries) (hpe : e.Published)
    (hpf : f.Published) (hname : e.name = f.name) : e = f := by
  obtain ⟨t, ms, rfl⟩ := tree.recorded e he hpe
  obtain ⟨u, ns, rfl⟩ := tree.recorded f hf hpf
  exact clipEntry_injective hname

-- ============================================================================
-- Resolution
-- ============================================================================

theorem lookup_some {dir : List (List Char)} (h : tree.lookup dir name = .ok (some e)) :
    e ∈ tree.entries ∧ e.dir = dir ∧ e.name = name := by
  unfold ClipTree.lookup at h
  split at h
  · cases hcheck : checkName name with
    | error err => rw [hcheck] at h; cases h
    | ok possible =>
      rw [hcheck] at h
      cases possible with
      | false => cases h
      | true =>
        have hfind := Except.ok.inj h
        have hname := List.find?_some hfind
        simp only [Bool.and_eq_true, beq_iff_eq] at hname
        exact ⟨List.mem_of_find?_eq_some hfind, hname⟩
  · cases h

theorem byDate_some (h : tree.byDate name = .ok (some e)) :
    e ∈ tree.entries ∧ e.isFile = true ∧ e.name = name := by
  unfold ClipTree.byDate at h
  split at h
  · cases hlookup : tree.lookup [name.take 4, (name.drop 4).take 2] name with
    | error err => rw [hlookup] at h; cases h
    | ok found =>
      rw [hlookup] at h
      obtain ⟨hfound, hfile⟩ := Option.filter_eq_some_iff.mp (Except.ok.inj h)
      obtain ⟨hmem, -, hname⟩ := lookup_some (hlookup.trans (congrArg Except.ok hfound))
      exact ⟨hmem, hfile, hname⟩
  · cases h

/-- Only a name that is too long raises on the way by its date. -/
theorem byDate_error {err : ResolveError} (h : tree.byDate name = .error err) :
    RefusedByDate tree name := by
  unfold ClipTree.byDate at h
  split at h
  · rename_i hdigits
    unfold ClipTree.lookup at h
    split at h
    · rename_i hdir
      cases hcheck : checkName name with
      | ok possible => rw [hcheck] at h; cases h
      | error err =>
        refine ⟨hdigits.1, hdigits.2, hdir, ?_⟩
        rw [hcheck]
        unfold checkName at hcheck
        split at hcheck
        · cases hcheck
        · split at hcheck
          · exact hcheck.symm
          · cases hcheck
    · cases h
  · cases h

theorem byDate_refused (h : RefusedByDate tree name) :
    tree.byDate name = .error .nameTooLong := by
  obtain ⟨hlen, hdigits, hdir, hcheck⟩ := h
  simp only [ClipTree.byDate, ClipTree.lookup, if_pos (And.intro hlen hdigits), if_pos hdir, hcheck]
  rfl

/-- A file that `rglob` comes to is a clip, and has the name or fits the pattern. -/
theorem rglob_found {found : List TreeEntry} (hname : AcceptedName name)
    (h : tree.rglob name = .ok found) (he : found.find? TreeEntry.isFile = some e) :
    e ∈ tree.entries ∧ e.Published ∧
      (e.name = name ∨ isWildcardPattern name = true ∧
        ∃ ps, compilePattern name = .ok ps ∧ Wild.fits ps e.name = true) := by
  have hfile := List.find?_some he
  have hmem := List.mem_of_find?_eq_some he
  unfold ClipTree.rglob at h
  split at h
  · rename_i hwild
    cases hps : compilePattern name with
    | error err => rw [hps] at h; cases h
    | ok ps =>
      rw [hps] at h
      obtain rfl := Except.ok.inj h
      obtain ⟨hentry, hfits⟩ := List.mem_filter.mp hmem
      have hplaces : globPlaces name.length name = ps := by
        unfold compilePattern at hps
        split at hps
        · cases hps
        · exact Except.ok.inj hps
      have hsuffix := suffix_of_fits le_rfl hname.1 (hplaces ▸ hfits)
      exact ⟨hentry, ⟨hfile, hsuffix⟩, .inr ⟨hwild, ps, rfl, hfits⟩⟩
  · cases hcheck : checkName name with
    | error err => rw [hcheck] at h; cases h
    | ok possible =>
      rw [hcheck] at h
      obtain rfl := Except.ok.inj h
      cases possible with
      | false => cases he
      | true =>
        obtain ⟨hentry, heq⟩ := List.mem_filter.mp hmem
        have heq : e.name = name := by simpa using heq
        exact ⟨hentry, ⟨hfile, heq ▸ hname.1⟩, .inl heq⟩

/-- What a request that finds a file has found. -/
theorem resolveClip_some (h : resolveClip tree name = .ok (some e)) :
    AcceptedName name ∧ e ∈ tree.entries ∧ e.Published ∧
      (e.name = name ∨ isWildcardPattern name = true ∧ ¬ RefusedByDate tree name ∧
        ∃ ps, compilePattern name = .ok ps ∧ Wild.fits ps e.name = true) := by
  unfold resolveClip at h
  split at h
  · rename_i hname
    refine ⟨hname, ?_⟩
    cases hdate : tree.byDate name with
    | error err => rw [hdate] at h; cases h
    | ok found =>
      rw [hdate] at h
      cases found with
      | some f =>
        obtain rfl := Option.some.inj (Except.ok.inj h)
        obtain ⟨hmem, hfile, heq⟩ := byDate_some hdate
        exact ⟨hmem, ⟨hfile, heq ▸ hname.1⟩, .inl heq⟩
      | none =>
        have hnot : ¬ RefusedByDate tree name := by
          intro hrefused
          rw [byDate_refused hrefused] at hdate
          cases hdate
        cases hglob : tree.rglob name with
        | error err => simp only [hglob] at h; cases h
        | ok found =>
          simp only [hglob] at h
          obtain ⟨hmem, hp, hfound⟩ := rglob_found hname hglob (Except.ok.inj h)
          refine ⟨hmem, hp, hfound.imp_right fun hwild => ⟨hwild.1, hnot, hwild.2⟩⟩
  · cases h

/-- A clip is found under its name. -/
theorem resolveClip_own (he : e ∈ tree.entries) (hp : e.Published) :
    resolveClip tree e.name = .ok (some e) := by
  have haccepted : AcceptedName e.name := by
    obtain ⟨t, ms, rfl⟩ := tree.recorded e he hp
    exact clipEntry_accepted t ms
  have hcheck := tree.named e he
  rw [resolveClip, if_pos haccepted]
  cases hdate : tree.byDate e.name with
  | error err =>
    have hlong := (byDate_error hdate).2.2.2
    rw [hcheck] at hlong
    cases hlong
  | ok found =>
    cases found with
    | some f =>
      obtain ⟨hmem, hfile, hname⟩ := byDate_some hdate
      rw [published_unique hmem he ⟨hfile, hname ▸ hp.2⟩ hp hname]
    | none =>
      have hglob : tree.rglob e.name =
          .ok (tree.entries.filter fun f => f.name == e.name) := by
        rw [ClipTree.rglob, published_plain he hp, hcheck]
        rfl
      obtain ⟨f, hf⟩ : ∃ f, (tree.entries.filter fun f => f.name == e.name).find?
          TreeEntry.isFile = some f := by
        apply Option.isSome_iff_exists.mp
        rw [List.find?_isSome]
        exact ⟨e, List.mem_filter.mpr ⟨he, beq_self_eq_true _⟩, hp.1⟩
      have hmem := List.mem_filter.mp (List.mem_of_find?_eq_some hf)
      have hname : f.name = e.name := by simpa using hmem.2
      have heq := published_unique hmem.1 he ⟨List.find?_some hf, hname ▸ hp.2⟩ hp hname
      simp only [hglob]
      rw [Except.map, hf, heq]

/-- A name stands for its own clip when no clip fits it as a pattern, and only then. -/
theorem exact_iff : Exact tree name ↔ Addresses tree name := by
  constructor
  · intro h haccepted hwild hnot ps hps e he hp
    by_contra hfits
    have hfits : Wild.fits ps e.name = true := by simpa using hfits
    -- the directory of the date has no clip of that name, so the pattern is tried
    have hdate : tree.byDate name = .ok none := by
      cases hdate : tree.byDate name with
      | error err => exact absurd (byDate_error hdate) hnot
      | ok found =>
        cases found with
        | none => rfl
        | some f =>
          obtain ⟨hmem, hfile, hname⟩ := byDate_some hdate
          have := published_plain hmem ⟨hfile, hname ▸ haccepted.1⟩
          rw [hname, hwild] at this
          cases this
    have hglob : tree.rglob name =
        .ok (tree.entries.filter fun f => Wild.fits ps f.name) := by
      rw [ClipTree.rglob, if_pos hwild, hps]
      rfl
    obtain ⟨f, hf⟩ : ∃ f, (tree.entries.filter fun f => Wild.fits ps f.name).find?
        TreeEntry.isFile = some f := by
      apply Option.isSome_iff_exists.mp
      rw [List.find?_isSome]
      exact ⟨e, List.mem_filter.mpr ⟨he, hfits⟩, hp.1⟩
    have hresolve : resolveClip tree name = .ok (some f) := by
      rw [resolveClip, if_pos haccepted, hdate]
      simp only [hglob]
      rw [Except.map, hf]
    obtain ⟨hmem, hpf, hname⟩ := h.own f hresolve
    have := published_plain hmem hpf
    rw [hname, hwild] at this
    cases this
  · intro h
    constructor
    case own =>
      intro e he
      obtain ⟨haccepted, hmem, hp, hname | ⟨hwild, hnot, ps, hps, hfits⟩⟩ := resolveClip_some he
      · exact ⟨hmem, hp, hname⟩
      · rw [h haccepted hwild hnot ps hps e hmem hp] at hfits
        cases hfits
    case found =>
      rintro e he hp rfl
      exact resolveClip_own he hp

-- ============================================================================
-- Deletion
-- ============================================================================

theorem mem_unlinkPair (h : f ∈ (tree.unlinkPair e).entries) : f ∈ tree.entries :=
  List.mem_of_mem_filter h

theorem isDir_unlinkPair (dir : List (List Char)) :
    (tree.unlinkPair e).isDir dir = tree.isDir dir := by
  unfold ClipTree.isDir ClipTree.unlinkPair
  rw [List.any_filter]
  congr 2
  funext f
  cases f.isFile <;> simp

theorem Addresses.unlinkPair (h : Addresses tree name) : Addresses (tree.unlinkPair e) name := by
  intro haccepted hwild hnot ps hps f hf hp
  refine h haccepted hwild ?_ ps hps f (mem_unlinkPair hf) hp
  intro hrefused
  rw [RefusedByDate, isDir_unlinkPair] at hnot
  exact hnot hrefused

/-- A sidecar is no clip. -/
theorem not_suffix_json (stem : List Char) : ¬ clipSuffix <:+ stem ++ ".json".toList := by
  rintro ⟨pre, hpre⟩
  have hlast := congrArg List.getLast? hpre
  simp [clipSuffix] at hlast

/-- Nothing but `e` and its sidecar goes. -/
theorem gone_unlinkPair (hf : f ∈ tree.entries) (hp : f.Published)
    (hgone : f ∉ (tree.unlinkPair e).entries) : f = e := by
  by_contra hne
  refine hgone (List.mem_filter.mpr ⟨hf, ?_⟩)
  have hname : f.name ≠ e.name.take (e.name.length - 4) ++ ".json".toList := by
    intro hjson
    exact not_suffix_json _ (hjson ▸ hp.2)
  simp only [bne_iff_ne.mpr hne, beq_false_of_ne hname, Bool.and_false, Bool.not_false,
    Bool.and_true, Bool.or_true]

end Tree

theorem deletesListed {names : List (List Char)} {tree : ClipTree}
    (h : ∀ name ∈ names, Addresses tree name) : DeletesListed tree names := by
  induction names generalizing tree with
  | nil =>
    intro e he _ hgone
    exact absurd he hgone
  | cons name rest ih =>
    have hrest : ∀ other ∈ rest, Addresses tree other := fun other hmem =>
      h other (List.mem_cons_of_mem name hmem)
    intro e he hp hgone
    simp only [ClipTree.deleteNamed] at hgone
    cases hresolve : resolveClip tree name with
    | error err =>
      rw [hresolve] at hgone
      exact absurd he hgone
    | ok found =>
      rw [hresolve] at hgone
      cases found with
      | none => exact List.mem_cons_of_mem name (ih hrest e he hp hgone)
      | some f =>
        by_cases hin : e ∈ (tree.unlinkPair f).entries
        · have hkept : ∀ other ∈ rest, Addresses (tree.unlinkPair f) other := fun other hmem =>
            (hrest other hmem).unlinkPair
          exact List.mem_cons_of_mem name (ih hkept e hin hp hgone)
        · obtain rfl := gone_unlinkPair he hp hin
          have hown := (exact_iff.mpr (h name List.mem_cons_self)).own e hresolve
          rw [hown.2.2]
          exact List.mem_cons_self

/-- A clip name stands for the clip of that name, and a deletion takes no other, exactly when no
    clip fits the name as a pattern; then playback and deletions of several names are exact, too. -/
theorem resolveClip_exact_iff (tree : ClipTree) :
    (∀ name, Exact tree name ∧ DeletesListed tree [name] ↔ Addresses tree name) ∧
    (∀ names, (∀ name ∈ names, Addresses tree name) → DeletesListed tree names) ∧
    ∀ name, Addresses tree name → ∀ content rangeHeader,
      getNamedClip tree content name rangeHeader = .raised ∨
      getNamedClip tree content name rangeHeader = getClip none rangeHeader ∨
      ∃ e ∈ tree.entries, e.Published ∧ e.name = name ∧
        getNamedClip tree content name rangeHeader = getClip (some (content e)) rangeHeader := by
  refine ⟨fun name => ⟨fun h => exact_iff.mp h.1, fun h => ⟨exact_iff.mpr h, ?_⟩⟩,
    fun names => deletesListed, ?_⟩
  · exact deletesListed fun other hmem => List.mem_singleton.mp hmem ▸ h
  · intro name h content rangeHeader
    unfold getNamedClip
    cases hresolve : resolveClip tree name with
    | error err => exact .inl rfl
    | ok found =>
      cases found with
      | none => exact .inr (.inl rfl)
      | some e =>
        obtain ⟨hmem, hp, hname⟩ := (exact_iff.mpr h).own e hresolve
        exact .inr (.inr ⟨e, hmem, hp, hname, rfl⟩)

/-- The clip of the start of 2026. -/
def newYearClip : TreeEntry := clipEntry (DateTime.ofSeconds 1767225600) 0

/-- The directories of the clip, and the clip. -/
def newYearEntries : List TreeEntry :=
  [⟨[], "2026".toList, false⟩, ⟨["2026".toList], "01".toList, false⟩, newYearClip]

theorem newYear_named : ∀ e ∈ newYearEntries, checkName e.name = .ok true := by decide

theorem newYear_recorded : ∀ e ∈ newYearEntries, e.Published → ∃ t ms, e = clipEntry t ms := by
  simp only [newYearEntries, List.forall_mem_cons]
  exact ⟨fun h => absurd h (by decide), fun h => absurd h (by decide), fun _ => ⟨_, _, rfl⟩,
    List.forall_mem_nil _⟩

/-- A tree with one clip. -/
def newYearTree : ClipTree where
  entries := newYearEntries
  named := newYear_named
  recorded := newYear_recorded

-- A range the wrong way round is left out of its set.
example : resolveClip newYearTree "[z-a2]0260101_000000_000.mp4".toList =
    .ok (some newYearClip) := by decide

/-- A pattern stands for a clip that has another name, and its deletion takes that clip. -/
theorem resolveClip_pattern :
    ¬ Exact newYearTree "*.mp4".toList ∧ ¬ DeletesListed newYearTree ["*.mp4".toList] := by
  constructor
  · intro h
    have hresolve : resolveClip newYearTree "*.mp4".toList = .ok (some newYearClip) := by decide
    have hname := (h.own _ hresolve).2.2
    exact absurd hname (by decide)
  · intro h
    have hgone : newYearClip ∉ (newYearTree.deleteNamed ["*.mp4".toList]).1.entries := by decide
    have hlisted := h newYearClip (by decide) (by decide) hgone
    exact absurd hlisted (by decide)

end Babycat.Recorder
