/-
  Babycat.Text.Url

  Query strings: `parse_qsl` with blank values kept, `urlencode`, and what a URL
  has for a query.

  `parseQsl_urlencode`: what is built from parameters is read as these
  parameters.
-/

import Babycat.Text.Utf8
import Mathlib.Data.List.TakeWhile

namespace Babycat.Text

-- ============================================================================
-- Reading
-- ============================================================================

/-- The digits of `_hextobyte`, in both cases. -/
def hexDigitValue (c : Char) : Option ℕ :=
  if 48 ≤ c.toNat ∧ c.toNat ≤ 57 then some (c.toNat - 48)
  else if 65 ≤ c.toNat ∧ c.toNat ≤ 70 then some (c.toNat - 55)
  else if 97 ≤ c.toNat ∧ c.toNat ≤ 102 then some (c.toNat - 87)
  else none

def hexByte (a b : Char) : Option UInt8 :=
  (hexDigitValue a).bind fun high =>
    (hexDigitValue b).map fun low => UInt8.ofNat (16 * high + low)

/-- `unquote_to_bytes`: a percent sign without two digits stands for itself. -/
def unquoteToBytes : List Char → List UInt8
  | '%' :: a :: b :: rest =>
      match hexByte a b with
      | some byte => byte :: unquoteToBytes rest
      | none => String.utf8EncodeChar '%' ++ unquoteToBytes (a :: b :: rest)
  | c :: rest => String.utf8EncodeChar c ++ unquoteToBytes rest
  | [] => []

/-- `unquote`.  It decodes the ASCII runs one by one; a character that is none starts no
character of such a run and ends none, so the bytes of all are decoded the same. -/
def unquote (s : List Char) : List Char := decodeReplace (unquoteToBytes s)

/-- `s.replace("+", " ")` -/
def plusToSpace (s : List Char) : List Char := s.map fun c => if c = '+' then ' ' else c

def unquotePlus (s : List Char) : List Char := unquote (plusToSpace s)

/-- `name_value.split("=", 1)`, with a blank value where there is no sign. -/
def splitParam (s : List Char) : List Char × List Char :=
  (s.takeWhile (· ≠ '='), (s.dropWhile (· ≠ '=')).tail)

def readParam (s : List Char) : List Char × List Char :=
  (unquotePlus (splitParam s).1, unquotePlus (splitParam s).2)

/-- `parse_qsl(qs, keep_blank_values=True)` -/
def parseQsl (qs : List Char) : List (List Char × List Char) :=
  ((qs.splitOn '&').filter (· ≠ [])).map readParam

/-- The query of a URL: what is behind the first `?` and before a fragment. -/
def queryOf (url : List Char) : List Char :=
  ((url.takeWhile (· ≠ '#')).dropWhile (· ≠ '?')).tail

-- ============================================================================
-- Writing
-- ============================================================================

def upperHex (n : ℕ) : Char := Char.ofNat (if n < 10 then 48 + n else 55 + n)

/-- `_ALWAYS_SAFE` -/
def alwaysSafe (n : ℕ) : Bool :=
  (48 ≤ n && n ≤ 57) || (65 ≤ n && n ≤ 90) || (97 ≤ n && n ≤ 122) ||
    n == 95 || n == 46 || n == 45 || n == 126

/-- A byte in `quote` with nothing safe but what always is. -/
def quoteSafe (b : UInt8) : List Char :=
  if alwaysSafe b.toNat then [Char.ofNat b.toNat]
  else ['%', upperHex (b.toNat / 16), upperHex (b.toNat % 16)]

/-- `quote(s, safe="")` -/
def quoteAll (s : List Char) : List Char := (encode s).flatMap quoteSafe

/-- A byte in `quote_plus`. -/
def quoteByte (b : UInt8) : List Char :=
  if b.toNat = 32 then ['+']
  else if alwaysSafe b.toNat then [Char.ofNat b.toNat]
  else ['%', upperHex (b.toNat / 16), upperHex (b.toNat % 16)]

/-- `quote_plus` -/
def quotePlus (s : List Char) : List Char := (encode s).flatMap quoteByte

def writeParam (p : List Char × List Char) : List Char := quotePlus p.1 ++ '=' :: quotePlus p.2

/-- `urlencode` -/
def urlencode (params : List (List Char × List Char)) : List Char :=
  ['&'].intercalate (params.map writeParam)

-- ============================================================================
-- What is written is read back
-- ============================================================================

section RoundTrip

variable {c : Char} {s rest : List Char}

theorem unquoteToBytes_cons (hc : c ≠ '%') :
    unquoteToBytes (c :: rest) = String.utf8EncodeChar c ++ unquoteToBytes rest := by
  rw [unquoteToBytes]
  rintro a b rest' rfl
  exact absurd rfl hc

theorem unquote_cons (hc : c ≠ '%') : unquote (c :: rest) = c :: unquote rest := by
  rw [unquote, unquoteToBytes_cons hc, decodeReplace_char, ← unquote]

theorem unquotePlus_cons (hplus : c ≠ '+') (hpercent : c ≠ '%') :
    unquotePlus (c :: s) = c :: unquotePlus s := by
  rw [unquotePlus, plusToSpace, List.map_cons, if_neg hplus, unquote_cons hpercent, ← plusToSpace,
    ← unquotePlus]

/-- An ASCII character that is no digit of an escape is read as it is. -/
theorem mem_unquote (hc : c.toNat < 0x80) (hpercent : c ≠ '%') (hdigit : hexDigitValue c = none)
    (hmem : c ∈ s) : c ∈ unquote s := by
  have hself : UInt8.ofNat c.toNat ∈ String.utf8EncodeChar c := by
    rw [utf8EncodeChar_ascii hc]
    exact List.mem_singleton_self _
  refine mem_decodeReplace hc ?_
  fun_induction unquoteToBytes s with
  | case1 a b rest byte hbyte ih =>
    -- The two characters behind the sign have values, so `c` is neither.
    have hvalues : ∃ high low, hexDigitValue a = some high ∧ hexDigitValue b = some low := by
      obtain ⟨high, hhigh, hbyte⟩ := Option.bind_eq_some_iff.mp hbyte
      obtain ⟨low, hlow, -⟩ := Option.map_eq_some_iff.mp hbyte
      exact ⟨high, low, hhigh, hlow⟩
    obtain ⟨high, low, hhigh, hlow⟩ := hvalues
    rcases List.mem_cons.mp hmem with rfl | hmem
    · exact absurd rfl hpercent
    rcases List.mem_cons.mp hmem with rfl | hmem
    · rw [hdigit] at hhigh
      cases hhigh
    rcases List.mem_cons.mp hmem with rfl | hmem
    · rw [hdigit] at hlow
      cases hlow
    · exact List.mem_cons_of_mem _ (ih hmem)
  | case2 a b rest hbyte ih =>
    rcases List.mem_cons.mp hmem with rfl | hmem
    · exact absurd rfl hpercent
    · exact List.mem_append_right _ (ih hmem)
  | case3 d rest hshape ih =>
    rcases List.mem_cons.mp hmem with rfl | hmem
    · exact List.mem_append_left _ hself
    · exact List.mem_append_right _ (ih hmem)
  | case4 => exact absurd hmem List.not_mem_nil

theorem mem_unquotePlus (hc : c.toNat < 0x80) (hplus : c ≠ '+') (hpercent : c ≠ '%')
    (hdigit : hexDigitValue c = none) (hmem : c ∈ s) : c ∈ unquotePlus s := by
  refine mem_unquote hc hpercent hdigit ?_
  have himage := List.mem_map_of_mem (f := fun c => if c = '+' then ' ' else c) hmem
  rwa [if_neg hplus] at himage

theorem hexDigitValue_upperHex : ∀ n < 16, hexDigitValue (upperHex n) = some n := by decide

theorem hexByte_upperHex (b : UInt8) :
    hexByte (upperHex (b.toNat / 16)) (upperHex (b.toNat % 16)) = some b := by
  have hb : b.toNat < 256 := b.toNat_lt
  rw [hexByte, hexDigitValue_upperHex _ (by omega), hexDigitValue_upperHex _ (by omega)]
  have hvalue : 16 * (b.toNat / 16) + b.toNat % 16 = b.toNat := by omega
  rw [Option.bind_some, Option.map_some, hvalue, UInt8.ofNat_toNat]

theorem upperHex_ne : ∀ n < 16, upperHex n ∉ ['+', '&', '=', '#', '?'] := by decide

theorem toNat_byteChar (b : UInt8) : (Char.ofNat b.toNat).toNat = b.toNat := by
  have hb : b.toNat < 256 := b.toNat_lt
  have hvalid : b.toNat.isValidChar := Or.inl (by omega)
  rw [Char.ofNat, dif_pos hvalid]
  rfl

/-- What stays as it is is ASCII, and none of the signs. -/
theorem alwaysSafe_spec {n : ℕ} (h : alwaysSafe n = true) :
    n < 0x80 ∧ n ∉ [37, 43, 38, 61, 35, 63] := by
  rw [alwaysSafe] at h
  simp only [Bool.or_eq_true, Bool.and_eq_true, decide_eq_true_iff, beq_iff_eq] at h
  simp only [List.mem_cons, List.not_mem_nil, or_false]
  omega

theorem byteChar_ne {b : UInt8} {c : Char} (h : b.toNat ≠ c.toNat) : Char.ofNat b.toNat ≠ c := by
  rintro rfl
  exact h (toNat_byteChar b).symm

theorem plusToSpace_cons (hc : c ≠ '+') : plusToSpace (c :: s) = c :: plusToSpace s := by
  rw [plusToSpace, List.map_cons, if_neg hc, ← plusToSpace]

theorem unquoteToBytes_quoteByte (b : UInt8) :
    unquoteToBytes (plusToSpace (quoteByte b) ++ rest) = b :: unquoteToBytes rest := by
  have hb : b.toNat < 256 := b.toNat_lt
  rw [quoteByte]
  split_ifs with hspace hsafe
  · have hspaced : b = UInt8.ofNat ' '.toNat := UInt8.toNat_inj.mp hspace
    rw [hspaced]
    exact unquoteToBytes_cons (by decide)
  · obtain ⟨hascii, hsigns⟩ := alwaysSafe_spec hsafe
    have hchar := toNat_byteChar b
    have hplus : Char.ofNat b.toNat ≠ '+' := byteChar_ne fun h => hsigns (by rw [h]; decide)
    have hpercent : Char.ofNat b.toNat ≠ '%' := byteChar_ne fun h => hsigns (by rw [h]; decide)
    rw [plusToSpace_cons hplus, List.cons_append, unquoteToBytes_cons hpercent,
      utf8EncodeChar_ascii (by omega), hchar, UInt8.ofNat_toNat]
    rfl
  · have hhigh := upperHex_ne (b.toNat / 16) (by omega)
    have hlow := upperHex_ne (b.toNat % 16) (by omega)
    rw [plusToSpace_cons (by decide), plusToSpace_cons (fun h => hhigh (by rw [h]; decide)),
      plusToSpace_cons (fun h => hlow (by rw [h]; decide))]
    show unquoteToBytes ('%' :: _ :: _ :: rest) = _
    rw [unquoteToBytes, hexByte_upperHex]

theorem plusToSpace_append (a b : List Char) :
    plusToSpace (a ++ b) = plusToSpace a ++ plusToSpace b := List.map_append

theorem unquoteToBytes_quote (bytes : List UInt8) :
    unquoteToBytes (plusToSpace (bytes.flatMap quoteByte)) = bytes := by
  induction bytes with
  | nil => rfl
  | cons b bytes ih =>
    rw [List.flatMap_cons, plusToSpace_append, unquoteToBytes_quoteByte, ih]

/-- What is quoted is unquoted to itself. -/
theorem unquotePlus_quotePlus (s : List Char) : unquotePlus (quotePlus s) = s := by
  have hdecode := decodeReplace_encode s []
  rw [List.append_nil] at hdecode
  rw [unquotePlus, unquote, quotePlus, unquoteToBytes_quote, hdecode]
  exact List.append_nil s

theorem unquoteToBytes_quoteSafe (b : UInt8) :
    unquoteToBytes (quoteSafe b ++ rest) = b :: unquoteToBytes rest := by
  rw [quoteSafe]
  split_ifs with hsafe
  · obtain ⟨hascii, hsigns⟩ := alwaysSafe_spec hsafe
    have hpercent : Char.ofNat b.toNat ≠ '%' := byteChar_ne fun h => hsigns (by rw [h]; decide)
    rw [List.singleton_append, unquoteToBytes_cons hpercent,
      utf8EncodeChar_ascii (by rw [toNat_byteChar]; exact hascii), toNat_byteChar,
      UInt8.ofNat_toNat]
    rfl
  · show unquoteToBytes ('%' :: _ :: _ :: rest) = _
    rw [unquoteToBytes, hexByte_upperHex]

/-- `unquote(quote(s, safe=""))` is `s`. -/
theorem unquote_quoteAll (s : List Char) : unquote (quoteAll s) = s := by
  have hbytes : ∀ bytes : List UInt8, unquoteToBytes (bytes.flatMap quoteSafe) = bytes := by
    intro bytes
    induction bytes with
    | nil => rfl
    | cons b bytes ih => rw [List.flatMap_cons, unquoteToBytes_quoteSafe, ih]
  have hdecode := decodeReplace_encode s []
  rw [List.append_nil] at hdecode
  rw [unquote, quoteAll, hbytes, hdecode]
  exact List.append_nil s

/-- The signs of a URL are quoted. -/
theorem mem_quoteByte {b : UInt8} (h : c ∈ quoteByte b) : c ∉ ['&', '=', '#', '?'] := by
  have hb : b.toNat < 256 := b.toNat_lt
  rw [quoteByte] at h
  split_ifs at h with hspace hsafe
  · rw [List.mem_singleton.mp h]
    decide
  · obtain ⟨-, hsigns⟩ := alwaysSafe_spec hsafe
    have hchar := toNat_byteChar b
    rw [← List.mem_singleton.mp h] at hchar
    rw [← hchar] at hsigns
    intro hmem
    simp only [List.mem_cons, List.not_mem_nil, or_false] at hmem
    rcases hmem with rfl | rfl | rfl | rfl <;> exact hsigns (by decide)
  · have hhigh := upperHex_ne (b.toNat / 16) (by omega)
    have hlow := upperHex_ne (b.toNat % 16) (by omega)
    simp only [List.mem_cons, List.not_mem_nil, or_false] at h
    rcases h with rfl | rfl | rfl
    · decide
    · exact fun hmem => hhigh (List.mem_cons_of_mem _ hmem)
    · exact fun hmem => hlow (List.mem_cons_of_mem _ hmem)

theorem mem_quotePlus (h : c ∈ quotePlus s) : c ∉ ['&', '=', '#', '?'] := by
  obtain ⟨b, -, hc⟩ := List.mem_flatMap.mp h
  exact mem_quoteByte hc

variable {p : List Char × List Char} {params : List (List Char × List Char)}

theorem mem_writeParam (h : c ∈ writeParam p) : c ∉ ['&', '#', '?'] := by
  rcases List.mem_append.mp h with h | h
  · exact fun hmem => mem_quotePlus h (by revert hmem; simp; tauto)
  rcases List.mem_cons.mp h with rfl | h
  · decide
  · exact fun hmem => mem_quotePlus h (by revert hmem; simp; tauto)

/-- What `urlencode` writes starts no fragment and no query of its own. -/
theorem mem_urlencode (h : c ∈ urlencode params) : c ∉ ['#', '?'] := by
  rw [urlencode] at h
  induction params with
  | nil => exact absurd h List.not_mem_nil
  | cons p params ih =>
    have hfirst : c ∈ writeParam p → c ∉ ['#', '?'] := fun h hmem =>
      mem_writeParam h (List.mem_cons_of_mem _ hmem)
    by_cases hnil : params.map writeParam = []
    · rw [List.map_cons, hnil, List.intercalate_singleton] at h
      exact hfirst h
    · rw [List.map_cons, List.intercalate_cons_of_ne_nil hnil, List.mem_append,
        List.mem_append] at h
      rcases h with (h | h) | h
      · exact hfirst h
      · rw [List.mem_singleton.mp h]
        decide
      · exact ih h

theorem splitParam_append {name value : List Char} (hname : '=' ∉ name) :
    splitParam (name ++ '=' :: value) = (name, value) := by
  have hall : ∀ c ∈ name, decide (c ≠ '=') = true := fun c hc =>
    decide_eq_true fun heq => hname (heq ▸ hc)
  rw [splitParam, List.takeWhile_append_of_pos hall, List.dropWhile_append_of_pos hall]
  simp

theorem readParam_writeParam (p : List Char × List Char) : readParam (writeParam p) = p := by
  have hname : '=' ∉ quotePlus p.1 := fun h => mem_quotePlus h (by decide)
  rw [readParam, writeParam, splitParam_append hname]
  exact Prod.ext (unquotePlus_quotePlus p.1) (unquotePlus_quotePlus p.2)

/-- `parse_qsl(urlencode(params))` is `params`. -/
theorem parseQsl_urlencode (params : List (List Char × List Char)) :
    parseQsl (urlencode params) = params := by
  by_cases hnil : params = []
  · rw [hnil]
    rfl
  have hparts : ∀ part ∈ params.map writeParam, '&' ∉ part := by
    intro part hpart hmem
    obtain ⟨p, -, rfl⟩ := List.mem_map.mp hpart
    exact mem_writeParam hmem (by decide)
  have hfull : ∀ part ∈ params.map writeParam, decide (part ≠ []) = true := by
    intro part hpart
    obtain ⟨p, -, rfl⟩ := List.mem_map.mp hpart
    rw [writeParam]
    simp
  rw [parseQsl, urlencode, List.splitOn_intercalate _ hparts (by simpa using hnil),
    List.filter_eq_self.mpr hfull, List.map_map]
  have hid : readParam ∘ writeParam = id := funext readParam_writeParam
  rw [hid, List.map_id]

theorem urlencode_cons (p : List Char × List Char) (hparams : params ≠ []) :
    urlencode (p :: params) = writeParam p ++ '&' :: urlencode params := by
  have hmapped : params.map writeParam ≠ [] := fun h => hparams (List.map_eq_nil_iff.mp h)
  rw [urlencode, List.map_cons, List.intercalate_cons_of_ne_nil hmapped, List.append_assoc,
    List.singleton_append, ← urlencode]

theorem urlencode_eq_nil : urlencode params = [] ↔ params = [] := by
  refine ⟨fun h => ?_, fun h => by rw [h]; rfl⟩
  rw [← parseQsl_urlencode params, h]
  rfl

theorem parseQsl_append (a b : List Char) :
    parseQsl (a ++ '&' :: b) = parseQsl a ++ parseQsl b := by
  rw [parseQsl, List.splitOn_append_cons_self, List.filter_append, List.map_append, ← parseQsl,
    ← parseQsl]

end RoundTrip

-- ============================================================================
-- The query of a URL
-- ============================================================================

section Query

variable {a b : List Char}

theorem takeWhile_ne {c : Char} (h : c ∉ a) : a.takeWhile (· ≠ c) = a := by
  rw [List.takeWhile_eq_self_iff]
  exact fun _ hx => decide_eq_true fun heq => h (heq ▸ hx)

theorem dropWhile_ne {c : Char} (h : c ∉ a) : (a ++ b).dropWhile (· ≠ c) = b.dropWhile (· ≠ c) :=
  List.dropWhile_append_of_pos fun _ hx => decide_eq_true fun heq => h (heq ▸ hx)

/-- Nothing behind a fragment is in the query. -/
theorem queryOf_fragment (h : '#' ∈ a) : queryOf (a ++ b) = queryOf a := by
  have htake : (a ++ b).takeWhile (· ≠ '#') = a.takeWhile (· ≠ '#') := by
    rw [List.takeWhile_append, if_neg]
    intro hlength
    have hself := (List.takeWhile_prefix (· ≠ '#')).eq_of_length hlength
    have hall := List.takeWhile_eq_self_iff.mp hself '#' h
    exact absurd hall (by decide)
  rw [queryOf, htake, ← queryOf]

theorem queryOf_none (hquery : '?' ∉ a) : queryOf a = [] := by
  have hall : ∀ c ∈ a.takeWhile (· ≠ '#'), decide (c ≠ '?') = true := fun c hc =>
    decide_eq_true fun heq => hquery (heq ▸ (List.takeWhile_prefix _).subset hc)
  rw [queryOf, List.dropWhile_eq_nil_iff.mpr hall, List.tail_nil]

theorem queryOf_append (hfragment : '#' ∉ a) (hquery : '?' ∉ a) (hb : '#' ∉ b) :
    queryOf (a ++ '?' :: b) = b := by
  have hnone : '#' ∉ a ++ '?' :: b := by
    simp [hfragment, hb]
  rw [queryOf, takeWhile_ne hnone, dropWhile_ne hquery]
  rfl

/-- A query that has started goes on. -/
theorem queryOf_started (hfragment : '#' ∉ a) (hquery : '?' ∈ a) (hb : '#' ∉ b) :
    queryOf (a ++ b) = queryOf a ++ b := by
  have hnone : '#' ∉ a ++ b := by
    simp [hfragment, hb]
  obtain ⟨path, query, rfl, hpath⟩ := List.eq_append_cons_of_mem hquery
  rw [queryOf, queryOf, takeWhile_ne hnone, takeWhile_ne hfragment, List.append_assoc,
    dropWhile_ne hpath, dropWhile_ne hpath]
  rfl

end Query

end Babycat.Text
