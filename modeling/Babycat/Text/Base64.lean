/-
  Babycat.Text.Base64

  Base64 with the decoder of Python's `binascii.a2b_base64`, and its URL-safe
  alphabet.

  The decoder reads on past what it does not know: characters outside the
  alphabet, and pads where none can stand.  It stops at a pad that completes a
  group of four.  So any number of pads after the end of a text are tolerated.
-/

import Mathlib.Data.List.Basic
import Mathlib.Data.List.DropRight

namespace Babycat.Text

-- ============================================================================
-- Encoding
-- ============================================================================

/-- The character of a value below 64. -/
def base64Char (v : ℕ) : Char :=
  if v < 26 then Char.ofNat (65 + v)
  else if v < 52 then Char.ofNat (71 + v)
  else if v < 62 then Char.ofNat (v - 4)
  else if v = 62 then '+'
  else '/'

def base64Value (c : Char) : Option ℕ :=
  if 65 ≤ c.toNat ∧ c.toNat ≤ 90 then some (c.toNat - 65)
  else if 97 ≤ c.toNat ∧ c.toNat ≤ 122 then some (c.toNat - 71)
  else if 48 ≤ c.toNat ∧ c.toNat ≤ 57 then some (c.toNat + 4)
  else if c = '+' then some 62
  else if c = '/' then some 63
  else none

/-- The six bits at a time of the bytes. -/
def sextets : List UInt8 → List ℕ
  | [] => []
  | [a] => [a.toNat / 4, a.toNat % 4 * 16]
  | [a, b] => [a.toNat / 4, a.toNat % 4 * 16 + b.toNat / 16, b.toNat % 16 * 4]
  | a :: b :: c :: rest =>
      a.toNat / 4 :: (a.toNat % 4 * 16 + b.toNat / 16) :: (b.toNat % 16 * 4 + c.toNat / 64) ::
        c.toNat % 64 :: sextets rest

/-- The pads that complete the last group. -/
def padding (bytes : List UInt8) : ℕ := (3 - bytes.length % 3) % 3

/-- `b64encode` -/
def b64encode (bytes : List UInt8) : List Char :=
  (sextets bytes).map base64Char ++ List.replicate (padding bytes) '='

/-! ## Decoding -/

/-- `a2b_base64`, at place `pos` of a group with the bits `left` over and after `pads` pads. -/
def a2bBase64 (pos left pads : ℕ) : List Char → Option (List UInt8)
  | [] => if pos = 0 then some [] else none
  | c :: rest =>
      if c = '=' then
        if 2 ≤ pos then
          if 4 ≤ pos + (pads + 1) then some [] else a2bBase64 pos left (pads + 1) rest
        else a2bBase64 pos left pads rest
      else
        match base64Value c with
        | none => a2bBase64 pos left pads rest
        | some v =>
            match pos with
            | 0 => a2bBase64 1 v 0 rest
            | 1 => (a2bBase64 2 (v % 16) 0 rest).map (UInt8.ofNat (left * 4 + v / 16) :: ·)
            | 2 => (a2bBase64 3 (v % 4) 0 rest).map (UInt8.ofNat (left * 16 + v / 4) :: ·)
            | _ => (a2bBase64 0 0 0 rest).map (UInt8.ofNat (left * 64 + v) :: ·)

/-! ## The URL-safe alphabet -/

def urlsafeEncodeChar (c : Char) : Char := if c = '+' then '-' else if c = '/' then '_' else c

def urlsafeDecodeChar (c : Char) : Char := if c = '-' then '+' else if c = '_' then '/' else c

/-- `urlsafe_b64encode` -/
def urlsafeB64encode (bytes : List UInt8) : List Char := (b64encode bytes).map urlsafeEncodeChar

/-- `urlsafe_b64decode`; `none` is an exception. -/
def urlsafeB64decode (s : List Char) : Option (List UInt8) :=
  if s.all (fun c => c.toNat < 128) then a2bBase64 0 0 0 (s.map urlsafeDecodeChar) else none

example : (urlsafeB64decode "AP-_QQ==".toList) = some [0, 255, 191, 65] := by decide

-- ============================================================================
-- Characters
-- ============================================================================

section Characters

variable {v : ℕ}

/-- What the characters of the alphabet are. -/
theorem base64Char_facts : ∀ v : Fin 64,
    base64Value (base64Char v) = some v.val ∧ base64Char v ≠ '=' ∧
    urlsafeDecodeChar (urlsafeEncodeChar (base64Char v)) = base64Char v ∧
    urlsafeEncodeChar (base64Char v) ≠ '=' ∧ urlsafeEncodeChar (base64Char v) ≠ '.' ∧
    (urlsafeEncodeChar (base64Char v)).toNat < 128 := by
  decide

theorem base64Value_char (hv : v < 64) : base64Value (base64Char v) = some v :=
  (base64Char_facts ⟨v, hv⟩).1

theorem base64Char_ne_pad (hv : v < 64) : base64Char v ≠ '=' := (base64Char_facts ⟨v, hv⟩).2.1

theorem sextets_lt (bytes : List UInt8) : ∀ v ∈ sextets bytes, v < 64 := by
  induction bytes using sextets.induct with
  | case1 => simp [sextets]
  | case2 a =>
    have ha := a.toNat_lt
    simp only [sextets, List.mem_cons, List.not_mem_nil, or_false]
    omega
  | case3 a b =>
    have ha := a.toNat_lt
    have hb := b.toNat_lt
    simp only [sextets, List.mem_cons, List.not_mem_nil, or_false]
    omega
  | case4 a b c rest ih =>
    have ha := a.toNat_lt
    have hb := b.toNat_lt
    have hc := c.toNat_lt
    intro v hv
    simp only [sextets, List.mem_cons] at hv
    rcases hv with rfl | rfl | rfl | rfl | hv
    · omega
    · omega
    · omega
    · omega
    · exact ih v hv

end Characters

-- ============================================================================
-- The round trip
-- ============================================================================

section RoundTrip

variable {v left pads n : ℕ} {rest : List Char} {bytes : List UInt8}

/-! ## One character -/

theorem a2bBase64_zero (hv : v < 64) :
    a2bBase64 0 left pads (base64Char v :: rest) = a2bBase64 1 v 0 rest := by
  refine (if_neg (base64Char_ne_pad hv)).trans ?_
  rw [base64Value_char hv]
  rfl

theorem a2bBase64_one (hv : v < 64) :
    a2bBase64 1 left pads (base64Char v :: rest) =
      (a2bBase64 2 (v % 16) 0 rest).map (UInt8.ofNat (left * 4 + v / 16) :: ·) := by
  refine (if_neg (base64Char_ne_pad hv)).trans ?_
  rw [base64Value_char hv]
  rfl

theorem a2bBase64_two (hv : v < 64) :
    a2bBase64 2 left pads (base64Char v :: rest) =
      (a2bBase64 3 (v % 4) 0 rest).map (UInt8.ofNat (left * 16 + v / 4) :: ·) := by
  refine (if_neg (base64Char_ne_pad hv)).trans ?_
  rw [base64Value_char hv]
  rfl

theorem a2bBase64_three (hv : v < 64) :
    a2bBase64 3 left pads (base64Char v :: rest) =
      (a2bBase64 0 0 0 rest).map (UInt8.ofNat (left * 64 + v) :: ·) := by
  refine (if_neg (base64Char_ne_pad hv)).trans ?_
  rw [base64Value_char hv]
  rfl

/-! ## Pads -/

theorem a2bBase64_pad {pos : ℕ} :
    a2bBase64 pos left pads ('=' :: rest) =
      if 2 ≤ pos then
        if 4 ≤ pos + (pads + 1) then some [] else a2bBase64 pos left (pads + 1) rest
      else a2bBase64 pos left pads rest :=
  if_pos rfl

/-- Between two groups pads are skipped. -/
theorem a2bBase64_pads (n : ℕ) : a2bBase64 0 left pads (List.replicate n '=') = some [] := by
  induction n with
  | zero => rfl
  | succ n ih =>
    rw [List.replicate_succ, a2bBase64_pad, if_neg (by omega)]
    exact ih

/-- Two pads complete a group of two characters. -/
theorem a2bBase64_two_pads (hn : 2 ≤ n) :
    a2bBase64 2 left 0 (List.replicate n '=') = some [] := by
  obtain ⟨m, rfl⟩ := Nat.exists_eq_add_of_le' hn
  rw [List.replicate_succ, a2bBase64_pad, if_pos (le_refl 2), if_neg (by omega),
    List.replicate_succ, a2bBase64_pad, if_pos (le_refl 2), if_pos (by omega)]

/-- One pad completes a group of three characters. -/
theorem a2bBase64_three_pads (hn : 1 ≤ n) :
    a2bBase64 3 left 0 (List.replicate n '=') = some [] := by
  obtain ⟨m, rfl⟩ := Nat.exists_eq_add_of_le' hn
  rw [List.replicate_succ, a2bBase64_pad, if_pos (by omega), if_pos (by omega)]

/-! ## Whole texts -/

/-- A byte from the bits of two characters. -/
theorem ofNat_of_toNat {a : UInt8} {m : ℕ} (h : m = a.toNat) : UInt8.ofNat m = a := by
  rw [h, UInt8.ofNat_toNat]

theorem a2bBase64_sextets (hn : padding bytes ≤ n) :
    a2bBase64 0 left pads ((sextets bytes).map base64Char ++ List.replicate n '=') =
      some bytes := by
  induction bytes using sextets.induct generalizing left pads with
  | case1 => exact a2bBase64_pads n
  | case2 a =>
    have ha := a.toNat_lt
    simp only [sextets, List.map_cons, List.map_nil, List.cons_append, List.nil_append]
    rw [a2bBase64_zero (by omega), a2bBase64_one (by omega), Nat.mul_mod_left,
      a2bBase64_two_pads hn, Option.map_some, ofNat_of_toNat (a := a) (by omega)]
  | case3 a b =>
    have ha := a.toNat_lt
    have hb := b.toNat_lt
    simp only [sextets, List.map_cons, List.map_nil, List.cons_append, List.nil_append]
    rw [a2bBase64_zero (by omega), a2bBase64_one (by omega), a2bBase64_two (by omega),
      a2bBase64_three_pads hn, Option.map_some, Option.map_some,
      ofNat_of_toNat (a := a) (by omega), ofNat_of_toNat (a := b) (by omega)]
  | case4 a b c rest ih =>
    have ha := a.toNat_lt
    have hb := b.toNat_lt
    have hc := c.toNat_lt
    have hrest : padding rest ≤ n := by
      simp only [padding, List.length_cons] at hn ⊢
      omega
    simp only [sextets, List.map_cons, List.cons_append]
    rw [a2bBase64_zero (by omega), a2bBase64_one (by omega), a2bBase64_two (by omega),
      a2bBase64_three (by omega), ih hrest, Option.map_some, Option.map_some, Option.map_some,
      ofNat_of_toNat (a := a) (by omega), ofNat_of_toNat (a := b) (by omega),
      ofNat_of_toNat (a := c) (by omega)]

/-- The pads that a text is short of follow from its length. -/
theorem padding_le (bytes : List UInt8) : padding bytes ≤ 4 - (sextets bytes).length % 4 := by
  induction bytes using sextets.induct with
  | case1 | case2 | case3 => simp [padding, sextets]
  | case4 a b c rest ih =>
    simp only [padding, sextets, List.length_cons] at ih ⊢
    omega

/-! ## URL-safe texts -/

/-- A URL-safe text without its pads. -/
def urlsafeText (bytes : List UInt8) : List Char :=
  (sextets bytes).map fun v => urlsafeEncodeChar (base64Char v)

theorem urlsafeB64encode_eq (bytes : List UInt8) :
    urlsafeB64encode bytes = urlsafeText bytes ++ List.replicate (padding bytes) '=' := by
  rw [urlsafeB64encode, b64encode, List.map_append, List.map_map, List.map_replicate]
  rfl

theorem urlsafeText_length (bytes : List UInt8) :
    (urlsafeText bytes).length = (sextets bytes).length := List.length_map ..

/-- The characters of a URL-safe text. -/
theorem mem_urlsafeText {c : Char} (h : c ∈ urlsafeText bytes) :
    c ≠ '=' ∧ c ≠ '.' ∧ c.toNat < 128 := by
  obtain ⟨v, hv, rfl⟩ := List.mem_map.mp h
  exact (base64Char_facts ⟨v, sextets_lt bytes v hv⟩).2.2.2

/-- Without its pads and with enough others a text still decodes. -/
theorem urlsafeB64decode_text (hn : padding bytes ≤ n) :
    urlsafeB64decode (urlsafeText bytes ++ List.replicate n '=') = some bytes := by
  have hascii : (urlsafeText bytes ++ List.replicate n '=').all (fun c => c.toNat < 128) = true := by
    rw [List.all_eq_true]
    intro c hc
    rcases List.mem_append.mp hc with hc | hc
    · exact decide_eq_true (mem_urlsafeText hc).2.2
    · rw [List.eq_of_mem_replicate hc]
      decide
  have hmap : (urlsafeText bytes ++ List.replicate n '=').map urlsafeDecodeChar =
      (sextets bytes).map base64Char ++ List.replicate n '=' := by
    rw [List.map_append, List.map_replicate, urlsafeText, List.map_map]
    congr 1
    refine List.map_congr_left fun v hv => ?_
    exact (base64Char_facts ⟨v, sextets_lt bytes v hv⟩).2.2.1
  rw [urlsafeB64decode, if_pos hascii, hmap]
  exact a2bBase64_sextets hn

/-- Stripping the pads of an encoded text. -/
theorem urlsafeB64encode_strip (bytes : List UInt8) :
    (urlsafeB64encode bytes).rdropWhile (· == '=') = urlsafeText bytes := by
  rw [urlsafeB64encode_eq]
  induction padding bytes with
  | zero =>
    rw [List.replicate_zero, List.append_nil, List.rdropWhile_eq_self_iff]
    intro hne
    simpa using (mem_urlsafeText (List.getLast_mem hne)).1
  | succ m ih =>
    rw [List.replicate_succ', ← List.append_assoc, List.rdropWhile_concat_pos _ _ _ (by decide)]
    exact ih

end RoundTrip

end Babycat.Text
