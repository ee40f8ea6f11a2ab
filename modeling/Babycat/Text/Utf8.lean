/-
  Babycat.Text.Utf8

  `bytes.decode("utf-8", "replace")`: every longest part of the input that
  starts a character and cannot go on becomes one replacement character.

  What is encoded is decoded to itself (`decodeReplace_encode`).
-/

import Mathlib.Data.List.Basic
import Mathlib.Data.Nat.Notation

namespace Babycat.Text

/-- U+FFFD -/
def replacement : Char := '\uFFFD'

/-- `10xxxxxx` -/
def isContinuation (b : UInt8) : Bool := 0x80 ≤ b.toNat && b.toNat ≤ 0xBF

/-- The least and the greatest byte that may follow a first byte. -/
def secondByte (a : UInt8) : ℕ × ℕ :=
  if a.toNat = 0xE0 then (0xA0, 0xBF)
  else if a.toNat = 0xED then (0x80, 0x9F)
  else if a.toNat = 0xF0 then (0x90, 0xBF)
  else if a.toNat = 0xF4 then (0x80, 0x8F)
  else (0x80, 0xBF)

def followsFirst (a b : UInt8) : Bool :=
  (secondByte a).1 ≤ b.toNat && b.toNat ≤ (secondByte a).2

/-- The character that starts with a byte, and how many more bytes it takes. -/
def firstChar (a : UInt8) (rest : List UInt8) : Char × ℕ :=
  if a.toNat < 0x80 then (Char.ofNat a.toNat, 0)
  else if a.toNat < 0xC2 || 0xF4 < a.toNat then (replacement, 0)
  else
    match rest with
    | [] => (replacement, 0)
    | b :: rest =>
        if !followsFirst a b then (replacement, 0)
        else if a.toNat < 0xE0 then
          (Char.ofNat ((a.toNat - 0xC0) * 64 + (b.toNat - 0x80)), 1)
        else
          match rest with
          | [] => (replacement, 1)
          | c :: rest =>
              if !isContinuation c then (replacement, 1)
              else if a.toNat < 0xF0 then
                (Char.ofNat (((a.toNat - 0xE0) * 64 + (b.toNat - 0x80)) * 64 +
                  (c.toNat - 0x80)), 2)
              else
                match rest with
                | [] => (replacement, 2)
                | d :: _ =>
                    if !isContinuation d then (replacement, 2)
                    else
                      (Char.ofNat ((((a.toNat - 0xF0) * 64 + (b.toNat - 0x80)) * 64 +
                        (c.toNat - 0x80)) * 64 + (d.toNat - 0x80)), 3)

/-- Decodes behind the bytes that the last character took. -/
def decodeFrom : ℕ → List UInt8 → List Char
  | _, [] => []
  | taken + 1, _ :: rest => decodeFrom taken rest
  | 0, a :: rest => (firstChar a rest).1 :: decodeFrom (firstChar a rest).2 rest

/-- `bytes.decode("utf-8", "replace")` -/
def decodeReplace (bytes : List UInt8) : List Char := decodeFrom 0 bytes

/-- `str.encode()` -/
def encode (s : List Char) : List UInt8 := s.flatMap String.utf8EncodeChar

section Encode

theorem decodeFrom_drop (n : ℕ) (bytes : List UInt8) :
    decodeFrom n bytes = decodeReplace (bytes.drop n) := by
  induction bytes generalizing n with
  | nil => cases n <;> rfl
  | cons a rest ih =>
    cases n with
    | zero => rfl
    | succ n => exact ih n

theorem toNat_ofNat {n : ℕ} (h : n < 256) : (UInt8.ofNat n).toNat = n := by
  rw [UInt8.toNat_ofNat']
  exact Nat.mod_eq_of_lt h

theorem followsFirst_iff {a b : UInt8} :
    followsFirst a b = true ↔ 0x80 ≤ b.toNat ∧ b.toNat ≤ 0xBF ∧
      (a.toNat = 0xE0 → 0xA0 ≤ b.toNat) ∧ (a.toNat = 0xED → b.toNat ≤ 0x9F) ∧
      (a.toNat = 0xF0 → 0x90 ≤ b.toNat) ∧ (a.toNat = 0xF4 → b.toNat ≤ 0x8F) := by
  rw [followsFirst, secondByte, Bool.and_eq_true, decide_eq_true_iff, decide_eq_true_iff]
  split_ifs <;> dsimp only <;> omega

theorem isContinuation_iff {b : UInt8} :
    isContinuation b = true ↔ 0x80 ≤ b.toNat ∧ b.toNat ≤ 0xBF := by
  rw [isContinuation, Bool.and_eq_true, decide_eq_true_iff, decide_eq_true_iff]

variable {a b c d : UInt8} {rest : List UInt8}

theorem firstChar_one (ha : a.toNat < 0x80) : firstChar a rest = (Char.ofNat a.toNat, 0) := by
  rw [firstChar.eq_def, if_pos ha]

/-- A byte that starts a character of several bytes. -/
theorem startsMore (ha : 0xC2 ≤ a.toNat) (ha' : a.toNat ≤ 0xF4) :
    ¬a.toNat < 0x80 ∧ ¬(decide (a.toNat < 0xC2) || decide (0xF4 < a.toNat)) = true := by
  rw [Bool.or_eq_true, decide_eq_true_iff, decide_eq_true_iff]
  omega

theorem firstChar_two (ha : 0xC2 ≤ a.toNat) (ha' : a.toNat < 0xE0)
    (hb : followsFirst a b = true) :
    firstChar a (b :: rest) =
      (Char.ofNat ((a.toNat - 0xC0) * 64 + (b.toNat - 0x80)), 1) := by
  obtain ⟨h80, hmore⟩ := startsMore ha (by omega)
  rw [firstChar.eq_def, if_neg h80, if_neg hmore]
  dsimp only
  rw [hb, if_neg (by decide), if_pos ha']

theorem firstChar_three (ha : 0xE0 ≤ a.toNat) (ha' : a.toNat < 0xF0)
    (hb : followsFirst a b = true) (hc : isContinuation c = true) :
    firstChar a (b :: c :: rest) =
      (Char.ofNat (((a.toNat - 0xE0) * 64 + (b.toNat - 0x80)) * 64 + (c.toNat - 0x80)), 2) := by
  obtain ⟨h80, hmore⟩ := startsMore (a := a) (by omega) (by omega)
  rw [firstChar.eq_def, if_neg h80, if_neg hmore]
  dsimp only
  rw [hb, if_neg (by decide), if_neg (by omega), hc, if_neg (by decide), if_pos ha']

theorem firstChar_four (ha : 0xF0 ≤ a.toNat) (ha' : a.toNat ≤ 0xF4)
    (hb : followsFirst a b = true) (hc : isContinuation c = true) (hd : isContinuation d = true) :
    firstChar a (b :: c :: d :: rest) =
      (Char.ofNat ((((a.toNat - 0xF0) * 64 + (b.toNat - 0x80)) * 64 + (c.toNat - 0x80)) * 64 +
        (d.toNat - 0x80)), 3) := by
  obtain ⟨h80, hmore⟩ := startsMore (a := a) (by omega) (by omega)
  rw [firstChar.eq_def, if_neg h80, if_neg hmore]
  dsimp only
  rw [hb, if_neg (by decide), if_neg (by omega), hc, if_neg (by decide), if_neg (by omega), hd,
    if_neg (by decide)]

end Encode

section Characters

variable {c : Char} {rest : List UInt8}

/-- The bytes of a character are read as the character. -/
theorem firstChar_encode (c : Char) (rest : List UInt8) :
    ∃ a tail, String.utf8EncodeChar c = a :: tail ∧
      firstChar a (tail ++ rest) = (c, tail.length) := by
  have hc : Char.ofNat c.val.toNat = c := Char.ofNat_toNat c
  have hvalid : c.val.toNat < 0xD800 ∨ 0xDFFF < c.val.toNat ∧ c.val.toNat < 0x110000 := c.valid
  rw [String.utf8EncodeChar]
  generalize c.val.toNat = v at hc hvalid
  -- The two bits of a continuation byte are always the same.
  have hcont : ∀ n, (UInt8.ofNat (n % 0x40 + 0x80)).toNat = n % 0x40 + 0x80 := fun n =>
    toNat_ofNat (by omega)
  have hlast : ∀ n, isContinuation (UInt8.ofNat (n % 0x40 + 0x80)) = true := by
    intro n
    rw [isContinuation_iff, hcont]
    omega
  by_cases h1 : v ≤ 0x7F
  · rw [if_pos h1]
    have ha : (UInt8.ofNat v).toNat = v := toNat_ofNat (by omega)
    exact ⟨_, [], rfl, by rw [firstChar_one (by omega), ha, hc]; rfl⟩
  rw [if_neg h1]
  by_cases h2 : v ≤ 0x7FF
  · rw [if_pos h2]
    have ha : (UInt8.ofNat (v / 64 % 0x20 + 0xC0)).toNat = v / 64 % 0x20 + 0xC0 :=
      toNat_ofNat (by omega)
    have hb := hcont v
    refine ⟨_, [_], rfl, ?_⟩
    rw [List.cons_append, List.nil_append, firstChar_two (by omega) (by omega)
      (followsFirst_iff.mpr (by omega)), ha, hb]
    have hvalue : (v / 64 % 0x20 + 0xC0 - 0xC0) * 64 + (v % 0x40 + 0x80 - 0x80) = v := by omega
    rw [hvalue, hc]
    rfl
  rw [if_neg h2]
  by_cases h3 : v ≤ 0xFFFF
  · rw [if_pos h3]
    have ha : (UInt8.ofNat (v / 4096 % 0x10 + 0xE0)).toNat = v / 4096 % 0x10 + 0xE0 :=
      toNat_ofNat (by omega)
    have hb := hcont (v / 64)
    have hb' := hcont v
    refine ⟨_, [_, _], rfl, ?_⟩
    rw [List.cons_append, List.cons_append, List.nil_append, firstChar_three (by omega) (by omega)
      (followsFirst_iff.mpr (by omega)) (hlast v), ha, hb, hb']
    have hvalue : ((v / 4096 % 0x10 + 0xE0 - 0xE0) * 64 + (v / 64 % 0x40 + 0x80 - 0x80)) * 64 +
        (v % 0x40 + 0x80 - 0x80) = v := by omega
    rw [hvalue, hc]
    rfl
  · rw [if_neg h3]
    have ha : (UInt8.ofNat (v / 262144 % 0x08 + 0xF0)).toNat = v / 262144 % 0x08 + 0xF0 :=
      toNat_ofNat (by omega)
    have hb := hcont (v / 4096)
    have hb' := hcont (v / 64)
    have hb'' := hcont v
    refine ⟨_, [_, _, _], rfl, ?_⟩
    rw [List.cons_append, List.cons_append, List.cons_append, List.nil_append,
      firstChar_four (by omega) (by omega) (followsFirst_iff.mpr (by omega)) (hlast _) (hlast v),
      ha, hb, hb', hb'']
    have hvalue : (((v / 262144 % 0x08 + 0xF0 - 0xF0) * 64 + (v / 4096 % 0x40 + 0x80 - 0x80)) * 64 +
        (v / 64 % 0x40 + 0x80 - 0x80)) * 64 + (v % 0x40 + 0x80 - 0x80) = v := by omega
    rw [hvalue, hc]
    rfl

theorem decodeReplace_char (c : Char) (rest : List UInt8) :
    decodeReplace (String.utf8EncodeChar c ++ rest) = c :: decodeReplace rest := by
  obtain ⟨a, tail, hbytes, hfirst⟩ := firstChar_encode c rest
  rw [hbytes, List.cons_append, decodeReplace, decodeFrom, hfirst, decodeFrom_drop,
    List.drop_left]

/-- What is encoded is decoded to itself, whatever follows. -/
theorem decodeReplace_encode (s : List Char) (rest : List UInt8) :
    decodeReplace (encode s ++ rest) = s ++ decodeReplace rest := by
  induction s with
  | nil => rfl
  | cons c s ih =>
    rw [encode, List.flatMap_cons, List.append_assoc, decodeReplace_char, ← encode, ih,
      List.cons_append]

/-! ## ASCII bytes -/

theorem utf8EncodeChar_ascii (hc : c.toNat < 0x80) :
    String.utf8EncodeChar c = [UInt8.ofNat c.toNat] := by
  have hle : c.val.toNat ≤ 0x7F := Nat.lt_succ_iff.mp hc
  rw [String.utf8EncodeChar]
  exact if_pos hle

/-- The bytes that a character takes after its first are no ASCII bytes. -/
theorem firstChar_takes {a : UInt8} : ∀ b ∈ rest.take (firstChar a rest).2, 0x80 ≤ b.toNat := by
  have hfollows : ∀ b, followsFirst a b = true → 0x80 ≤ b.toNat := fun b h =>
    (followsFirst_iff.mp h).1
  have hcontinues : ∀ b, isContinuation b = true → 0x80 ≤ b.toNat := fun b h =>
    (isContinuation_iff.mp h).1
  fun_cases firstChar a rest <;> simp_all

/-- No character swallows an ASCII one. -/
theorem mem_decodeReplace {bytes : List UInt8} (hc : c.toNat < 0x80)
    (hmem : UInt8.ofNat c.toNat ∈ bytes) : c ∈ decodeReplace bytes := by
  induction hn : bytes.length using Nat.strongRecOn generalizing bytes with
  | _ n ih =>
    have hval : (UInt8.ofNat c.toNat).toNat = c.toNat := toNat_ofNat (by omega)
    cases bytes with
    | nil => exact absurd hmem List.not_mem_nil
    | cons a rest =>
      rw [decodeReplace, decodeFrom, decodeFrom_drop, List.mem_cons]
      rcases List.mem_cons.mp hmem with rfl | hmem
      · left
        rw [firstChar_one (by omega), hval]
        exact (Char.ofNat_toNat c).symm
      · right
        rw [← List.take_append_drop (firstChar a rest).2 rest, List.mem_append] at hmem
        rcases hmem with htaken | hmem
        · have h80 := firstChar_takes _ htaken
          omega
        · refine ih _ ?_ hmem rfl
          rw [List.length_drop, ← hn, List.length_cons]
          omega

end Characters

/-! ## Texts that are cut off -/

section Cut

variable {a b c : UInt8} {rest : List UInt8}

theorem firstChar_le (a : UInt8) (rest : List UInt8) : (firstChar a rest).2 ≤ 3 := by
  fun_cases firstChar a rest <;> (dsimp only; omega)

/-- A character that would take a second byte. -/
theorem firstChar_missing (h : 1 ≤ (firstChar a rest).2) : firstChar a [] = (replacement, 0) := by
  by_cases h80 : a.toNat < 0x80
  · rw [firstChar_one h80] at h
    dsimp only at h
    omega
  · rw [firstChar.eq_def, if_neg h80]
    split <;> rfl

/-- A character that would take a third one. -/
theorem firstChar_missing_third (h : 2 ≤ (firstChar a (b :: rest)).2) :
    firstChar a [b] = (replacement, 1) := by
  rw [firstChar.eq_def] at h
  split at h
  · dsimp only at h
    omega
  rename_i h80
  split at h
  · dsimp only at h
    omega
  rename_i hmore
  dsimp only at h
  split at h
  · dsimp only at h
    omega
  rename_i hb
  split at h
  · dsimp only at h
    omega
  rename_i hthree
  rw [firstChar.eq_def, if_neg h80, if_neg hmore]
  dsimp only
  rw [if_neg hb, if_neg hthree]

/-- A character that would take a fourth one. -/
theorem firstChar_missing_fourth (h : 3 ≤ (firstChar a (b :: c :: rest)).2) :
    firstChar a [b, c] = (replacement, 2) := by
  rw [firstChar.eq_def] at h
  split at h
  · dsimp only at h
    omega
  rename_i h80
  split at h
  · dsimp only at h
    omega
  rename_i hmore
  dsimp only at h
  split at h
  · dsimp only at h
    omega
  rename_i hb
  split at h
  · dsimp only at h
    omega
  rename_i hthree
  split at h
  · dsimp only at h
    omega
  rename_i hc
  split at h
  · dsimp only at h
    omega
  rename_i hfour
  rw [firstChar.eq_def, if_neg h80, if_neg hmore]
  dsimp only
  rw [if_neg hb, if_neg hthree, if_neg hc, if_neg hfour]

/-- A character that is cut off takes the bytes that are there. -/
theorem firstChar_cut {tail cut : List UInt8} (h : (firstChar a tail).2 = tail.length)
    (hcut : cut <+: tail) (hne : cut ≠ tail) : firstChar a cut = (replacement, cut.length) := by
  have hlen : cut.length < tail.length := by
    refine Nat.lt_of_le_of_ne hcut.length_le fun heq => hne ?_
    exact hcut.eq_of_length heq
  have hle := firstChar_le a tail
  obtain ⟨t, rfl⟩ := hcut
  match cut with
  | [] => exact firstChar_missing (by rw [h]; exact hlen)
  | [b] =>
    refine firstChar_missing_third (?_ : 2 ≤ (firstChar a ([b] ++ t)).2)
    rw [h]
    exact hlen
  | [b, c] =>
    refine firstChar_missing_fourth (?_ : 3 ≤ (firstChar a ([b, c] ++ t)).2)
    rw [h]
    exact hlen
  | b :: c :: d :: cut =>
    simp only [List.length_cons] at hlen
    omega

/-- A text that is cut off is decoded to a beginning of it, and at most one replacement character
    for the character that is cut off. -/
theorem decodeReplace_cut (s : List Char) {bytes : List UInt8} (h : bytes <+: encode s) :
    bytes = encode s ∨ ∃ p c q, s = p ++ c :: q ∧
      (decodeReplace bytes = p ∨ decodeReplace bytes = p ++ [replacement]) := by
  induction s generalizing bytes with
  | nil => exact .inl (List.prefix_nil.mp h)
  | cons c s ih =>
    have hencode : encode (c :: s) = String.utf8EncodeChar c ++ encode s := by
      rw [encode, List.flatMap_cons, ← encode]
    rw [hencode] at h ⊢
    by_cases hchar : String.utf8EncodeChar c <+: bytes
    · obtain ⟨bytes, rfl⟩ := hchar
      rcases ih ((List.prefix_append_right_inj _).mp h) with rfl | ⟨p, d, q, rfl, hp⟩
      · exact .inl rfl
      · refine .inr ⟨c :: p, d, q, rfl, ?_⟩
        rw [decodeReplace_char]
        rcases hp with hp | hp
        · exact .inl (by rw [hp])
        · exact .inr (by rw [hp, List.cons_append])
    · refine .inr ⟨[], c, s, rfl, ?_⟩
      have hcut : bytes <+: String.utf8EncodeChar c :=
        (List.prefix_or_prefix_of_prefix h (List.prefix_append _ _)).resolve_right hchar
      obtain ⟨a, tail, htail, hfirst⟩ := firstChar_encode c []
      rw [htail] at hcut hchar
      rw [List.append_nil] at hfirst
      cases bytes with
      | nil => exact .inl rfl
      | cons b bytes =>
        obtain ⟨rfl, hrest⟩ := List.cons_prefix_cons.mp hcut
        have hne : bytes ≠ tail := by
          rintro rfl
          exact hchar (List.prefix_refl _)
        have hlength : (firstChar b tail).2 = tail.length := by rw [hfirst]
        right
        rw [decodeReplace, decodeFrom, firstChar_cut hlength hrest hne, decodeFrom_drop,
          List.drop_length]
        rfl

end Cut

end Babycat.Text
