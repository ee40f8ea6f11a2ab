/-
  Babycat.Router.Secret

  The signing secret over boots that a power loss can cut
  (`auth.py`, `_load_or_create_secret`).

  The file is created with `O_EXCL`, written and closed, and never synced.  A
  cut leaves it as the steps have left it, or, as long as it is not on the disk,
  missing or with the front of its text.  A boot after that returns what it
  finds; only a file that is there but blank is neither read nor created again,
  so every boot after such a cut fails (`blank_secret`).
-/

import Babycat.Text.PyStr

namespace Babycat.Router

open Babycat.Text

-- ============================================================================
-- The function
-- ============================================================================

/-- `jwt_secret`: its text if it is there, and whether a power loss can still take it back. -/
structure SecretFile where
  text : Option PyStr
  synced : Bool
  deriving DecidableEq

/-- What `secrets.token_hex(32)` draws. -/
structure TokenBytes where
  bytes : List (Fin 256)
  length_eq : bytes.length = 32

def hexByte (b : Fin 256) : PyStr :=
  [codePoint (b.val / 16).digitChar, codePoint (b.val % 16).digitChar]

/-- `secrets.token_hex(32)` -/
def tokenHex (t : TokenBytes) : PyStr := t.bytes.flatMap hexByte

/-- The steps of `_load_or_create_secret`. -/
inductive SecretPc
  | read
  | mkdir
  | create
  | write (secret : PyStr)
  | close (secret : PyStr)
  | leave (secret : PyStr)
  deriving DecidableEq

inductive BootState
  | running (pc : SecretPc)
  | returned (secret : PyStr)
  | raised
  deriving DecidableEq

/-- `_SECRET_PATH.read_text().strip()` for the text of the file. -/
def readSecret (text : PyStr) : PyStr := strip (universalNewlines text)

/-- One step of `_load_or_create_secret`. -/
def secretNext (t : TokenBytes) (f : SecretFile) : SecretPc → SecretFile × BootState
  | .read =>
      match f.text with
      | some text =>
          if readSecret text ≠ [] then (f, .returned (readSecret text)) else (f, .running .mkdir)
      | none => (f, .running .mkdir)
  | .mkdir => (f, .running .create)
  | .create =>
      match f.text with
      | some _ => (f, .raised)
      | none => (⟨some [], false⟩, .running (.write (tokenHex t)))
  -- the text waits in the buffer of `f` until it is closed
  | .write secret => (f, .running (.close secret))
  | .close secret => (⟨some secret, false⟩, .running (.leave secret))
  | .leave secret => (f, .returned secret)

/-- The first `n` steps of a boot that is at `s`. -/
def bootSteps (t : TokenBytes) : ℕ → SecretFile → BootState → SecretFile × BootState
  | n + 1, f, .running pc => bootSteps t n (secretNext t f pc).1 (secretNext t f pc).2
  | _, f, s => (f, s)

/-- The first `n` steps of a boot. -/
def bootFor (t : TokenBytes) (n : ℕ) (f : SecretFile) : SecretFile × BootState :=
  bootSteps t n f (.running .read)

/-- A boot that is not cut. -/
def wholeBoot (t : TokenBytes) (f : SecretFile) : SecretFile × BootState := bootFor t 6 f

-- ============================================================================
-- What a boot does
-- ============================================================================

/-- The file is not there, or has a secret to return. -/
def Readable (text : Option PyStr) : Prop := ∀ s ∈ text, readSecret s ≠ []

section Boot

variable {t : TokenBytes} {f : SecretFile} {text : PyStr} {n : ℕ}

theorem bootSteps_done {s : BootState} (h : ∀ pc, s ≠ .running pc) :
    bootSteps t n f s = (f, s) := by
  cases n with
  | zero => rfl
  | succ n =>
    cases s with
    | running pc => exact absurd rfl (h pc)
    | returned secret => rfl
    | raised => rfl

/-- The hexadecimal digits are no blanks. -/
theorem tokenHex_noSpace (t : TokenBytes) : ∀ c ∈ tokenHex t, isSpace c = false := by
  intro c hc
  obtain ⟨b, -, hb⟩ := List.mem_flatMap.mp hc
  have hdigit : ∀ n < 16, isSpace (codePoint n.digitChar) = false := by decide
  have hlt := b.isLt
  simp only [hexByte, List.mem_cons, List.not_mem_nil, or_false] at hb
  rcases hb with rfl | rfl
  · exact hdigit _ (by omega)
  · exact hdigit _ (by omega)

theorem tokenHex_ne_nil (t : TokenBytes) : tokenHex t ≠ [] := by
  have hlen := t.length_eq
  cases h : t.bytes with
  | nil =>
    rw [h] at hlen
    cases hlen
  | cons b bytes =>
    rw [tokenHex, h, List.flatMap_cons]
    exact List.cons_ne_nil _ _

/-- The secret is read back as it was written. -/
theorem readSecret_tokenHex (t : TokenBytes) : readSecret (tokenHex t) = tokenHex t := by
  have hcr : codePoint '\r' ∉ tokenHex t := by
    intro hmem
    have := tokenHex_noSpace t _ hmem
    exact absurd this (by decide)
  rw [readSecret, universalNewlines_eq_self hcr]
  exact stripBy_of_none (tokenHex_noSpace t)

/-- A boot returns what it finds, and touches nothing. -/
theorem bootFor_found (htext : f.text = some text) (hne : readSecret text ≠ []) :
    (bootFor t n f).1 = f ∧
      ((bootFor t n f).2 = .running .read ∧ n = 0 ∨
        (bootFor t n f).2 = .returned (readSecret text)) := by
  cases n with
  | zero => exact ⟨rfl, .inl ⟨rfl, rfl⟩⟩
  | succ n =>
    have hread : secretNext t f .read = (f, .returned (readSecret text)) := by
      simp only [secretNext, htext, if_pos hne]
    have hdone : bootFor t (n + 1) f = (f, .returned (readSecret text)) := by
      show bootSteps t n (secretNext t f .read).1 (secretNext t f .read).2 = _
      rw [hread]
      exact bootSteps_done fun pc h => by cases h
    rw [hdone]
    exact ⟨rfl, .inr rfl⟩

/-- A file that is there but blank is neither returned nor written. -/
theorem bootFor_blank (htext : f.text = some text) (hblank : readSecret text = []) :
    (bootFor t n f).1 = f ∧
      ((∃ pc, (bootFor t n f).2 = .running pc ∧ n < 3) ∨ (bootFor t n f).2 = .raised) := by
  have hread : secretNext t f .read = (f, .running .mkdir) := by
    simp only [secretNext, htext, hblank, ne_eq, not_true_eq_false, if_false]
  have hcreate : secretNext t f .create = (f, .raised) := by simp only [secretNext, htext]
  have hstep : ∀ m, bootFor t (m + 1) f = bootSteps t m f (.running .mkdir) := by
    intro m
    show bootSteps t m (secretNext t f .read).1 (secretNext t f .read).2 = _
    rw [hread]
  match n with
  | 0 => exact ⟨rfl, .inl ⟨_, rfl, by omega⟩⟩
  | 1 =>
    rw [hstep]
    exact ⟨rfl, .inl ⟨_, rfl, by omega⟩⟩
  | 2 =>
    rw [hstep]
    exact ⟨rfl, .inl ⟨_, rfl, by omega⟩⟩
  | n + 3 =>
    have hdone : bootFor t (n + 3) f = (f, .raised) := by
      rw [hstep]
      show bootSteps t n (secretNext t f .create).1 (secretNext t f .create).2 = _
      rw [hcreate]
      exact bootSteps_done fun pc h => by cases h
    rw [hdone]
    exact ⟨rfl, .inr rfl⟩

/-- A boot that finds no file: until it returns, the file is missing, empty or written. -/
theorem bootFor_missing (htext : f.text = none) :
    (∃ pc, (bootFor t n f).2 = .running pc ∧ n < 6) ∨
      ((bootFor t n f).1.text = some (tokenHex t) ∧
        (bootFor t n f).2 = .returned (tokenHex t)) := by
  have hread : secretNext t f .read = (f, .running .mkdir) := by simp only [secretNext, htext]
  have hcreate : secretNext t f .create = (⟨some [], false⟩, .running (.write (tokenHex t))) := by
    simp only [secretNext, htext]
  have hstep : ∀ m, bootFor t (m + 1) f = bootSteps t m f (.running .mkdir) := by
    intro m
    show bootSteps t m (secretNext t f .read).1 (secretNext t f .read).2 = _
    rw [hread]
  have hwrite : ∀ m, bootFor t (m + 3) f =
      bootSteps t m ⟨some [], false⟩ (.running (.write (tokenHex t))) := by
    intro m
    rw [hstep]
    show bootSteps t m (secretNext t f .create).1 (secretNext t f .create).2 = _
    rw [hcreate]
  match n with
  | 0 => exact .inl ⟨_, rfl, by omega⟩
  | 1 =>
    rw [hstep]
    exact .inl ⟨_, rfl, by omega⟩
  | 2 =>
    rw [hstep]
    exact .inl ⟨_, rfl, by omega⟩
  | 3 =>
    rw [hwrite]
    exact .inl ⟨_, rfl, by omega⟩
  | 4 =>
    rw [hwrite]
    exact .inl ⟨_, rfl, by omega⟩
  | 5 =>
    rw [hwrite]
    exact .inl ⟨_, rfl, by omega⟩
  | n + 6 =>
    have hret : ∀ pc, BootState.returned (tokenHex t) ≠ .running pc := fun pc h => by cases h
    have hdone : bootFor t (n + 6) f = (⟨some (tokenHex t), false⟩, .returned (tokenHex t)) := by
      rw [hwrite]
      exact bootSteps_done hret
    rw [hdone]
    exact .inr ⟨rfl, rfl⟩

end Boot

-- ============================================================================
-- Histories of boots
-- ============================================================================

/-- What a power loss can leave of the file. -/
def SecretFile.Leaves (f : SecretFile) (left : Option PyStr) : Prop :=
  left = f.text ∨
    (f.synced = false ∧ (left = none ∨ ∃ s ∈ f.text, ∃ front, front <+: s ∧ left = some front))

/-- A boot, and how far it came. -/
structure BootRecord where
  cut : Bool
  state : BootState
  deriving DecidableEq

/-- The boots since `f₀`, latest first, and the file after them.  `may` says which of the cuts
    that are possible are considered. -/
inductive BootRun (may : List BootRecord → SecretFile → Option PyStr → Prop) (f₀ : SecretFile) :
    List BootRecord → SecretFile → Prop
  | start : BootRun may f₀ [] f₀
  | boot {log f} (t : TokenBytes) : BootRun may f₀ log f →
      BootRun may f₀ (⟨false, (wholeBoot t f).2⟩ :: log) (wholeBoot t f).1
  | cut {log f left} (t : TokenBytes) (n : ℕ) : BootRun may f₀ log f →
      (bootFor t n f).1.Leaves left →
      may (⟨true, (bootFor t n f).2⟩ :: log) (bootFor t n f).1 left →
      BootRun may f₀ (⟨true, (bootFor t n f).2⟩ :: log) ⟨left, true⟩

/-- The cuts that leave no blank file, and nothing else than before once a secret was returned. -/
def KeepsSecret (log : List BootRecord) (f : SecretFile) (left : Option PyStr) : Prop :=
  Readable left ∧ ((∃ r ∈ log, ∃ secret, r.state = .returned secret) → left = f.text)

/-- The boot returned the secret, or was cut before it returned. -/
def BootRecord.Agrees (secret : PyStr) (r : BootRecord) : Prop :=
  r.state = .returned secret ∨ (r.cut = true ∧ ∃ pc, r.state = .running pc)

/-- Every boot so far was cut before it returned, or the file has the secret of all that did. -/
def BootInv (log : List BootRecord) (f : SecretFile) : Prop :=
  Readable f.text ∧
    ((∀ r ∈ log, r.cut = true ∧ ∃ pc, r.state = .running pc) ∨
      ∃ text, f.text = some text ∧ ∀ r ∈ log, r.Agrees (readSecret text))

section Runs

variable {log : List BootRecord} {f f₀ : SecretFile} {left : Option PyStr}
variable {may : List BootRecord → SecretFile → Option PyStr → Prop}

theorem agrees_cons {secret : PyStr} {r : BootRecord} (hr : r.Agrees secret)
    (h : ∀ r' ∈ log, r'.Agrees secret) : ∀ r' ∈ r :: log, r'.Agrees secret := by
  intro r' hr'
  rcases List.mem_cons.mp hr' with rfl | hr'
  · exact hr
  · exact h r' hr'

/-- After the first steps of a boot: it is still running and no boot has returned, or the file has
    the secret of all that have. -/
theorem BootInv.steps (h : BootInv log f) (t : TokenBytes) (n : ℕ) :
    ((∀ r ∈ log, r.cut = true ∧ ∃ pc, r.state = .running pc) ∧ n < 6 ∧
        ∃ pc, (bootFor t n f).2 = .running pc) ∨
      ∃ text, (bootFor t n f).1.text = some text ∧ readSecret text ≠ [] ∧
        (∀ r ∈ log, r.Agrees (readSecret text)) ∧
        ((bootFor t n f).2 = .returned (readSecret text) ∨
          (n = 0 ∧ ∃ pc, (bootFor t n f).2 = .running pc)) := by
  obtain ⟨hreadable, hlog⟩ := h
  cases htext : f.text with
  | none =>
    have hall : ∀ r ∈ log, r.cut = true ∧ ∃ pc, r.state = .running pc := by
      rcases hlog with hall | ⟨text, hsome, -⟩
      · exact hall
      · rw [htext] at hsome
        cases hsome
    rcases bootFor_missing htext with ⟨pc, hrun, hn⟩ | ⟨hfile, hret⟩
    · exact .inl ⟨hall, hn, pc, hrun⟩
    · have hread := readSecret_tokenHex t
      refine .inr ⟨tokenHex t, hfile, hread.symm ▸ tokenHex_ne_nil t, fun r hr => ?_, .inl ?_⟩
      · exact .inr (hall r hr)
      · rw [hret, hread]
  | some text =>
    have hne := hreadable text (Option.mem_def.mpr htext)
    obtain ⟨hfile, hstate⟩ := bootFor_found (t := t) (n := n) htext hne
    refine .inr ⟨text, by rw [hfile, htext], hne, fun r hr => ?_, ?_⟩
    · rcases hlog with hall | ⟨other, hsome, hagree⟩
      · exact .inr (hall r hr)
      · rw [htext] at hsome
        cases hsome
        exact hagree r hr
    · rcases hstate with ⟨hrun, hn⟩ | hret
      · exact .inr ⟨hn, _, hrun⟩
      · exact .inl hret

/-- A boot that is not cut returns. -/
theorem BootInv.boot (h : BootInv log f) (t : TokenBytes) :
    BootInv (⟨false, (wholeBoot t f).2⟩ :: log) (wholeBoot t f).1 := by
  rcases h.steps t 6 with ⟨-, hn, -⟩ | ⟨text, htext, hne, hagree, hret | ⟨hn, -⟩⟩
  · exact absurd hn (by omega)
  · refine ⟨fun s hs => ?_, .inr ⟨text, htext, agrees_cons (.inl hret) hagree⟩⟩
    rw [wholeBoot, htext] at hs
    cases hs
    exact hne
  · exact absurd hn (by omega)

/-- A cut that keeps the secret. -/
theorem BootInv.cut (h : BootInv log f) (t : TokenBytes) (n : ℕ)
    (hkeep : KeepsSecret (⟨true, (bootFor t n f).2⟩ :: log) (bootFor t n f).1 left) :
    BootInv (⟨true, (bootFor t n f).2⟩ :: log) ⟨left, true⟩ := by
  obtain ⟨hreadable, hsame⟩ := hkeep
  refine ⟨hreadable, ?_⟩
  by_cases hret : ∃ r ∈ (⟨true, (bootFor t n f).2⟩ :: log : List BootRecord),
      ∃ secret, r.state = .returned secret
  · right
    rcases h.steps t n with ⟨hall, -, pc, hrun⟩ | ⟨text, htext, -, hagree, hstate⟩
    · obtain ⟨r, hr, secret, hsecret⟩ := hret
      rcases List.mem_cons.mp hr with rfl | hr
      · rw [hrun] at hsecret
        cases hsecret
      · obtain ⟨-, pc', hpc⟩ := hall r hr
        rw [hpc] at hsecret
        cases hsecret
    · refine ⟨text, (hsame hret).trans htext, agrees_cons ?_ hagree⟩
      rcases hstate with hret | ⟨-, hrun⟩
      · exact .inl hret
      · exact .inr ⟨rfl, hrun⟩
  · left
    intro r hr
    have hnot : ∀ secret, r.state ≠ .returned secret := fun secret hs => hret ⟨r, hr, secret, hs⟩
    rcases h.steps t n with ⟨hall, -, hrun⟩ | ⟨text, -, -, hagree, hstate⟩
    · rcases List.mem_cons.mp hr with rfl | hr
      · exact ⟨rfl, hrun⟩
      · exact hall r hr
    · rcases List.mem_cons.mp hr with rfl | hr
      · rcases hstate with hret | ⟨-, hrun⟩
        · exact absurd hret (hnot _)
        · exact ⟨rfl, hrun⟩
      · exact (hagree r hr).resolve_left (hnot _)

theorem BootRun.inv (hrun : BootRun KeepsSecret f₀ log f) (h₀ : Readable f₀.text) :
    BootInv log f := by
  induction hrun with
  | start => exact ⟨h₀, .inl fun r hr => by cases hr⟩
  | boot t _ ih => exact ih.boot t
  | cut t n _ _ hkeep ih => exact ih.cut t n hkeep

/-- The secret over boots whose cuts keep it: there is one secret, and every boot returns it
    unless it was cut before. -/
theorem secret_over_boots (f₀ f : SecretFile) (log : List BootRecord) (h₀ : Readable f₀.text)
    (hrun : BootRun KeepsSecret f₀ log f) :
    ∃ secret ≠ [], ∀ r ∈ log, r.Agrees secret := by
  obtain ⟨hreadable, hall | ⟨text, htext, hagree⟩⟩ := hrun.inv h₀
  · exact ⟨[0], List.cons_ne_nil _ _, fun r hr => .inr (hall r hr)⟩
  · exact ⟨readSecret text, hreadable text (Option.mem_def.mpr htext), hagree⟩

/-- A blank file stays, whatever happens: every boot that is not cut fails. -/
theorem blank_secret {text : PyStr} (hrun : BootRun may f₀ log f) (htext : f₀.text = some text)
    (hblank : readSecret text = []) (hsynced : f₀.synced = true) :
    f = f₀ ∧ ∀ r ∈ log, r.cut = false → r.state = .raised := by
  induction hrun with
  | start => exact ⟨rfl, fun r hr => by cases hr⟩
  | @boot log f t _ ih =>
    obtain ⟨rfl, hlog⟩ := ih
    obtain ⟨hfile, ⟨pc, -, hn⟩ | hraised⟩ := bootFor_blank (t := t) (n := 6) htext hblank
    · exact absurd hn (by omega)
    · refine ⟨hfile, fun r hr hcut => ?_⟩
      rcases List.mem_cons.mp hr with rfl | hr
      · exact hraised
      · exact hlog r hr hcut
  | @cut log f left t n _ hleaves _ ih =>
    obtain ⟨rfl, hlog⟩ := ih
    obtain ⟨hfile, -⟩ := bootFor_blank (t := t) (n := n) htext hblank
    rw [hfile] at hleaves
    rcases hleaves with rfl | ⟨hnot, -⟩
    · refine ⟨?_, fun r hr hcut => ?_⟩
      · rw [← hsynced]
      · rcases List.mem_cons.mp hr with rfl | hr
        · cases hcut
        · exact hlog r hr hcut
    · rw [hsynced] at hnot
      cases hnot

end Runs

-- ============================================================================
-- Runs on given bytes
-- ============================================================================

/-- What a draw can give. -/
def sampleToken : TokenBytes := ⟨List.replicate 32 171, by decide⟩

/-- The first boot is cut in front of the open and leaves no file; the next two return. -/
theorem secret_over_boots_cut_early :
    ∃ secret ≠ [], ∀ r ∈ [⟨false, (wholeBoot sampleToken (wholeBoot sampleToken ⟨none, true⟩).1).2⟩,
      ⟨false, (wholeBoot sampleToken ⟨none, true⟩).2⟩, ⟨true, .running .create⟩],
        BootRecord.Agrees secret r := by
  have h1 : BootRun KeepsSecret ⟨none, true⟩ [⟨true, .running .create⟩] ⟨none, true⟩ :=
    .cut sampleToken 2 .start (.inl rfl) ⟨fun s hs => (by cases hs), fun _ => rfl⟩
  exact secret_over_boots ⟨none, true⟩ _ _ (fun s hs => by cases hs)
    ((h1.boot sampleToken).boot sampleToken)

/-- The first boot is cut between the open and the write: the second one raises. -/
theorem secret_cut_after_create :
    ∃ log f, BootRun (fun _ _ _ => True) ⟨none, true⟩ log f ∧
      (⟨false, .raised⟩ : BootRecord) ∈ log := by
  have h1 : BootRun (fun _ _ _ => True) ⟨none, true⟩ _ ⟨some [], true⟩ :=
    .cut sampleToken 3 .start (.inl rfl) trivial
  exact ⟨_, _, h1.boot sampleToken, List.mem_cons_self⟩

end Babycat.Router
