/-
  Babycat.Recorder.PartialContent

  Playback of a clip (`get_clip`, FR-038).

  A request with a `Range` header that `_parse_byte_range` understands is
  answered by a stream of chunks.  A read of the file gives at least one byte
  where there is one, and may give fewer than asked for; the loop goes on by
  what it got.  The chunks together are the slice that the headers announce.
-/

import Babycat.Recorder.ByteRange

namespace Babycat.Recorder

-- ============================================================================
-- Reads of a file
-- ============================================================================

/-- How many bytes a read of a file of `n` bytes gives, by its position and its size. -/
structure FileReads (n : ℕ) where
  count : ℕ → ℕ → ℕ
  le_size : ∀ pos size, count pos size ≤ size
  le_rest : ∀ pos size, count pos size ≤ n - pos
  pos : ∀ {pos size}, 0 < size → pos < n → 0 < count pos size

/-- Every read is answered in full. -/
def FileReads.full (n : ℕ) : FileReads n where
  count pos size := min size (n - pos)
  le_size _ _ := Nat.min_le_left _ _
  le_rest _ _ := Nat.min_le_right _ _
  pos hsize hpos := lt_min hsize (Nat.sub_pos_of_lt hpos)

variable {content : List UInt8}

/-- `f.read(size)` at a position. -/
def FileReads.read (reads : FileReads content.length) (pos size : ℕ) : List UInt8 :=
  (content.drop pos).take (reads.count pos size)

theorem FileReads.length_read (reads : FileReads content.length) (pos size : ℕ) :
    (reads.read pos size).length = reads.count pos size := by
  rw [FileReads.read, List.length_take, List.length_drop]
  exact min_eq_left (reads.le_rest pos size)

-- ============================================================================
-- The stream
-- ============================================================================

/-- The size of a chunk. -/
def chunkSize : ℤ := 65536

/-- `iter_range` after the seek: the chunks, unless the rounds run out. -/
def iterRange (reads : FileReads content.length) :
    ℕ → ℕ → ℤ → Option (List (List UInt8))
  | 0, _, _ => none
  | rounds + 1, pos, remaining =>
      if 0 < remaining then
        let chunk := reads.read pos (min chunkSize remaining).toNat
        if chunk = [] then some []
        else (iterRange reads rounds (pos + chunk.length) (remaining - chunk.length)).map
          (chunk :: ·)
      else some []

/-- The locals of `get_clip` that its stream goes by, and its headers. -/
structure PartialContent where
  start : ℤ
  length : ℤ
  contentRange : String
  acceptRanges : String
  contentLength : String
  deriving DecidableEq

inductive ClipAnswer
  | error (status : ℕ) (detail : String)
  /-- An exception, which the server answers by 500. -/
  | raised
  /-- `FileResponse`: the whole file. -/
  | file
  /-- `StreamingResponse` with status 206. -/
  | partialContent (p : PartialContent)
  deriving DecidableEq

/-- `get_clip`, for the clip that the name resolves to and the `Range` header. -/
def getClip (clip : Option (List UInt8)) (rangeHeader : Option (List Char)) : ClipAnswer :=
  match clip with
  | none => .error 404 "clip not found"
  | some content =>
      let fileSize := content.length
      match rangeHeader.getD [] with
      | [] => .file
      | header =>
          match parseByteRange header fileSize with
          | .error _ => .raised
          | .ok none => .error 416 "invalid range"
          | .ok (some (start, stop)) =>
              let length := stop - start + 1
              .partialContent
                { start := start
                  length := length
                  contentRange := s!"bytes {start}-{stop}/{fileSize}"
                  acceptRanges := "bytes"
                  contentLength := toString length }

/-- The chunks that are streamed, unless the rounds run out. -/
def PartialContent.chunks (p : PartialContent) (reads : FileReads content.length)
    (rounds : ℕ) : Option (List (List UInt8)) :=
  iterRange reads rounds p.start.toNat p.length

-- ============================================================================
-- The slice
-- ============================================================================

/-- The bytes from `start` to `stop`, both included. -/
def slice (content : List UInt8) (start stop : ℤ) : List UInt8 :=
  (content.drop start.toNat).take (stop - start + 1).toNat

/-- The loop ends, and its chunks are the next `remaining` bytes. -/
theorem iterRange_bytes (reads : FileReads content.length) (rounds pos remaining : ℕ)
    (hpos : pos + remaining ≤ content.length) (hrounds : remaining < rounds) :
    ∃ chunks, iterRange reads rounds pos remaining = some chunks ∧
      chunks.flatten = (content.drop pos).take remaining := by
  induction rounds generalizing pos remaining with
  | zero => exact absurd hrounds (Nat.not_lt_zero _)
  | succ rounds ih =>
    rcases Nat.eq_zero_or_pos remaining with rfl | hremaining
    · exact ⟨[], by simp [iterRange], by simp⟩
    · obtain ⟨size, hsize⟩ : ∃ size, size = (min chunkSize (remaining : ℤ)).toNat := ⟨_, rfl⟩
      have hsizepos : 0 < size := by simp only [chunkSize] at hsize; omega
      have hsizele : size ≤ remaining := by simp only [chunkSize] at hsize; omega
      obtain ⟨got, hgot⟩ : ∃ got, got = reads.count pos size := ⟨_, rfl⟩
      have hgotpos : 0 < got := hgot ▸ reads.pos hsizepos (by omega)
      have hgotle : got ≤ remaining := le_trans (hgot ▸ reads.le_size pos size) hsizele
      have hlen : (reads.read pos size).length = got := by rw [reads.length_read, hgot]
      have hne : reads.read pos size ≠ [] := List.ne_nil_of_length_pos (by omega)
      obtain ⟨chunks, hchunks, hbytes⟩ := ih (pos + got) (remaining - got) (by omega) (by omega)
      refine ⟨reads.read pos size :: chunks, ?_, ?_⟩
      · rw [iterRange, if_pos (by omega), ← hsize]
        rw [if_neg hne, hlen, ← Nat.cast_sub hgotle, hchunks]
        rfl
      · rw [List.flatten_cons, hbytes, FileReads.read, ← hgot, ← List.drop_drop, ← List.take_add,
          Nat.add_sub_cancel' hgotle]

theorem length_slice {start stop : ℤ} (hstart : 0 ≤ start) (hle : start ≤ stop)
    (hstop : stop < content.length) :
    ((slice content start stop).length : ℤ) = stop - start + 1 := by
  rw [slice, List.length_take, List.length_drop]
  omega

/-- Slices that follow each other make up the one from the first to the last byte. -/
theorem slice_append {start stop last : ℤ} (hstart : 0 ≤ start) (hle : start ≤ stop)
    (hlast : stop ≤ last) :
    slice content start stop ++ slice content (stop + 1) last = slice content start last := by
  obtain ⟨size, hsize⟩ : ∃ size, size = (stop - start + 1).toNat := ⟨_, rfl⟩
  have hnext : (stop + 1).toNat = start.toNat + size := by omega
  have hall : (last - start + 1).toNat = size + (last - (stop + 1) + 1).toNat := by omega
  rw [slice, slice, slice, hnext, hall, ← hsize, ← List.drop_drop, ← List.take_add]

-- ============================================================================
-- What is sent
-- ============================================================================

/-- The answer to a request for an interval. -/
def partialAnswer (n : ℕ) (start stop : ℤ) : PartialContent where
  start := start
  length := stop - start + 1
  contentRange := s!"bytes {start}-{stop}/{n}"
  acceptRanges := "bytes"
  contentLength := toString (stop - start + 1)

theorem getClip_range {header : List Char} {start stop : ℤ}
    (h : parseByteRange header content.length = .ok (some (start, stop))) :
    getClip (some content) (some header) =
      .partialContent (partialAnswer content.length start stop) := by
  cases header with
  | nil => exact absurd h (by simp [parseByteRange, matchRange])
  | cons c header => simp only [getClip, Option.getD_some, h, partialAnswer]

theorem chunks_slice (reads : FileReads content.length) {start stop : ℤ} (hstart : 0 ≤ start)
    (hle : start ≤ stop) (hstop : stop < content.length) (rounds : ℕ)
    (hrounds : stop - start + 1 < rounds) :
    ∃ chunks, (partialAnswer content.length start stop).chunks reads rounds = some chunks ∧
      chunks.flatten = slice content start stop := by
  have hlen : ((stop - start + 1).toNat : ℤ) = stop - start + 1 := by omega
  obtain ⟨chunks, hchunks, hbytes⟩ := iterRange_bytes reads rounds start.toNat
    (stop - start + 1).toNat (by omega) (by omega)
  rw [hlen] at hchunks
  exact ⟨chunks, hchunks, hbytes⟩

/-- The bytes that are sent to a request, when its answer is partial content. -/
def sentBytes (content : List UInt8) (request : List Char × FileReads content.length) :
    Option (List UInt8) :=
  match getClip (some content) (some request.1) with
  | .partialContent p => (p.chunks request.2 (content.length + 1)).map List.flatten
  | _ => none

theorem sentBytes_slice {request : List Char × FileReads content.length} {start stop : ℤ}
    (h : parseByteRange request.1 content.length = .ok (some (start, stop))) :
    sentBytes content request = some (slice content start stop) := by
  obtain ⟨hstart, hle, hstop⟩ := parseByteRange_bounds h
  obtain ⟨chunks, hchunks, hbytes⟩ := chunks_slice request.2 hstart hle hstop
    (content.length + 1) (by push_cast; omega)
  simp only [sentBytes, getClip_range h, hchunks, Option.map_some, hbytes]

/-- The intervals follow each other from `start` up to the last byte before `stop`. -/
def Tiles (start : ℤ) : List (ℤ × ℤ) → ℤ → Prop
  | [], stop => start = stop
  | r :: rest, stop => r.1 = start ∧ Tiles (r.2 + 1) rest stop

theorem sentBytes_tiles {requests : List (List Char × FileReads content.length)}
    {ranges : List (ℤ × ℤ)} {start : ℤ} (hstart : 0 ≤ start)
    (hserved : List.Forall₂ (fun request r =>
      parseByteRange request.1 content.length = .ok (some r)) requests ranges)
    (htiles : Tiles start ranges content.length) :
    ∃ parts, requests.mapM (sentBytes content) = some parts ∧
      parts.flatten = slice content start (content.length - 1) := by
  induction hserved generalizing start with
  | nil =>
    have hlen : start = content.length := htiles
    refine ⟨[], rfl, ?_⟩
    rw [slice, hlen, Int.toNat_natCast, List.drop_length, List.take_nil, List.flatten_nil]
  | @cons request r requests ranges hrequest _ ih =>
    obtain ⟨hfirst, hrest⟩ := htiles
    obtain ⟨hpos, hle, hlt⟩ := parseByteRange_bounds hrequest
    obtain ⟨parts, hparts, hbytes⟩ := ih (by omega) hrest
    refine ⟨slice content r.1 r.2 :: parts, ?_, ?_⟩
    · simp [List.mapM_cons, sentBytes_slice hrequest, hparts]
    · rw [List.flatten_cons, hbytes, slice_append hpos hle (by omega), hfirst]

/-- Partial content is the slice that the headers announce, and slices that partition a file
    make it up. -/
theorem partialContent_exact (content : List UInt8) :
    (∀ (header : List Char) (start stop : ℤ),
      parseByteRange header content.length = .ok (some (start, stop)) →
      0 ≤ start ∧ start ≤ stop ∧ stop < content.length ∧
      ∃ p, getClip (some content) (some header) = .partialContent p ∧
        p.contentRange = s!"bytes {start}-{stop}/{content.length}" ∧
        p.contentLength = toString (stop - start + 1) ∧
        ∀ (reads : FileReads content.length) (rounds : ℕ), stop - start + 1 < rounds →
          ∃ chunks, p.chunks reads rounds = some chunks ∧
            chunks.flatten = slice content start stop ∧
            (chunks.flatten.length : ℤ) = stop - start + 1) ∧
    ∀ (requests : List (List Char × FileReads content.length)) (ranges : List (ℤ × ℤ)),
      List.Forall₂ (fun request r => parseByteRange request.1 content.length = .ok (some r))
        requests ranges →
      Tiles 0 ranges content.length →
      ∃ parts, requests.mapM (sentBytes content) = some parts ∧ parts.flatten = content := by
  constructor
  · intro header start stop h
    obtain ⟨hstart, hle, hstop⟩ := parseByteRange_bounds h
    refine ⟨hstart, hle, hstop, _, getClip_range h, rfl, rfl, ?_⟩
    intro reads rounds hrounds
    obtain ⟨chunks, hchunks, hbytes⟩ := chunks_slice reads hstart hle hstop rounds hrounds
    exact ⟨chunks, hchunks, hbytes, by rw [hbytes, length_slice hstart hle hstop]⟩
  · intro requests ranges hserved htiles
    obtain ⟨parts, hparts, hbytes⟩ := sentBytes_tiles le_rfl hserved htiles
    refine ⟨parts, hparts, ?_⟩
    rw [hbytes, slice, Int.toNat_zero, List.drop_zero]
    exact List.take_of_length_le (by omega)

/-- The second and the third of three bytes, and three bytes in two requests. -/
theorem partialContent_exact_three :
    (∃ p, getClip (some [7, 8, 9]) (some "bytes=1-".toList) = .partialContent p ∧
      p.contentRange = "bytes 1-2/3" ∧ p.contentLength = "2" ∧
      ∃ chunks, iterRange (FileReads.full [7, 8, 9].length) 3 p.start.toNat p.length = some chunks ∧
        chunks.flatten = [8, 9]) ∧
    ∃ parts, [("bytes=0-0".toList, FileReads.full 3), ("bytes=1-9".toList, FileReads.full 3)].mapM
      (sentBytes [7, 8, 9]) = some parts ∧ parts.flatten = [7, 8, 9] := by
  have hserved : parseByteRange "bytes=1-".toList 3 = .ok (some (1, 2)) := by decide
  have hzero : parseByteRange "bytes=0-0".toList 3 = .ok (some (0, 0)) := by decide
  have hrest : parseByteRange "bytes=1-9".toList 3 = .ok (some (1, 2)) := by decide
  obtain ⟨hone, hall⟩ := partialContent_exact [7, 8, 9]
  obtain ⟨-, -, -, p, hp, hrange, hlength, hchunks⟩ := hone "bytes=1-".toList 1 2 hserved
  obtain ⟨chunks, hstream, hbytes, -⟩ := hchunks (FileReads.full 3) 3 (by decide)
  refine ⟨⟨p, hp, hrange.trans (by decide), hlength.trans (by decide), chunks, hstream, ?_⟩, ?_⟩
  · exact hbytes.trans (by decide)
  · exact hall _ [(0, 0), (1, 2)] (.cons hzero (.cons hrest .nil)) (by simp [Tiles])

end Babycat.Recorder
