import Yuance.FileCrypto.Sizes

/-!
# Yuance.FileCrypto.UploadStream

`streamHandle` of `desktop/src/files/upload-executor.mjs`: the body of an upload, put out piece by
piece while the file is read. A read may return less than it was asked for. What a digest has taken
in is the bytes themselves.

* `Handle`: the file and how much its reads return.
* `pull`: one call of the stream's source.
* `Filled`: what a file of which `pending` waits behind the first bytes looks like.
* `fill_filled`: the inner loop reads a whole chunk, or to the end of the file.
* `Sent`: the stream behind `i` chunks. `sent_next`: one more.
* `stream_independent_of_reads`: what comes out does not depend on what the reads return.
-/

namespace Yuance
namespace FileCrypto
namespace Desktop

open Lib

/-- The `encryption` block of a transfer contract, with what `parseEncryption` checks of it. -/
structure Encryption where
  chunkSize : Nat
  key : Key
  fileObjectId : Int
  plaintextByteSize : Nat
  plaintextSha256 : String
  chunkSize_eq : chunkSize = fileChunkSize
  one_le_id : 1 ≤ fileObjectId
  safe_id : isSafeInteger fileObjectId

/-- A file and its reads: read `k`, asked for `n` bytes, returns `answer k n` of them or rejects. -/
structure Handle where
  file : Bytes
  answer : Nat → Nat → Option Nat

/-- `handle.read(buffer, 0, asked, position)`, the `k`-th one. -/
def Handle.read (h : Handle) (k asked position : Nat) : Option Bytes :=
  (h.answer k asked).map fun bytesRead => (h.file.drop position).take (min bytesRead asked)

/-- Each read returns between one byte and what was asked. -/
def Handle.Splits (h : Handle) : Prop :=
  ∀ k asked, 0 < asked → ∃ bytesRead, h.answer k asked = some bytesRead ∧
    1 ≤ bytesRead ∧ bytesRead ≤ asked

/-- `64 * 1024`. -/
def readSize : Nat := 64 * 1024

inductive StreamPhase where
  | readable
  | closed
  | errored
  deriving DecidableEq, Repr

/-- The variables of `streamHandle`, `uploadState` and the queue of the stream. -/
structure UploadStream where
  offset : Nat
  sourceOffset : Nat
  /-- What `hash` has taken in. -/
  hashed : Bytes
  /-- What `plaintextHash` has taken in. -/
  plaintextHashed : Bytes
  chunkIndex : Nat
  headerSent : Bool
  pending : Bytes
  /-- How many reads there were. -/
  reads : Nat
  enqueued : List Bytes
  phase : StreamPhase
  deriving DecidableEq

def UploadStream.start : UploadStream :=
  ⟨0, 0, [], [], 0, false, [], 0, [], .readable⟩

/-- What the stream is made of. -/
structure UploadSource where
  handle : Handle
  expectedBytes : Nat
  /-- The block and the header made for it. -/
  encryption : Option (Encryption × Bytes)

/-- `nonce` are the values of `randomBytes`. -/
def streamHandle (handle : Handle) (expectedBytes : Nat) (encryption : Option Encryption)
    (nonce : Nat → Nonce) : Except Error UploadSource :=
  match encryption with
  | none => .ok ⟨handle, expectedBytes, none⟩
  | some e => do
    let header ← createEncryptionHeader e.plaintextByteSize e.plaintextSha256 nonce
    pure ⟨handle, expectedBytes, some (e, header)⟩

namespace UploadStream

variable (s : UploadStream)

def close : UploadStream := { s with phase := .closed }

def fail : UploadStream := { s with phase := .errored }

/-- `state.hash.update(bytes)`, `state.offset += bytes.length` and `controller.enqueue(bytes)`. -/
def enqueue (bytes : Bytes) : UploadStream :=
  { s with
    offset := s.offset + bytes.length
    hashed := s.hashed ++ bytes
    enqueued := s.enqueued ++ [bytes] }

/-- A piece of the file has come. -/
def take (piece : Bytes) : UploadStream :=
  { s with
    pending := s.pending ++ piece
    sourceOffset := s.sourceOffset + piece.length
    plaintextHashed := s.plaintextHashed ++ piece
    reads := s.reads + 1 }

def missRead : UploadStream := { s with reads := s.reads + 1 }

end UploadStream

/-- The inner loop of `pull`; `false` where it throws. -/
def fill (handle : Handle) (chunkSize sourceSize : Nat) (s : UploadStream) : UploadStream × Bool :=
  if s.pending.length < chunkSize ∧ s.sourceOffset < sourceSize then
    match handle.read s.reads (min readSize (sourceSize - s.sourceOffset)) s.sourceOffset with
    | none => (s.missRead, false)
    | some [] => (s.missRead, false)
    | some (b :: piece) => fill handle chunkSize sourceSize (s.take (b :: piece))
  else (s, true)
  termination_by sourceSize - s.sourceOffset
  decreasing_by
    simp only [UploadStream.take, List.length_cons]
    omega

section Pull

variable (P : Prims) (src : UploadSource)

/-- `pull` without encryption. -/
def pullPlain (s : UploadStream) : UploadStream :=
  if s.offset = src.expectedBytes then s.close
  else
    match src.handle.read s.reads (min readSize (src.expectedBytes - s.sourceOffset))
        s.sourceOffset with
    | none => s.missRead.fail
    | some [] => s.missRead.fail
    | some (b :: piece) =>
      { s.missRead with sourceOffset := s.sourceOffset + (b :: piece).length }.enqueue (b :: piece)

/-- The next chunk goes out, once it is complete or the file has ended. -/
def sendChunk (e : Encryption) (header : Bytes) (s : UploadStream) : UploadStream :=
  if s.pending.length ≥ e.chunkSize ∨
      s.sourceOffset ≥ e.plaintextByteSize ∧ s.pending.length > 0 then
    let chunk := s.pending.take (min e.chunkSize s.pending.length)
    let chunkCount := ceilDiv e.plaintextByteSize e.chunkSize
    let noncesOffset := header.length - chunkCount * 12
    let nonce := subarray header (noncesOffset + s.chunkIndex * 12)
      (noncesOffset + (s.chunkIndex + 1) * 12)
    match encryptBodyChunk P e.key e.fileObjectId s.chunkIndex nonce chunk with
    | .error _ => { s with pending := s.pending.drop chunk.length }.fail
    | .ok encrypted =>
      { s with
        pending := s.pending.drop chunk.length
        chunkIndex := s.chunkIndex + 1 }.enqueue encrypted
  else if s.sourceOffset ≥ e.plaintextByteSize ∧ s.pending.length = 0 then
    if s.offset = src.expectedBytes then s.close else s.fail
  else s

/-- `pull` with encryption. -/
def pullEncrypted (e : Encryption) (header : Bytes) (s : UploadStream) : UploadStream :=
  if s.headerSent = false then
    let s := { s with headerSent := true }.enqueue header
    if ceilDiv e.plaintextByteSize e.chunkSize = 0 then s.close else s
  else if s.offset = src.expectedBytes then s.close
  else
    match fill src.handle e.chunkSize e.plaintextByteSize s with
    | (s, false) => s.fail
    | (s, true) => sendChunk P src e header s

/-- One call of the source; `aborted` is what the signal says. -/
def pull (aborted : Bool) (s : UploadStream) : UploadStream :=
  if aborted then s.fail
  else
    match src.encryption with
    | none => pullPlain src s
    | some (e, header) => pullEncrypted P src e header s

/-- The stream calls its source as long as it is readable. -/
def drain : Nat → UploadStream → UploadStream
  | 0, s => s
  | n + 1, s => if s.phase = .readable then drain n (pull P src false s) else s

end Pull

/-! ## The header -/

section Header

variable {n : Nat} {sha : String} {nonce : Nat → Nonce} {header : Bytes}

theorem writeUInt_length {width value offset : Nat} {buffer written : Bytes}
    (h : writeUInt width buffer value offset = .ok written)
    (hfit : offset + width ≤ buffer.length) :
    value < 256 ^ width ∧ written.length = buffer.length := by
  obtain ⟨_, hvalue, h⟩ := bind_eq_ok.mp h
  have hwritten : written = writeAt buffer offset (toBE width value) := (Except.ok.inj h).symm
  refine ⟨by simpa using rejectIf_eq_ok.mp hvalue, ?_⟩
  rw [hwritten, writeAt]
  simp only [List.length_append, List.length_take, List.length_drop, toBE_length]
  omega

theorem bufferCopy_length {target source : Bytes} {offset : Nat} (hfit : offset ≤ target.length) :
    (bufferCopy target offset source).length = target.length := by
  simp only [bufferCopy, writeAt, List.length_append, List.length_take, List.length_drop]
  omega

theorem count_of_chunkCountFor {count : Nat} (h : chunkCountFor n = .ok count) :
    count = Format.count n := by
  obtain ⟨_, _, h⟩ := bind_eq_ok.mp h
  rw [← Except.ok.inj h]
  split
  · rename_i hzero
    rw [hzero, Format.count, ceilDiv_zero_left]
  · rfl

/-- The nonces stand at the end of the header, whatever the digest is. -/
theorem createEncryptionHeader_shape (h : createEncryptionHeader n sha nonce = .ok header) :
    Format.count n < 2 ^ 32 ∧ ∃ fixed, fixed.length = 65 ∧
      header = fixed ++ (List.range (Format.count n)).flatMap fun i => (nonce i).val := by
  have hm : magic.length = 13 := by decide
  unfold createEncryptionHeader at h
  obtain ⟨count, hcount, h⟩ := bind_eq_ok.mp h
  obtain rfl := count_of_chunkCountFor hcount
  have hnonces := @Format.flatMap_nonce_length nonce (Format.count n)
  obtain ⟨nonces, hn⟩ : ∃ nonces, (List.range (Format.count n)).flatMap
      (fun i => (nonce i).val) = nonces := ⟨_, rfl⟩
  rw [hn] at hnonces ⊢
  simp only [hn, hm, show headerFixedLength = 65 by decide, show sha256Length = 32 by decide] at h
  have hlen0 : (bufferCopy (zeros (65 + nonces.length)) 0 magic).length = 65 + nonces.length := by
    rw [bufferCopy_length (Nat.zero_le _), zeros_length]
  obtain ⟨written1, h1, h⟩ := bind_eq_ok.mp h
  obtain ⟨written2, h2, h⟩ := bind_eq_ok.mp h
  obtain ⟨written3, h3, h⟩ := bind_eq_ok.mp h
  obtain ⟨written4, h4, h⟩ := bind_eq_ok.mp h
  have hlen1 := (writeUInt_length h1 (by omega)).2
  have hlen2 := (writeUInt_length h2 (by omega)).2
  have hlen3 := (writeUInt_length h3 (by omega)).2
  have hcopied := @bufferCopy_length written3 (bufferFromHex sha) (13 + 4 + 4 + 8) (by omega)
  obtain ⟨hfits, hlen4⟩ := writeUInt_length h4 (by omega)
  have hlen : written4.length = 65 + nonces.length := by omega
  refine ⟨by omega, written4.take 65, by rw [List.length_take]; omega, ?_⟩
  rw [← Except.ok.inj h, bufferCopy, List.take_of_length_le (by omega), writeAt,
    List.drop_of_length_le (by omega), List.append_nil]

theorem writeUInt_ok {width value offset : Nat} {buffer : Bytes} (hvalue : value < 256 ^ width) :
    ∃ written, writeUInt width buffer value offset = .ok written := by
  rw [writeUInt, rejectIf_neg (by omega)]
  exact ⟨_, rfl⟩

theorem createEncryptionHeader_ok (hcount : Format.count n < 2 ^ 32) :
    ∃ header, createEncryptionHeader n sha nonce = .ok header := by
  have hsize := Format.size_lt hcount
  unfold createEncryptionHeader
  rw [chunkCountFor_eq hcount, ok_bind]
  dsimp only
  obtain ⟨written1, h1⟩ := @writeUInt_ok 4 formatVersion _ _ (by decide)
  rw [writeUInt32BE, h1, ok_bind]
  obtain ⟨written2, h2⟩ := @writeUInt_ok 4 fileChunkSize _ written1 (by decide)
  rw [writeUInt32BE, h2, ok_bind]
  obtain ⟨written3, h3⟩ := @writeUInt_ok 8 n _ written2 (by omega)
  rw [writeBigUInt64BE, h3, ok_bind]
  obtain ⟨written4, h4⟩ := @writeUInt_ok 4 (Format.count n) _ _ (by omega)
  rw [writeUInt32BE, h4, ok_bind]
  exact ⟨_, rfl⟩

/-- What `pull` cuts out of the header is the nonce. -/
theorem nonce_of_header (h : createEncryptionHeader n sha nonce = .ok header) {i : Nat}
    (hi : i < Format.count n) :
    subarray header (header.length - Format.count n * 12 + i * 12)
      (header.length - Format.count n * 12 + (i + 1) * 12) = (nonce i).val := by
  obtain ⟨_, fixed, hfixed, rfl⟩ := createEncryptionHeader_shape h
  have hfront := @Format.flatMap_nonce_length nonce i
  have hall := @Format.flatMap_nonce_length nonce (Format.count n)
  have hone := (nonce i).property
  rw [List.length_append, hall, Nat.add_sub_cancel, Format.flatMap_range_split _ hi,
    ← List.append_assoc, ← List.append_assoc]
  refine subarray_mid ?_ ?_
  · rw [List.length_append, hfront]
  · rw [List.length_append, hfront, hone, Nat.succ_mul]
    omega

theorem encryptBodyChunk_eq {P : Prims} {key : Key} {fileObjectId : Int} (hid : 1 ≤ fileObjectId)
    (hmax : fileObjectId ≤ 2 ^ 53 - 1) {i : Nat} (hi : i < 2 ^ 32) {plaintext : Bytes} :
    encryptBodyChunk P key fileObjectId i (nonce i).val (chunk fileChunkSize plaintext i) =
      .ok (Format.sealed P key fileObjectId nonce plaintext i) := by
  unfold encryptBodyChunk
  rw [asNonce_val, okOr_some, ok_bind, chunkAad_eq hid hmax hi, ok_bind]
  rfl

end Header

/-! ## Reading -/

section Reading

variable {handle : Handle}

/-- A read inside the file goes on where it stands. -/
theorem read_piece (hsplits : handle.Splits) {k asked position : Nat} (hasked : 0 < asked)
    (hfit : position + asked ≤ handle.file.length) :
    ∃ b piece, handle.read k asked position = some (b :: piece) ∧
      (b :: piece).length ≤ asked ∧
      handle.file.take (position + (b :: piece).length) =
        handle.file.take position ++ b :: piece := by
  obtain ⟨bytesRead, hanswer, hone, hmany⟩ := hsplits k asked hasked
  have hread : handle.read k asked position =
      some ((handle.file.drop position).take bytesRead) := by
    rw [Handle.read, hanswer, Option.map_some, Nat.min_eq_left hmany]
  obtain ⟨piece, hpiece⟩ : ∃ piece, (handle.file.drop position).take bytesRead = piece := ⟨_, rfl⟩
  have hlen : piece.length = bytesRead := by
    rw [← hpiece, List.length_take, List.length_drop]
    omega
  rw [hpiece] at hread
  cases piece with
  | nil =>
    rw [List.length_nil] at hlen
    omega
  | cons b piece =>
    exact ⟨b, piece, hread, by omega, by rw [hlen, List.take_add, hpiece]⟩

/-- Of what was read, the first `done` bytes have gone out and `pending` waits. -/
structure Filled (file : Bytes) (done : Nat) (s : UploadStream) : Prop where
  inside : s.sourceOffset ≤ file.length
  split : file.take s.sourceOffset = file.take done ++ s.pending
  hashed : s.plaintextHashed = file.take s.sourceOffset

/-- What a read leaves alone. -/
structure SameOutput (s t : UploadStream) : Prop where
  offset : t.offset = s.offset
  hashed : t.hashed = s.hashed
  chunkIndex : t.chunkIndex = s.chunkIndex
  headerSent : t.headerSent = s.headerSent
  enqueued : t.enqueued = s.enqueued
  phase : t.phase = s.phase

theorem filled_take {done : Nat} {s : UploadStream} {piece : Bytes}
    (h : Filled handle.file done s) (hfit : s.sourceOffset + piece.length ≤ handle.file.length)
    (hnext : handle.file.take (s.sourceOffset + piece.length) =
      handle.file.take s.sourceOffset ++ piece) : Filled handle.file done (s.take piece) where
  inside := hfit
  split := by
    change handle.file.take (s.sourceOffset + piece.length) = _ ++ (s.pending ++ piece)
    rw [hnext, h.split, List.append_assoc]
  hashed := by
    change s.plaintextHashed ++ piece = handle.file.take (s.sourceOffset + piece.length)
    rw [hnext, h.hashed]

/-- The inner loop reads a whole chunk, or to the end of the file. -/
theorem fill_filled (hsplits : handle.Splits) {chunkSize done : Nat} {s : UploadStream}
    (h : Filled handle.file done s) :
    ∃ t, fill handle chunkSize handle.file.length s = (t, true) ∧ Filled handle.file done t ∧
      SameOutput s t ∧ (chunkSize ≤ t.pending.length ∨ t.sourceOffset = handle.file.length) := by
  induction hn : handle.file.length - s.sourceOffset using Nat.strong_induction_on
    generalizing s with
  | _ n ih =>
    have hinside := h.inside
    rw [fill]
    split
    · rename_i hgo
      have hsize : 0 < readSize := by decide
      obtain ⟨b, piece, hread, hfit, hnext⟩ := @read_piece _ hsplits s.reads
        (min readSize (handle.file.length - s.sourceOffset)) s.sourceOffset (by omega) (by omega)
      rw [hread]
      have hpos : 0 < (b :: piece).length := Nat.succ_pos _
      have hoffset : (s.take (b :: piece)).sourceOffset =
          s.sourceOffset + (b :: piece).length := rfl
      obtain ⟨t, ht, hfilled, hsame, hdone⟩ := ih _ (by omega)
        (filled_take h (by omega) hnext) rfl
      exact ⟨t, ht, hfilled, ⟨hsame.offset, hsame.hashed, hsame.chunkIndex, hsame.headerSent,
        hsame.enqueued, hsame.phase⟩, hdone⟩
    · rename_i hstop
      refine ⟨s, rfl, h, ⟨rfl, rfl, rfl, rfl, rfl, rfl⟩, ?_⟩
      omega

end Reading

/-! ## The stream -/

section Drain

variable {P : Prims} {src : UploadSource} {s : UploadStream}

theorem drain_of_ended (h : s.phase ≠ .readable) (n : Nat) : drain P src n s = s := by
  cases n with
  | zero => rfl
  | succ n => exact if_neg h

theorem drain_of_readable (h : s.phase = .readable) (n : Nat) :
    drain P src (n + 1) s = drain P src n (pull P src false s) :=
  if_pos h

theorem drain_last {n : Nat} (h : (drain P src n s).phase = .readable) :
    drain P src (n + 1) s = pull P src false (drain P src n s) := by
  induction n generalizing s with
  | zero => exact drain_of_readable h 0
  | succ n ih =>
    by_cases hreadable : s.phase = .readable
    · rw [drain_of_readable hreadable] at h
      rw [drain_of_readable hreadable, drain_of_readable hreadable, ih h]
    · rw [drain_of_ended hreadable] at h
      exact absurd h hreadable

/-- From a state that ends after `n` calls on, nothing happens any more. -/
theorem drain_ended {n m : Nat} (h : (drain P src n s).phase ≠ .readable) (hm : n ≤ m) :
    drain P src m s = drain P src n s := by
  induction n generalizing s m with
  | zero => exact drain_of_ended h m
  | succ n ih =>
    obtain ⟨m, rfl⟩ : ∃ k, m = k + 1 := ⟨m - 1, by omega⟩
    by_cases hreadable : s.phase = .readable
    · rw [drain_of_readable hreadable] at h ⊢
      rw [drain_of_readable hreadable]
      exact ih h (by omega)
    · rw [drain_of_ended hreadable, drain_of_ended hreadable]

end Drain

/-- The stream is closed, it has put out `body`, and the digests have taken in `body` and the
plaintext. -/
structure Complete (body plaintext : Bytes) (s : UploadStream) : Prop where
  closed : s.phase = .closed
  out : s.enqueued.flatten = body
  hashed : s.hashed = body
  plaintextHashed : s.plaintextHashed = plaintext

section Encrypted

variable {P : Prims} {handle : Handle} {e : Encryption} {header : Bytes} {nonce : Nat → Nonce}

/-- What has gone out with `i` chunks. -/
def sentBytes (P : Prims) (e : Encryption) (header : Bytes) (nonce : Nat → Nonce) (file : Bytes)
    (i : Nat) : Bytes :=
  header ++ (List.range i).flatMap (Format.sealed P e.key e.fileObjectId nonce file)

/-- The stream behind its header and `i` chunks. -/
structure Sent (P : Prims) (e : Encryption) (header : Bytes) (nonce : Nat → Nonce) (file : Bytes)
    (i : Nat) (s : UploadStream) : Prop where
  readable : s.phase = .readable
  headerSent : s.headerSent = true
  index : s.chunkIndex = i
  out : s.enqueued.flatten = sentBytes P e header nonce file i
  hashed : s.hashed = sentBytes P e header nonce file i
  offset : s.offset = (sentBytes P e header nonce file i).length
  filled : Filled file (i * fileChunkSize) s

theorem sentBytes_succ {file : Bytes} {i : Nat} : sentBytes P e header nonce file (i + 1) =
    sentBytes P e header nonce file i ++ Format.sealed P e.key e.fileObjectId nonce file i := by
  rw [sentBytes, sentBytes, List.range_succ, List.flatMap_append, List.flatMap_singleton,
    List.append_assoc]

/-- Each chunk takes up room. -/
theorem sentBytes_length_lt {file : Bytes} {i j : Nat} (h : i < j) :
    (sentBytes P e header nonce file i).length < (sentBytes P e header nonce file j).length := by
  induction j, h using Nat.le_induction with
  | base =>
    rw [sentBytes_succ, List.length_append, Format.sealed_length]
    omega
  | succ j _ ih =>
    rw [sentBytes_succ, List.length_append]
    omega

/-- The next chunk of the file is what waits, or its front part. -/
theorem Filled.chunk_eq {file : Bytes} {i : Nat} {s : UploadStream}
    (h : Filled file (i * fileChunkSize) s)
    (hdone : fileChunkSize ≤ s.pending.length ∨ s.sourceOffset = file.length)
    (hi : i * fileChunkSize < file.length) :
    s.pending.take (min fileChunkSize s.pending.length) = chunk fileChunkSize file i ∧
      0 < s.pending.length := by
  have hlen := congrArg List.length h.split
  rw [List.length_append, List.length_take, List.length_take] at hlen
  have hfile : file.drop (i * fileChunkSize) = s.pending ++ file.drop s.sourceOffset := by
    have hwhole : file =
        file.take (i * fileChunkSize) ++ (s.pending ++ file.drop s.sourceOffset) := by
      rw [← List.append_assoc, ← h.split, List.take_append_drop]
    conv_lhs => rw [hwhole]
    rw [List.drop_left' (by rw [List.length_take]; omega)]
  have hsize : 0 < fileChunkSize := by decide
  have hinside := h.inside
  constructor
  · rw [chunk, subarray, Nat.add_sub_cancel_left, hfile, ← List.take_eq_take_min]
    rcases hdone with hfull | hend
    · rw [List.take_append_of_le_length hfull]
    · rw [hend, List.drop_length, List.append_nil]
  · omega

/-- What waits behind the chunk. -/
theorem Filled.next {file : Bytes} {i : Nat} {s : UploadStream}
    (h : Filled file (i * fileChunkSize) s)
    (hdone : fileChunkSize ≤ s.pending.length ∨ s.sourceOffset = file.length)
    (hi : i * fileChunkSize < file.length) :
    file.take s.sourceOffset = file.take ((i + 1) * fileChunkSize) ++
      s.pending.drop (chunk fileChunkSize file i).length := by
  obtain ⟨hchunk, _⟩ := h.chunk_eq hdone hi
  have htake : file.take ((i + 1) * fileChunkSize) =
      file.take (i * fileChunkSize) ++ chunk fileChunkSize file i := by
    rw [Nat.succ_mul, List.take_add, chunk, subarray, Nat.add_sub_cancel_left]
  have hlen : (chunk fileChunkSize file i).length = min fileChunkSize s.pending.length := by
    rw [← hchunk, List.length_take]
    omega
  rw [h.split, htake, List.append_assoc, hlen, ← hchunk, List.take_append_drop]

theorem sent_start {file : Bytes} : Sent P e header nonce file 0
    ({ UploadStream.start with headerSent := true }.enqueue header) where
  readable := rfl
  headerSent := rfl
  index := rfl
  out := by simp [UploadStream.enqueue, UploadStream.start, sentBytes]
  hashed := by simp [UploadStream.enqueue, UploadStream.start, sentBytes]
  offset := by simp [UploadStream.enqueue, UploadStream.start, sentBytes]
  filled := ⟨Nat.zero_le _, by simp [UploadStream.enqueue, UploadStream.start], rfl⟩

/-- Behind the last chunk the stream closes. -/
theorem pull_complete {expectedBytes : Nat} {s : UploadStream}
    (hexpected : expectedBytes =
      (sentBytes P e header nonce handle.file (Format.count handle.file.length)).length)
    (h : Sent P e header nonce handle.file (Format.count handle.file.length) s) :
    Complete (sentBytes P e header nonce handle.file (Format.count handle.file.length)) handle.file
      (pull P ⟨handle, expectedBytes, some (e, header)⟩ false s) := by
  have hpull : pull P ⟨handle, expectedBytes, some (e, header)⟩ false s = s.close := by
    unfold pull
    simp only [Bool.false_eq_true, if_false]
    unfold pullEncrypted
    rw [if_neg (by rw [h.headerSent]; decide), if_pos (h.offset.trans hexpected.symm)]
  have hall : handle.file.length ≤ Format.count handle.file.length * fileChunkSize :=
    le_ceilDiv_mul (by decide)
  have hsplit := h.filled.split
  rw [List.take_of_length_le hall] at hsplit
  have hread : handle.file.length ≤ s.sourceOffset := by
    have hlen := congrArg List.length hsplit
    rw [List.length_append, List.length_take] at hlen
    omega
  rw [hpull]
  refine ⟨rfl, h.out, h.hashed, ?_⟩
  change s.plaintextHashed = handle.file
  rw [h.filled.hashed, List.take_of_length_le hread]

section Steps

variable {expectedBytes : Nat} (hsplits : handle.Splits)
  (hsize : e.plaintextByteSize = handle.file.length)
  (hheader : createEncryptionHeader e.plaintextByteSize e.plaintextSha256 nonce = .ok header)
  (hexpected : expectedBytes =
    (sentBytes P e header nonce handle.file (Format.count handle.file.length)).length)
include hsize

theorem chunkCount_eq :
    ceilDiv e.plaintextByteSize fileChunkSize = Format.count handle.file.length := by
  rw [hsize]
  rfl

/-- The first call sends the header. -/
theorem pull_start : pull P ⟨handle, expectedBytes, some (e, header)⟩ false .start =
    if Format.count handle.file.length = 0 then
      { UploadStream.start with headerSent := true }.enqueue header |>.close
    else { UploadStream.start with headerSent := true }.enqueue header := by
  unfold pull
  simp only [Bool.false_eq_true, if_false]
  unfold pullEncrypted
  rw [if_pos (by rfl)]
  simp only [e.chunkSize_eq, chunkCount_eq hsize]

include hheader

/-- The chunk that is complete goes out. -/
theorem sendChunk_sent {i : Nat} {s : UploadStream}
    (h : Sent P e header nonce handle.file i s) (hi : i < Format.count handle.file.length)
    (hdone : fileChunkSize ≤ s.pending.length ∨ s.sourceOffset = handle.file.length) :
    Sent P e header nonce handle.file (i + 1)
      (sendChunk P ⟨handle, expectedBytes, some (e, header)⟩ e header s) := by
  obtain ⟨hcount, _⟩ := createEncryptionHeader_shape hheader
  rw [hsize] at hcount
  have hlt : i * fileChunkSize < handle.file.length := mul_lt_of_lt_ceilDiv hi
  obtain ⟨hchunk, hpos⟩ := h.filled.chunk_eq hdone hlt
  have hnext := h.filled.next hdone hlt
  have hready : s.pending.length ≥ e.chunkSize ∨
      s.sourceOffset ≥ e.plaintextByteSize ∧ s.pending.length > 0 := by
    rw [e.chunkSize_eq, hsize]
    omega
  have hnonce : subarray header (header.length - Format.count handle.file.length * 12 + i * 12)
      (header.length - Format.count handle.file.length * 12 + (i + 1) * 12) = (nonce i).val := by
    rw [← hsize]
    exact nonce_of_header hheader (by rw [hsize]; exact hi)
  have hsafe : e.fileObjectId ≤ 2 ^ 53 - 1 := by
    have := e.safe_id.2
    simpa [maxSafeInteger] using this
  have hsealed := @encryptBodyChunk_eq nonce P e.key e.fileObjectId e.one_le_id hsafe i (by omega)
    handle.file
  have hstep : sendChunk P ⟨handle, expectedBytes, some (e, header)⟩ e header s =
      { s with
        pending := s.pending.drop (chunk fileChunkSize handle.file i).length
        chunkIndex := s.chunkIndex + 1 }.enqueue
          (Format.sealed P e.key e.fileObjectId nonce handle.file i) := by
    rw [sendChunk, if_pos hready]
    simp only [e.chunkSize_eq, chunkCount_eq hsize, hchunk, h.index, hnonce, hsealed]
  rw [hstep]
  exact
    { readable := h.readable
      headerSent := h.headerSent
      index := congrArg (· + 1) h.index
      out := by
        change (s.enqueued ++ [_]).flatten = _
        rw [List.flatten_append, h.out, sentBytes_succ, List.flatten_singleton]
      hashed := by
        change s.hashed ++ _ = _
        rw [h.hashed, sentBytes_succ]
      offset := by
        change s.offset + _ = _
        rw [h.offset, sentBytes_succ, List.length_append]
      filled := ⟨h.filled.inside, hnext, h.filled.hashed⟩ }

include hsplits hexpected

/-- One more chunk. -/
theorem sent_next {i : Nat} {s : UploadStream} (h : Sent P e header nonce handle.file i s)
    (hi : i < Format.count handle.file.length) : Sent P e header nonce handle.file (i + 1)
      (pull P ⟨handle, expectedBytes, some (e, header)⟩ false s) := by
  have hoffset : s.offset ≠ expectedBytes := by
    have := @sentBytes_length_lt P e header nonce handle.file _ _ hi
    rw [h.offset, hexpected]
    omega
  obtain ⟨t, ht, hfilled, hsame, hdone⟩ := @fill_filled _ hsplits fileChunkSize _ _ h.filled
  have hsent : Sent P e header nonce handle.file i t :=
    { readable := hsame.phase.trans h.readable
      headerSent := hsame.headerSent.trans h.headerSent
      index := hsame.chunkIndex.trans h.index
      out := (congrArg List.flatten hsame.enqueued).trans h.out
      hashed := hsame.hashed.trans h.hashed
      offset := hsame.offset.trans h.offset
      filled := hfilled }
  have hpull : pull P ⟨handle, expectedBytes, some (e, header)⟩ false s =
      sendChunk P ⟨handle, expectedBytes, some (e, header)⟩ e header t := by
    unfold pull
    simp only [Bool.false_eq_true, if_false]
    unfold pullEncrypted
    rw [if_neg (by rw [h.headerSent]; decide), if_neg hoffset]
    simp only [e.chunkSize_eq, hsize, ht]
  rw [hpull]
  exact sendChunk_sent hsize hheader hsent hi hdone

/-- `i + 1` calls send the header and `i` chunks. -/
theorem sent_run (hsome : Format.count handle.file.length ≠ 0) {i : Nat}
    (hi : i ≤ Format.count handle.file.length) : Sent P e header nonce handle.file i
      (drain P ⟨handle, expectedBytes, some (e, header)⟩ (i + 1) .start) := by
  induction i with
  | zero =>
    rw [drain_of_readable rfl, pull_start hsize, if_neg hsome]
    exact sent_start
  | succ i ih =>
    have hsent := ih (by omega)
    rw [drain_last hsent.readable]
    exact sent_next hsplits hsize hheader hexpected hsent (by omega)

theorem encrypted_complete : ∃ n, ∀ m, n ≤ m →
    Complete (sentBytes P e header nonce handle.file (Format.count handle.file.length)) handle.file
      (drain P ⟨handle, expectedBytes, some (e, header)⟩ m .start) := by
  obtain ⟨n, hn⟩ : ∃ n, Complete (sentBytes P e header nonce handle.file
      (Format.count handle.file.length)) handle.file
      (drain P ⟨handle, expectedBytes, some (e, header)⟩ n .start) := by
    by_cases hsome : Format.count handle.file.length = 0
    · have hempty : handle.file = [] := by
        have hall : handle.file.length ≤ Format.count handle.file.length * fileChunkSize :=
          le_ceilDiv_mul (by decide)
        rw [hsome, Nat.zero_mul] at hall
        exact List.eq_nil_of_length_eq_zero (by omega)
      have hsent := @sent_start P e header nonce []
      refine ⟨1, ?_⟩
      rw [drain_of_readable rfl, pull_start hsize, if_pos hsome, hsome,
        hempty]
      exact ⟨rfl, hsent.out, hsent.hashed, rfl⟩
    · have hsent := sent_run hsplits hsize hheader hexpected hsome (Nat.le_refl _)
      refine ⟨Format.count handle.file.length + 2, ?_⟩
      rw [drain_last hsent.readable]
      exact pull_complete hexpected hsent
  refine ⟨n, fun m hm => ?_⟩
  rw [drain_ended (by rw [hn.closed]; decide) hm]
  exact hn

end Steps

end Encrypted

section Plain

variable {P : Prims} {handle : Handle}

/-- The stream without encryption behind the first bytes of the file. -/
structure Copied (file : Bytes) (s : UploadStream) : Prop where
  readable : s.phase = .readable
  inside : s.sourceOffset ≤ file.length
  out : s.enqueued.flatten = file.take s.sourceOffset
  hashed : s.hashed = file.take s.sourceOffset
  offset : s.offset = s.sourceOffset

theorem copied_start {file : Bytes} : Copied file .start :=
  ⟨rfl, Nat.zero_le _, rfl, rfl, rfl⟩

theorem copied_next (hsplits : handle.Splits) {s : UploadStream} (h : Copied handle.file s)
    (hmore : s.sourceOffset < handle.file.length) :
    Copied handle.file (pull P ⟨handle, handle.file.length, none⟩ false s) ∧
      s.sourceOffset < (pull P ⟨handle, handle.file.length, none⟩ false s).sourceOffset := by
  have hsize : 0 < readSize := by decide
  obtain ⟨b, piece, hread, hfit, hnext⟩ := @read_piece _ hsplits s.reads
    (min readSize (handle.file.length - s.sourceOffset)) s.sourceOffset (by omega) (by omega)
  have hpos : 0 < (b :: piece).length := Nat.succ_pos _
  have hpull : pull P ⟨handle, handle.file.length, none⟩ false s =
      { s.missRead with
        sourceOffset := s.sourceOffset + (b :: piece).length }.enqueue (b :: piece) := by
    have hopen : s.offset ≠ handle.file.length := by
      rw [h.offset]
      omega
    unfold pull
    simp only [Bool.false_eq_true, if_false]
    unfold pullPlain
    rw [if_neg hopen]
    simp only [hread]
  rw [hpull]
  refine ⟨⟨h.readable, ?_, ?_, ?_, ?_⟩, ?_⟩
  · change s.sourceOffset + (b :: piece).length ≤ _
    omega
  · change (s.enqueued ++ [b :: piece]).flatten =
      handle.file.take (s.sourceOffset + (b :: piece).length)
    rw [List.flatten_append, List.flatten_singleton, h.out, hnext]
  · change s.hashed ++ b :: piece = handle.file.take (s.sourceOffset + (b :: piece).length)
    rw [h.hashed, hnext]
  · change s.offset + (b :: piece).length = s.sourceOffset + (b :: piece).length
    rw [h.offset]
  · change s.sourceOffset < s.sourceOffset + (b :: piece).length
    omega

/-- Each read goes on, so the end of the file comes. -/
theorem copied_run (hsplits : handle.Splits) {s : UploadStream} (h : Copied handle.file s) :
    ∃ n, (drain P ⟨handle, handle.file.length, none⟩ n s).phase = .closed ∧
      (drain P ⟨handle, handle.file.length, none⟩ n s).enqueued.flatten = handle.file ∧
      (drain P ⟨handle, handle.file.length, none⟩ n s).hashed = handle.file := by
  induction hn : handle.file.length - s.sourceOffset using Nat.strong_induction_on
    generalizing s with
  | _ n ih =>
    have hinside := h.inside
    by_cases hmore : s.sourceOffset < handle.file.length
    · obtain ⟨hcopied, hless⟩ := @copied_next P _ hsplits _ h hmore
      have hcopiedInside := hcopied.inside
      obtain ⟨calls, hcalls⟩ := ih _ (by omega) hcopied rfl
      refine ⟨calls + 1, ?_⟩
      rw [drain_of_readable h.readable]
      exact hcalls
    · have hend : s.sourceOffset = handle.file.length := by omega
      have hout := h.out
      have hhashed := h.hashed
      rw [hend, List.take_length] at hout hhashed
      refine ⟨1, ?_⟩
      rw [drain_of_readable h.readable]
      have hpull : pull P ⟨handle, handle.file.length, none⟩ false s = s.close := by
        unfold pull
        simp only [Bool.false_eq_true, if_false]
        exact if_pos (h.offset.trans hend)
      rw [hpull]
      exact ⟨rfl, hout, hhashed⟩

end Plain

/-! ## What comes out -/

/-- With encryption, the stream that `streamHandle` makes puts out the header and the sealed chunks
of the file, as many bytes as announced, and closes, whatever its reads return; without encryption,
it puts out the file. -/
theorem stream_independent_of_reads (P : Prims) (handle : Handle) (hsplits : handle.Splits)
    (nonce : Nat → Nonce) :
    (∀ (e : Encryption) (expectedBytes : Nat) (src : UploadSource),
      e.plaintextByteSize = handle.file.length →
      encryptedTotalSize e.plaintextByteSize = .ok expectedBytes →
      streamHandle handle expectedBytes (some e) nonce = .ok src →
      ∃ header sealedChunk,
        createEncryptionHeader e.plaintextByteSize e.plaintextSha256 nonce = .ok header ∧
        (∀ i < ceilDiv handle.file.length fileChunkSize,
          encryptBodyChunk P e.key e.fileObjectId i (nonce i).val
            (chunk fileChunkSize handle.file i) = .ok (sealedChunk i)) ∧
        (header ++ (List.range (ceilDiv handle.file.length fileChunkSize)).flatMap
          sealedChunk).length = expectedBytes ∧
        ∃ n, ∀ m, n ≤ m → Complete
          (header ++ (List.range (ceilDiv handle.file.length fileChunkSize)).flatMap sealedChunk)
          handle.file (drain P src m .start)) ∧
    (∀ (e : Encryption) (expectedBytes : Nat), ceilDiv e.plaintextByteSize fileChunkSize < 2 ^ 32 →
      ∃ src, streamHandle handle expectedBytes (some e) nonce = .ok src) ∧
    (∀ src, streamHandle handle handle.file.length none nonce = .ok src →
      ∃ n, ∀ m, n ≤ m → (drain P src m .start).phase = .closed ∧
        (drain P src m .start).enqueued.flatten = handle.file ∧
        (drain P src m .start).hashed = handle.file) := by
  refine ⟨?_, ?_, ?_⟩
  · intro e expectedBytes src hsize htotal hsrc
    obtain ⟨header, hheader, hsrc⟩ := bind_eq_ok.mp hsrc
    obtain rfl : src = ⟨handle, expectedBytes, some (e, header)⟩ := (Except.ok.inj hsrc).symm
    obtain ⟨hcount, fixed, hfixed, hshape⟩ := createEncryptionHeader_shape hheader
    rw [hsize] at hcount
    have hsafe : e.fileObjectId ≤ 2 ^ 53 - 1 := by
      have := e.safe_id.2
      simpa [maxSafeInteger] using this
    have hexpected : expectedBytes = (sentBytes P e header nonce handle.file
        (Format.count handle.file.length)).length := by
      have hbody := @Format.body_length P e.key e.fileObjectId nonce handle.file
      have htable := @Format.flatMap_nonce_length nonce (Format.count e.plaintextByteSize)
      have hlength : header.length = 65 + Format.count handle.file.length * 12 := by
        rw [hshape, List.length_append, hfixed, htable, hsize]
      rw [Format.body] at hbody
      rw [hsize, encryptedTotalSize_eq hcount] at htotal
      rw [sentBytes, List.length_append, hlength, hbody]
      exact (Except.ok.inj htotal).symm
    exact ⟨header, Format.sealed P e.key e.fileObjectId nonce handle.file, hheader,
      fun i hi => encryptBodyChunk_eq e.one_le_id hsafe (by
        have : i < Format.count handle.file.length := hi
        omega), hexpected.symm,
      encrypted_complete hsplits hsize hheader hexpected⟩
  · intro e expectedBytes hcount
    obtain ⟨header, hheader⟩ := @createEncryptionHeader_ok _ e.plaintextSha256 nonce hcount
    rw [streamHandle, hheader, ok_bind]
    exact ⟨_, rfl⟩
  · intro src hsrc
    obtain rfl : src = ⟨handle, handle.file.length, none⟩ := (Except.ok.inj hsrc).symm
    obtain ⟨n, hclosed, hdone⟩ := @copied_run P _ hsplits _ copied_start
    refine ⟨n, fun m hm => ?_⟩
    rw [drain_ended (by rw [hclosed]; decide) hm]
    exact ⟨hclosed, hdone⟩

/-- Five bytes, of which each read returns one. -/
def fiveBytes : Handle := ⟨[1, 2, 3, 4, 5], fun _ _ => some 1⟩

def sealFive : Encryption where
  chunkSize := fileChunkSize
  key := .fill 32 0
  fileObjectId := 7
  plaintextByteSize := 5
  plaintextSha256 := ""
  chunkSize_eq := rfl
  one_le_id := by decide
  safe_id := by decide

theorem five_bytes_sealed : ∃ src,
    streamHandle fiveBytes 98 (some sealFive) (fun _ => .fill 12 0) = .ok src ∧
      ∃ n, ∀ m, n ≤ m → (drain ⟨.tagged, .const⟩ src m .start).phase = .closed ∧
        (drain ⟨.tagged, .const⟩ src m .start).enqueued.flatten.length = 98 := by
  have hsplits : fiveBytes.Splits := fun _ asked hasked => ⟨1, rfl, Nat.le_refl 1, hasked⟩
  obtain ⟨hsealed, hmade, _⟩ := stream_independent_of_reads ⟨.tagged, .const⟩ fiveBytes hsplits
    fun _ => .fill 12 0
  obtain ⟨src, hsrc⟩ := hmade sealFive 98 (by decide)
  obtain ⟨header, sealedChunk, _, _, hlength, n, hn⟩ :=
    hsealed sealFive 98 src rfl (by decide) hsrc
  refine ⟨src, hsrc, n, fun m hm => ⟨(hn m hm).closed, ?_⟩⟩
  rw [(hn m hm).out, hlength]

end Desktop
end FileCrypto
end Yuance
