import Yuance.FileCrypto.Decoders

/-!
# Yuance.FileCrypto.Untrusted

The decoders of `api/src/platform/file_crypto.rs` on bytes that anyone may have sent. Here the arithmetic
on `usize` is checked, and a vector is given no more than `limit` bytes at once: what asks for more
panics. A vector that has its capacity takes in what was decrypted, which is part of the bytes.

* `decryptCiphertextFullIn_eq`, `decryptPlaintextRangeIn_eq`: the decoders but for the capacities that
  the header names.
* `rangeLoop_panics`: the loop over a range panics where it comes to a chunk without a nonce.
* `decoders_panic_on_header`: the headers that make a decoder panic.
-/

namespace Yuance
namespace FileCrypto
namespace Server

open Lib

/-! ## Checked decoders -/

/-- `isize::MAX`: no vector is longer. -/
def isizeMax : Nat := 2 ^ 63 - 1

/-- A result of arithmetic on `usize`. -/
def usize (n : Nat) : Except AppError Nat := do
  rejectIf (2 ^ 64 ≤ n) .panic
  pure n

/-- A request for `n` bytes of memory. -/
def reserve (limit n : Nat) : Except AppError Unit := rejectIf (limit < n) .panic

def parseHeaderIn (limit : Nat) (ciphertext : Bytes) :
    Except AppError (FileEncryptionHeader × Bytes) := do
  rejectIf (ciphertext.length < fileHeaderFixedLen ∨ ciphertext.take fileMagic.length ≠ fileMagic)
    (.crypto "加密文件头无效")
  let cursor := fileMagic.length
  let (version, cursor) ← readU32 ciphertext cursor
  rejectIf (version ≠ fileFormatVersion) (.crypto "加密文件版本不受支持")
  let (chunkSize, cursor) ← readU32 ciphertext cursor
  rejectIf (chunkSize = 0) (.crypto "加密文件分块大小无效")
  let (plaintextByteSize, cursor) ← readU64 ciphertext cursor
  let plaintextSha256 ← okOr (slice? ciphertext cursor (cursor + 32)) (.crypto "加密文件头不完整")
  let cursor := cursor + 32
  let (chunkCount, cursor) ← readU32 ciphertext cursor
  let noncesLen ← usize (chunkCount * nonceLen)
  let headerLen ← usize (cursor + noncesLen)
  let nonceBytes ← okOr (slice? ciphertext cursor headerLen) (.crypto "加密文件 nonce 表不完整")
  reserve limit (chunkCount * nonceLen)
  let nonces := chunksExact (nonceBytes.length / nonceLen) nonceBytes
  let body ← okOr (slice? ciphertext headerLen ciphertext.length) (.crypto "加密文件体不完整")
  pure ({ chunkSize, plaintextByteSize, plaintextSha256, chunkCount, nonces }, body)

def chunkPlaintextLenIn (chunkSize plaintextByteSize chunkIndex : Nat) : Except AppError Nat := do
  let offset ← usize (chunkIndex * chunkSize)
  pure (if offset ≥ plaintextByteSize then 0 else min (plaintextByteSize - offset) chunkSize)

/-- `Vec::with_capacity(40)` of `chunk_aad_with_separator`, and the copy that the cipher decrypts. -/
def decryptAttempt (P : Prims) (limit : Nat) (dataKey : Key) (nonce : Nonce)
    (aad ciphertextWithTag : Bytes) : Except AppError (Option Bytes) := do
  reserve limit 40
  reserve limit ciphertextWithTag.length
  pure (P.aead.decrypt dataKey nonce aad ciphertextWithTag)

def decryptChunkIn (P : Prims) (limit : Nat) (dataKey : Key) (fileObjectId : Int) (chunkIndex : Nat)
    (nonce : Nonce) (ciphertextWithTag : Bytes) : Except AppError Bytes := do
  let first ← decryptAttempt P limit dataKey nonce (chunkAad fileObjectId chunkIndex)
    ciphertextWithTag
  match first with
  | some plaintext => pure plaintext
  | none => do
    let second ← decryptAttempt P limit dataKey nonce (legacyChunkAad fileObjectId chunkIndex)
      ciphertextWithTag
    okOr second (.crypto "文件分块解密失败或数据被篡改")

/-- `body.get(offset..offset + chunk_len + TAG_LEN)`. -/
def takeChunkIn (body : Bytes) (offset chunkLen : Nat) : Except AppError Bytes := do
  let stop ← usize (offset + chunkLen)
  let stop ← usize (stop + tagLen)
  okOr (slice? body offset stop) (.crypto "加密文件分块数据不完整")

/-- `offset += chunk_len + TAG_LEN`. -/
def advanceIn (offset chunkLen : Nat) : Except AppError Nat := do
  let length ← usize (chunkLen + tagLen)
  usize (offset + length)

def decryptStepIn (P : Prims) (limit : Nat) (dataKey : Key) (fileObjectId : Int)
    (header : FileEncryptionHeader) (body : Bytes) (chunkIndex offset : Nat) :
    Except AppError (Bytes × Nat) := do
  let chunkLen ← chunkPlaintextLenIn header.chunkSize header.plaintextByteSize chunkIndex
  let chunk ← takeChunkIn body offset chunkLen
  let nonce ← okOr header.nonces[chunkIndex]? .panic
  let plaintext ← decryptChunkIn P limit dataKey fileObjectId chunkIndex nonce chunk
  let next ← advanceIn offset chunkLen
  pure (plaintext, next)

def decryptCiphertextFullIn (P : Prims) (limit : Nat) (dataKey : Key) (fileObjectId : Int)
    (ciphertext : Bytes) : Except AppError Bytes := do
  let (header, body) ← parseHeaderIn limit ciphertext
  reserve limit header.plaintextByteSize
  let (plaintext, _) ← forChunks (decryptStepIn P limit dataKey fileObjectId header body)
    header.chunkCount 0
  verifyPlaintextSha256 P plaintext header.plaintextSha256
  pure plaintext

def decryptCutIn (P : Prims) (limit : Nat) (dataKey : Key) (fileObjectId : Int)
    (header : FileEncryptionHeader) (start endExclusive chunkIndex chunkLen : Nat) (chunk : Bytes) :
    Except AppError Bytes := do
  let chunkStart ← usize (chunkIndex * header.chunkSize)
  let cutStart := start - chunkStart
  let cutEnd := min (endExclusive - chunkStart) chunkLen
  if cutStart < cutEnd then do
    let nonce ← okOr header.nonces[chunkIndex]? .panic
    let plaintext ← decryptChunkIn P limit dataKey fileObjectId (asU32 chunkIndex) nonce chunk
    okOr (slice? plaintext cutStart cutEnd) .panic
  else .ok []

def rangeStepIn (P : Prims) (limit : Nat) (dataKey : Key) (fileObjectId : Int)
    (header : FileEncryptionHeader) (body : Bytes) (start endExclusive firstChunk chunkIndex
      bodyOffset : Nat) : Except AppError (Bytes × Nat) := do
  let chunkLen ←
    chunkPlaintextLenIn header.chunkSize header.plaintextByteSize (asU32 chunkIndex)
  let chunk ← takeChunkIn body bodyOffset chunkLen
  let piece ← (if firstChunk ≤ chunkIndex then
      decryptCutIn P limit dataKey fileObjectId header start endExclusive chunkIndex chunkLen chunk
    else .ok [])
  let next ← advanceIn bodyOffset chunkLen
  pure (piece, next)

def decryptPlaintextRangeIn (P : Prims) (limit : Nat) (dataKey : Key) (fileObjectId : Int)
    (ciphertext : Bytes) (start endExclusive : Nat) : Except AppError Bytes := do
  let (header, body) ← parseHeaderIn limit ciphertext
  let plaintextTotal := header.plaintextByteSize
  if start ≥ plaintextTotal ∨ endExclusive > plaintextTotal ∨ start ≥ endExclusive then pure []
  else do
    let firstChunk := start / header.chunkSize
    let lastChunk := (endExclusive - 1) / header.chunkSize
    reserve limit (endExclusive - start)
    let (output, _) ← forChunks
      (rangeStepIn P limit dataKey fileObjectId header body start endExclusive firstChunk)
      (lastChunk + 1) 0
    pure output

def parseEncryptionHeaderIn (limit : Nat) (bytes : Bytes) : Except AppError FileEncryptionHeader := do
  let (header, _) ← parseHeaderIn limit bytes
  pure header

/-! ## Against the decoders -/

section Within

variable {P : Prims} {limit : Nat} {key : Key} {fileObjectId : Int} {c body : Bytes}
  {header : FileEncryptionHeader} {start stop : Nat}

theorem usize_eq {n : Nat} (h : n < 2 ^ 64) : usize n = .ok n := by
  unfold usize
  rw [rejectIf_neg (by omega), ok_bind, pure_ok]

theorem reserve_eq {n : Nat} (h : n ≤ limit) : reserve limit n = .ok () := rejectIf_neg (by omega)

theorem readU32_lt {cursor : Nat} {read : Nat × Nat} (h : readU32 c cursor = .ok read) :
    read.1 < 2 ^ 32 ∧ read.2 = cursor + 4 := by
  obtain ⟨hread, hnext⟩ := readUInt_eq_ok.mp h
  have hlt := Format.read_lt hread
  rw [Nat.add_sub_cancel_left] at hlt
  exact ⟨hlt, hnext⟩

/-- The table of nonces is part of the bytes. -/
theorem parseHeaderIn_eq (hlimit : c.length ≤ limit) : parseHeaderIn limit c = parseHeader c := by
  have hm : fileMagic.length = 13 := by decide
  unfold parseHeaderIn parseHeader
  refine bind_congr fun _ => ?_
  refine bind_congr_ok fun ⟨version, cursor₁⟩ hversion => ?_
  refine bind_congr fun _ => ?_
  refine bind_congr_ok fun ⟨chunkSize, cursor₂⟩ hchunks => ?_
  refine bind_congr fun _ => ?_
  refine bind_congr_ok fun ⟨size, cursor₃⟩ htotal => ?_
  refine bind_congr fun sha => ?_
  refine bind_congr_ok fun ⟨count, cursor₄⟩ hcounted => ?_
  obtain ⟨_, hcursor₁⟩ := readU32_lt hversion
  obtain ⟨_, hcursor₂⟩ := readU32_lt hchunks
  obtain ⟨_, hcursor₃⟩ := readUInt_eq_ok.mp htotal
  obtain ⟨hcount, hcursor₄⟩ := readU32_lt hcounted
  dsimp only at hcount hcursor₁ hcursor₂ hcursor₃ hcursor₄ ⊢
  have hnonces : count * nonceLen < 2 ^ 36 := by
    rw [nonceLen]
    omega
  rw [usize_eq (by omega), ok_bind, usize_eq (by omega), ok_bind]
  refine bind_congr_ok fun nonceBytes htable => ?_
  obtain ⟨_, hend, _⟩ := slice?_eq_some.mp (okOr_eq_ok.mp htable)
  rw [reserve_eq (by omega), ok_bind]

theorem parseHeader_sizes (h : parseHeader c = .ok (header, body)) :
    65 ≤ c.length ∧ body.length ≤ c.length ∧ header.chunkSize < 2 ^ 32
      ∧ header.plaintextByteSize < 2 ^ 64 ∧ header.chunkCount < 2 ^ 32
      ∧ header.nonces.length = header.chunkCount ∧ header.chunkSize ≠ 0 := by
  obtain ⟨raw, rfl, hnonces, hle⟩ := parseHeader_raw h
  have htable := raw.table
  have hfixed : Format.fixedLen = 65 := rfl
  refine ⟨by omega, by rw [List.length_drop]; omega, Format.read_lt raw.chunks,
    Format.read_lt raw.total, raw.count_lt, ?_, raw.positive⟩
  rcases Nat.eq_zero_or_pos header.chunkCount with hzero | hpos
  · omega
  · obtain ⟨nonce, hget, _⟩ := hnonces (header.chunkCount - 1) (by omega)
    obtain ⟨hlt, _⟩ := List.getElem?_eq_some_iff.mp hget
    omega

theorem chunkPlaintextLenIn_eq {chunkSize size i : Nat} (h : i * chunkSize < 2 ^ 64) :
    chunkPlaintextLenIn chunkSize size i = .ok (chunkPlaintextLen chunkSize size i) := by
  unfold chunkPlaintextLenIn
  rw [usize_eq h, ok_bind, pure_ok]
  rfl

theorem chunkPlaintextLen_le (chunkSize size i : Nat) :
    chunkPlaintextLen chunkSize size i ≤ chunkSize := by
  rw [chunkPlaintextLen_eq, Format.chunkLen]
  omega

theorem takeChunkIn_eq {offset chunkLen : Nat} (h : offset + chunkLen + 16 < 2 ^ 64) :
    takeChunkIn body offset chunkLen
      = okOr (slice? body offset (offset + chunkLen + tagLen)) (.crypto "加密文件分块数据不完整") := by
  unfold takeChunkIn
  rw [usize_eq (by omega), ok_bind, usize_eq (by rw [tagLen]; omega), ok_bind]

theorem advanceIn_eq {offset chunkLen : Nat} (h : offset + chunkLen + 16 < 2 ^ 64) :
    advanceIn offset chunkLen = .ok (offset + (chunkLen + tagLen)) := by
  unfold advanceIn
  rw [usize_eq (by rw [tagLen]; omega), ok_bind, usize_eq (by rw [tagLen]; omega)]

theorem decryptChunkIn_eq {i : Nat} {nonce : Nonce} {sealedChunk : Bytes} (hlimit : 40 ≤ limit)
    (hlen : sealedChunk.length ≤ limit) :
    decryptChunkIn P limit key fileObjectId i nonce sealedChunk
      = decryptChunk P key fileObjectId i nonce sealedChunk := by
  unfold decryptChunkIn decryptChunk decryptAttempt
  simp only [reserve_eq hlimit, reserve_eq hlen, ok_bind, pure_ok]
  cases P.aead.decrypt key nonce (chunkAad fileObjectId i) sealedChunk with
  | some plaintext => rfl
  | none =>
    cases P.aead.decrypt key nonce (legacyChunkAad fileObjectId i) sealedChunk with
    | some plaintext => rfl
    | none => rfl

/-- A chunk that is there ends in the body. -/
theorem takeChunk_length {offset chunkLen : Nat} {chunk : Bytes}
    (h : okOr (slice? body offset (offset + chunkLen + tagLen))
      (AppError.crypto "加密文件分块数据不完整") = .ok chunk) :
    offset + (chunkLen + tagLen) ≤ body.length ∧ chunk.length ≤ body.length := by
  obtain ⟨_, hend, hchunk⟩ := slice?_eq_some.mp (okOr_eq_ok.mp h)
  have hlen := slice?_length (okOr_eq_ok.mp h)
  omega

theorem decryptStepIn_eq (hlimit : 40 ≤ limit) (hbody : body.length ≤ limit)
    (hslice : body.length < 2 ^ 63) (hsize : header.chunkSize < 2 ^ 32) {i offset : Nat}
    (hi : i < 2 ^ 32) (hoffset : offset ≤ body.length) :
    decryptStepIn P limit key fileObjectId header body i offset
      = decryptStep P key fileObjectId header body i offset := by
  have hindex : i * header.chunkSize < 2 ^ 64 := by
    calc i * header.chunkSize < 2 ^ 32 * 2 ^ 32 := Nat.mul_lt_mul'' hi hsize
      _ = 2 ^ 64 := by decide
  have hlen := chunkPlaintextLen_le header.chunkSize header.plaintextByteSize i
  unfold decryptStepIn decryptStep
  rw [chunkPlaintextLenIn_eq hindex, ok_bind, takeChunkIn_eq (by omega)]
  refine bind_congr_ok fun chunk hchunk => bind_congr fun nonce => ?_
  obtain ⟨_, hchunkLen⟩ := takeChunk_length hchunk
  rw [decryptChunkIn_eq hlimit (by omega)]
  refine bind_congr fun plaintext => ?_
  rw [advanceIn_eq (by omega), ok_bind]

theorem decryptStep_offset {i offset : Nat} {next : Bytes × Nat}
    (h : decryptStep P key fileObjectId header body i offset = .ok next) :
    next.2 ≤ body.length := by
  unfold decryptStep at h
  obtain ⟨chunk, hchunk, h⟩ := bind_eq_ok.mp h
  obtain ⟨nonce, _, h⟩ := bind_eq_ok.mp h
  obtain ⟨plaintext, _, h⟩ := bind_eq_ok.mp h
  obtain rfl := Except.ok.inj h
  exact (takeChunk_length hchunk).1

/-- The decoder asks for the size that the header names, before it reads a chunk. -/
theorem decryptCiphertextFullIn_eq (hlimit : c.length ≤ limit) (hslice : c.length < 2 ^ 63) :
    decryptCiphertextFullIn P limit key fileObjectId c
      = (parseHeader c >>= fun read =>
          reserve limit read.1.plaintextByteSize >>= fun _ =>
            decryptCiphertextFull P key fileObjectId c) := by
  unfold decryptCiphertextFullIn
  rw [parseHeaderIn_eq hlimit]
  refine bind_congr_ok fun ⟨header, body⟩ hparse => bind_congr fun _ => ?_
  obtain ⟨hlong, hbody, hsize, _, hcount, _, _⟩ := parseHeader_sizes hparse
  have hloop := (@forChunks_congr _ (decryptStepIn P limit key fileObjectId header body)
    (decryptStep P key fileObjectId header body) (fun o => o ≤ body.length) header.chunkCount 0
    (Nat.zero_le _)
    (fun i offset hi hoffset => decryptStepIn_eq (by omega) (by omega) (by omega) hsize (by omega)
      hoffset)
    (fun i offset next hi hoffset hnext => by
      rw [decryptStepIn_eq (by omega) (by omega) (by omega) hsize (by omega) hoffset] at hnext
      exact decryptStep_offset hnext)).1
  dsimp only
  unfold decryptCiphertextFull
  rw [hparse, ok_bind, hloop]

theorem decryptCutIn_eq (hlimit : 40 ≤ limit) {i chunkLen : Nat} {chunk : Bytes}
    (hlen : chunk.length ≤ limit) (hindex : i * header.chunkSize < 2 ^ 64) :
    decryptCutIn P limit key fileObjectId header start stop i chunkLen chunk
      = decryptCut P key fileObjectId header start stop i chunkLen chunk := by
  unfold decryptCutIn decryptCut
  rw [usize_eq hindex, ok_bind]
  dsimp only
  split
  · refine bind_congr fun nonce => ?_
    rw [decryptChunkIn_eq hlimit hlen]
  · rfl

theorem rangeStepIn_eq (hlimit : 40 ≤ limit) (hbody : body.length ≤ limit)
    (hslice : body.length < 2 ^ 63) (hsize : header.chunkSize < 2 ^ 32) {first i offset : Nat}
    (hindex : i * header.chunkSize < 2 ^ 64) (hoffset : offset ≤ body.length) :
    rangeStepIn P limit key fileObjectId header body start stop first i offset
      = rangeStep P key fileObjectId header body start stop first i offset := by
  have hnarrow : asU32 i * header.chunkSize < 2 ^ 64 := by
    calc asU32 i * header.chunkSize < 2 ^ 32 * 2 ^ 32 :=
          Nat.mul_lt_mul'' (Nat.mod_lt _ (by decide)) hsize
      _ = 2 ^ 64 := by decide
  have hlen := chunkPlaintextLen_le header.chunkSize header.plaintextByteSize (asU32 i)
  unfold rangeStepIn rangeStep
  rw [chunkPlaintextLenIn_eq hnarrow, ok_bind, takeChunkIn_eq (by omega)]
  refine bind_congr_ok fun chunk hchunk => ?_
  obtain ⟨_, hchunkLen⟩ := takeChunk_length hchunk
  rw [decryptCutIn_eq hlimit (by omega) hindex]
  refine bind_congr fun piece => ?_
  rw [advanceIn_eq (by omega), ok_bind]

theorem rangeStep_offset {first i offset : Nat} {next : Bytes × Nat}
    (h : rangeStep P key fileObjectId header body start stop first i offset = .ok next) :
    next.2 ≤ body.length := by
  unfold rangeStep at h
  obtain ⟨chunk, hchunk, h⟩ := bind_eq_ok.mp h
  obtain ⟨piece, _, h⟩ := bind_eq_ok.mp h
  obtain rfl := Except.ok.inj h
  exact (takeChunk_length hchunk).1

/-- A range is asked for with its length, before the first chunk is read. -/
theorem decryptPlaintextRangeIn_eq (hlimit : c.length ≤ limit) (hslice : c.length < 2 ^ 63) :
    decryptPlaintextRangeIn P limit key fileObjectId c start stop
      = (parseHeader c >>= fun read =>
          if start < stop ∧ stop ≤ read.1.plaintextByteSize then
            reserve limit (stop - start) >>= fun _ =>
              decryptPlaintextRange P key fileObjectId c start stop
          else .ok []) := by
  unfold decryptPlaintextRangeIn
  rw [parseHeaderIn_eq hlimit]
  refine bind_congr_ok fun ⟨header, body⟩ hparse => ?_
  obtain ⟨hlong, hbody, hsize, htotal, hcount, _, _⟩ := parseHeader_sizes hparse
  dsimp only
  by_cases hrange : start < stop ∧ stop ≤ header.plaintextByteSize
  · rw [if_neg (by omega), if_pos hrange]
    refine bind_congr fun _ => ?_
    have hindex : ∀ i, i < (stop - 1) / header.chunkSize + 1 → i * header.chunkSize < 2 ^ 64 := by
      intro i hi
      have := Nat.mul_le_mul_right header.chunkSize (show i ≤ (stop - 1) / header.chunkSize by omega)
      have := Nat.div_mul_le_self (stop - 1) header.chunkSize
      omega
    have hloop := (@forChunks_congr _
      (rangeStepIn P limit key fileObjectId header body start stop (start / header.chunkSize))
      (rangeStep P key fileObjectId header body start stop (start / header.chunkSize))
      (fun o => o ≤ body.length) ((stop - 1) / header.chunkSize + 1) 0 (Nat.zero_le _)
      (fun i offset hi hoffset => rangeStepIn_eq (by omega) (by omega) (by omega) hsize (hindex i hi)
        hoffset)
      (fun i offset next hi hoffset hnext => by
        rw [rangeStepIn_eq (by omega) (by omega) (by omega) hsize (hindex i hi) hoffset] at hnext
        exact rangeStep_offset hnext)).1
    unfold decryptPlaintextRange
    rw [hparse, ok_bind]
    dsimp only
    rw [if_neg (by omega), hloop]
  · rw [if_pos (by omega), if_neg hrange, pure_ok]

end Within

/-! ## Panics -/

/-- Where the loop over a range comes to chunk `i`. -/
def runningOffset (header : FileEncryptionHeader) (i : Nat) : Nat :=
  ((List.range i).map fun index => chunkCiphertextLen header (asU32 index)).sum

/-- The chunk at `i` is there and opens. -/
def OpensIn (P : Prims) (key : Key) (fileObjectId : Int) (header : FileEncryptionHeader)
    (body : Bytes) (i : Nat) : Prop :=
  ∃ nonce chunk plaintext, header.nonces[i]? = some nonce ∧
    slice? body (runningOffset header i) (runningOffset header (i + 1)) = some chunk ∧
    decryptChunk P key fileObjectId (asU32 i) nonce chunk = .ok plaintext

/-- The range has a chunk without a nonce: all chunks of the range before the first of these open, and
this one is there. -/
structure Overruns (P : Prims) (key : Key) (fileObjectId : Int) (header : FileEncryptionHeader)
    (body : Bytes) (start stop : Nat) : Prop where
  beyond : max (start / header.chunkSize) header.chunkCount ≤ (stop - 1) / header.chunkSize
  opens : ∀ i, start / header.chunkSize ≤ i → i < header.chunkCount →
    OpensIn P key fileObjectId header body i
  present : runningOffset header (max (start / header.chunkSize) header.chunkCount + 1)
    ≤ body.length

section Panics

variable {P : Prims} {key : Key} {fileObjectId : Int} {c body : Bytes}
  {header : FileEncryptionHeader} {start stop i : Nat}

theorem runningOffset_succ : runningOffset header (i + 1)
    = runningOffset header i
      + (chunkPlaintextLen header.chunkSize header.plaintextByteSize (asU32 i) + tagLen) := by
  simp [runningOffset, List.range_succ, chunkCiphertextLen]

theorem decryptChunk_ne_panic {nonce : Nonce} {chunk : Bytes} :
    decryptChunk P key fileObjectId i nonce chunk ≠ .error .panic := by
  unfold decryptChunk
  split
  · exact fun h => (by cases h)
  · split
    · exact fun h => (by cases h)
    · exact fun h => (by cases h)

theorem parseHeader_ne_panic : parseHeader c ≠ .error .panic := by
  have hread : ∀ width cursor, readUInt width c cursor ≠ .error .panic := by
    intro width cursor
    exact bind_ne_error (okOr_ne_error (by simp)) fun _ _ h => (by cases h)
  unfold parseHeader
  refine bind_ne_error (rejectIf_ne_error (by simp)) fun _ _ => ?_
  refine bind_ne_error (hread _ _) fun _ _ => ?_
  refine bind_ne_error (rejectIf_ne_error (by simp)) fun _ _ => ?_
  refine bind_ne_error (hread _ _) fun _ _ => ?_
  refine bind_ne_error (rejectIf_ne_error (by simp)) fun _ _ => ?_
  refine bind_ne_error (hread _ _) fun _ _ => ?_
  refine bind_ne_error (okOr_ne_error (by simp)) fun _ _ => ?_
  refine bind_ne_error (hread _ _) fun _ _ => ?_
  refine bind_ne_error (okOr_ne_error (by simp)) fun _ _ => ?_
  refine bind_ne_error (okOr_ne_error (by simp)) fun _ _ => ?_
  exact fun h => (by cases h)

/-- The loop over the whole file has a nonce for every chunk. -/
theorem decryptCiphertextFull_ne_panic :
    decryptCiphertextFull P key fileObjectId c ≠ .error .panic := by
  unfold decryptCiphertextFull
  refine bind_ne_error parseHeader_ne_panic fun ⟨header, body⟩ hparse => ?_
  obtain ⟨_, _, _, _, _, hnonces, _⟩ := parseHeader_sizes hparse
  refine bind_ne_error ?_ fun _ _ => ?_
  · intro hpanics
    obtain ⟨m, acc, hm, _, hfails⟩ := forChunks_eq_error.mp hpanics
    revert hfails
    unfold decryptStep
    refine bind_ne_error (okOr_ne_error (by simp)) fun chunk _ => ?_
    rw [List.getElem?_eq_getElem (by omega), okOr_some, ok_bind]
    exact bind_ne_error decryptChunk_ne_panic fun _ _ h => (by cases h)
  · exact bind_ne_error (rejectIf_ne_error (by simp)) fun _ _ h => (by cases h)

/-- Every chunk of the range has a part in it. -/
theorem cut_nonempty (hstart : start < stop) (hstop : stop ≤ header.plaintextByteSize)
    (hpos : header.chunkSize ≠ 0) (hfirst : start / header.chunkSize ≤ i)
    (hlast : i ≤ (stop - 1) / header.chunkSize) :
    start - i * header.chunkSize < min (stop - i * header.chunkSize)
      (chunkPlaintextLen header.chunkSize header.plaintextByteSize (asU32 i)) := by
  have hbegin : start < i * header.chunkSize + header.chunkSize := by
    have := (Nat.div_lt_iff_lt_mul (Nat.pos_of_ne_zero hpos)).mp (Nat.lt_succ_of_le hfirst)
    rwa [Nat.succ_mul] at this
  have hend : i * header.chunkSize < stop := by
    have := Nat.mul_le_mul_right header.chunkSize hlast
    have := Nat.div_mul_le_self (stop - 1) header.chunkSize
    omega
  rw [chunkPlaintextLen_eq, Format.chunkLen]
  by_cases hnarrow : i < 2 ^ 32
  · rw [show asU32 i = i from Nat.mod_eq_of_lt hnarrow]
    omega
  · have hbelow : asU32 i * header.chunkSize + header.chunkSize ≤ i * header.chunkSize := by
      rw [← Nat.succ_mul]
      have := Nat.mod_lt i (show 0 < 2 ^ 32 by decide)
      exact Nat.mul_le_mul_right _ (by unfold asU32; omega)
    omega

theorem decryptChunk_length (hsized : P.aead.Sized) {nonce : Nonce} {chunk plaintext : Bytes}
    (h : decryptChunk P key fileObjectId i nonce chunk = .ok plaintext) :
    chunk.length = plaintext.length + 16 :=
  Format.opened_length hsized (opened_of_decryptChunk h)

/-- A step that returns moves behind its chunk, and has opened it if it lies in the range. -/
theorem rangeStep_opens {next : Bytes × Nat} (hstart : start < stop)
    (hstop : stop ≤ header.plaintextByteSize) (hpos : header.chunkSize ≠ 0)
    (hlast : i ≤ (stop - 1) / header.chunkSize)
    (h : rangeStep P key fileObjectId header body start stop (start / header.chunkSize) i
      (runningOffset header i) = .ok next) :
    (start / header.chunkSize ≤ i → OpensIn P key fileObjectId header body i)
      ∧ next.2 = runningOffset header (i + 1) := by
  unfold rangeStep at h
  obtain ⟨chunk, hchunk, h⟩ := bind_eq_ok.mp h
  obtain ⟨piece, hpiece, h⟩ := bind_eq_ok.mp h
  obtain rfl := Except.ok.inj h
  refine ⟨fun hfirst => ?_, runningOffset_succ.symm⟩
  have hcut := cut_nonempty hstart hstop hpos hfirst hlast
  rw [if_pos hfirst] at hpiece
  unfold decryptCut at hpiece
  rw [if_pos hcut] at hpiece
  obtain ⟨nonce, hnonce, hpiece⟩ := bind_eq_ok.mp hpiece
  obtain ⟨plaintext, hplain, _⟩ := bind_eq_ok.mp hpiece
  have hslice := okOr_eq_ok.mp hchunk
  rw [Nat.add_assoc, ← runningOffset_succ] at hslice
  exact ⟨nonce, chunk, plaintext, okOr_eq_ok.mp hnonce, hslice, hplain⟩

theorem chunk_of_present (hpresent : runningOffset header (i + 1) ≤ body.length) :
    ∃ chunk, slice? body (runningOffset header i) (runningOffset header (i + 1)) = some chunk ∧
      slice? body (runningOffset header i) (runningOffset header i
        + chunkPlaintextLen header.chunkSize header.plaintextByteSize (asU32 i) + tagLen)
        = some chunk := by
  rw [Nat.add_assoc, ← runningOffset_succ]
  have hchunk := slice?_eq_subarray (show runningOffset header i ≤ runningOffset header (i + 1) by
    rw [runningOffset_succ]; omega) hpresent
  exact ⟨_, hchunk, hchunk⟩

theorem rangeStep_of_opens (hsized : P.aead.Sized)
    (hpresent : runningOffset header (i + 1) ≤ body.length)
    (hopens : start / header.chunkSize ≤ i → OpensIn P key fileObjectId header body i) :
    ∃ piece, rangeStep P key fileObjectId header body start stop (start / header.chunkSize) i
      (runningOffset header i) = .ok (piece, runningOffset header (i + 1)) := by
  obtain ⟨chunk, hchunk, hslice⟩ := chunk_of_present hpresent
  unfold rangeStep
  dsimp only
  rw [hslice, okOr_some, ok_bind, ← runningOffset_succ]
  by_cases hfirst : start / header.chunkSize ≤ i
  · rw [if_pos hfirst]
    obtain ⟨nonce, chunk', plaintext, hnonce, hchunk', hplain⟩ := hopens hfirst
    obtain rfl : chunk = chunk' := Option.some.inj (hchunk.symm.trans hchunk')
    have hlength := decryptChunk_length hsized hplain
    rw [slice?_length hslice, Nat.add_assoc, Nat.add_sub_cancel_left, tagLen] at hlength
    unfold decryptCut
    dsimp only
    split
    · rename_i hcut
      have hpiece := @slice?_eq_subarray plaintext _ _ (Nat.le_of_lt hcut) (by omega)
      rw [hnonce, okOr_some, ok_bind, hplain, ok_bind, hpiece, okOr_some, ok_bind, pure_ok]
      exact ⟨_, rfl⟩
    · exact ⟨_, rfl⟩
  · rw [if_neg hfirst]
    exact ⟨_, rfl⟩

/-- A step panics where the range has a chunk that is there and has no nonce. -/
theorem rangeStep_panics_iff (hsized : P.aead.Sized) (hnonces : header.nonces.length = header.chunkCount)
    (hstart : start < stop) (hstop : stop ≤ header.plaintextByteSize) (hpos : header.chunkSize ≠ 0)
    (hlast : i ≤ (stop - 1) / header.chunkSize) :
    rangeStep P key fileObjectId header body start stop (start / header.chunkSize) i
        (runningOffset header i) = .error .panic ↔
      start / header.chunkSize ≤ i ∧ header.chunkCount ≤ i
        ∧ runningOffset header (i + 1) ≤ body.length := by
  constructor
  · intro hpanics
    have hpresent : runningOffset header (i + 1) ≤ body.length := by
      by_contra habsent
      unfold rangeStep at hpanics
      dsimp only at hpanics
      have hnone : slice? body (runningOffset header i) (runningOffset header i
          + chunkPlaintextLen header.chunkSize header.plaintextByteSize (asU32 i) + tagLen)
          = none := by
        unfold slice?
        rw [Nat.add_assoc, ← runningOffset_succ, if_neg (by omega)]
      rw [hnone, okOr_none, error_bind] at hpanics
      cases hpanics
    by_cases hopens : start / header.chunkSize ≤ i → OpensIn P key fileObjectId header body i
    · obtain ⟨piece, hok⟩ := @rangeStep_of_opens P key fileObjectId body header start stop i hsized
        hpresent hopens
      rw [hok] at hpanics
      cases hpanics
    · obtain ⟨hfirst, hclosed⟩ := Classical.not_imp.mp hopens
      refine ⟨hfirst, ?_, hpresent⟩
      by_contra hbelow
      revert hpanics
      obtain ⟨chunk, hchunk, hslice⟩ := chunk_of_present hpresent
      have hnonce : header.nonces[i]? = some _ := List.getElem?_eq_getElem (by omega)
      unfold rangeStep
      dsimp only
      rw [hslice, okOr_some, ok_bind, if_pos hfirst]
      unfold decryptCut
      dsimp only
      rw [if_pos (cut_nonempty hstart hstop hpos hfirst hlast), hnonce, okOr_some, ok_bind]
      refine bind_ne_error (bind_ne_error decryptChunk_ne_panic fun plaintext hplain => ?_)
        fun _ _ h => (by cases h)
      exact absurd ⟨_, _, plaintext, hnonce, hchunk, hplain⟩ hclosed
  · rintro ⟨hfirst, hcount, hpresent⟩
    obtain ⟨chunk, _, hslice⟩ := chunk_of_present hpresent
    unfold rangeStep
    dsimp only
    rw [hslice, okOr_some, ok_bind, if_pos hfirst]
    unfold decryptCut
    dsimp only
    rw [if_pos (cut_nonempty hstart hstop hpos hfirst hlast), List.getElem?_eq_none (by omega),
      okOr_none, error_bind, error_bind]

/-- What the loop has opened when it comes to chunk `k`. -/
theorem rangeLoop_opens {k : Nat} {out : Bytes × Nat} (hstart : start < stop)
    (hstop : stop ≤ header.plaintextByteSize) (hpos : header.chunkSize ≠ 0)
    (hk : k ≤ (stop - 1) / header.chunkSize + 1)
    (h : forChunks (rangeStep P key fileObjectId header body start stop (start / header.chunkSize)) k
      0 = .ok out) :
    (∀ i, start / header.chunkSize ≤ i → i < k → OpensIn P key fileObjectId header body i)
      ∧ out.2 = runningOffset header k := by
  obtain ⟨piece, hopens, rfl⟩ := @forChunks_pieces _ _ (runningOffset header)
    (fun i _ => start / header.chunkSize ≤ i → OpensIn P key fileObjectId header body i) k out h
    fun i next hi hnext => rangeStep_opens hstart hstop hpos (by omega) hnext
  exact ⟨fun i hfirst hi => hopens i hi hfirst, rfl⟩

theorem runningOffset_mono {j : Nat} (hij : i ≤ j) :
    runningOffset header i ≤ runningOffset header j := by
  induction hij with
  | refl => exact Nat.le_refl _
  | step _ ih =>
    rw [runningOffset_succ]
    omega

theorem rangeLoop_of_opens {k : Nat} (hsized : P.aead.Sized)
    (hpresent : runningOffset header k ≤ body.length)
    (hopens : ∀ i, start / header.chunkSize ≤ i → i < k →
      OpensIn P key fileObjectId header body i) :
    ∃ output, forChunks
      (rangeStep P key fileObjectId header body start stop (start / header.chunkSize)) k 0
        = .ok (output, runningOffset header k) := by
  induction k with
  | zero => exact ⟨[], rfl⟩
  | succ k ih =>
    have hmono := @runningOffset_mono header k (k + 1) (by omega)
    obtain ⟨output, hloop⟩ := ih (by omega) fun i hfirst hi => hopens i hfirst (by omega)
    obtain ⟨piece, hstep⟩ := @rangeStep_of_opens P key fileObjectId body header start stop k hsized
      hpresent fun hfirst => hopens k hfirst (Nat.lt_succ_self k)
    rw [forChunks_succ, hloop, ok_bind, hstep, ok_bind, pure_ok]
    exact ⟨_, rfl⟩

theorem rangeLoop_panics (hsized : P.aead.Sized) (hnonces : header.nonces.length = header.chunkCount)
    (hstart : start < stop) (hstop : stop ≤ header.plaintextByteSize) (hpos : header.chunkSize ≠ 0) :
    forChunks (rangeStep P key fileObjectId header body start stop (start / header.chunkSize))
        ((stop - 1) / header.chunkSize + 1) 0 = .error .panic ↔
      Overruns P key fileObjectId header body start stop := by
  rw [forChunks_eq_error]
  constructor
  · rintro ⟨m, acc, hm, hacc, hpanics⟩
    obtain ⟨hopens, hoffset⟩ := rangeLoop_opens hstart hstop hpos (by omega) hacc
    rw [hoffset, rangeStep_panics_iff hsized hnonces hstart hstop hpos (by omega)] at hpanics
    obtain ⟨hfirst, hcount, hpresent⟩ := hpanics
    have hsame : max (start / header.chunkSize) header.chunkCount = m := by
      by_contra hdiffer
      -- a chunk without a nonce does not open
      obtain ⟨nonce, _, _, hnonce, _⟩ :=
        hopens (max (start / header.chunkSize) header.chunkCount) (by omega) (by omega)
      obtain ⟨hlt, _⟩ := List.getElem?_eq_some_iff.mp hnonce
      omega
    refine ⟨by omega, fun i hi hbelow => hopens i hi (by omega), ?_⟩
    rw [hsame]
    exact hpresent
  · intro hover
    obtain ⟨k, hk⟩ : ∃ k, max (start / header.chunkSize) header.chunkCount = k := ⟨_, rfl⟩
    have hbeyond := hover.beyond
    have hpresent := hover.present
    rw [hk] at hbeyond hpresent
    have hmono := @runningOffset_mono header k (k + 1) (by omega)
    obtain ⟨output, hloop⟩ := @rangeLoop_of_opens P key fileObjectId body header start stop k hsized
      (by omega) fun i hfirst hi => hover.opens i hfirst (by omega)
    refine ⟨k, _, by omega, hloop, ?_⟩
    rw [rangeStep_panics_iff hsized hnonces hstart hstop hpos hbeyond]
    exact ⟨by omega, by omega, hpresent⟩

end Panics

/-- What a decoder asks for is at most `K` times what it was given, and it does not panic, exactly where
the size in the header, or the length of the range, is no more than that, and the range does not
overrun the table of nonces. -/
theorem decoders_panic_on_header (P : Prims) (hsized : P.aead.Sized) (key : Key) (fileObjectId : Int)
    (c : Bytes) (hslice : c.length < 2 ^ 63) (K : Nat) (hK : 1 ≤ K) (start stop : Nat) :
    let limit := min (K * c.length) isizeMax
    parseEncryptionHeaderIn limit c ≠ .error .panic
    ∧ (decryptCiphertextFullIn P limit key fileObjectId c ≠ .error .panic ↔
        ∀ header body, parseHeader c = .ok (header, body) → header.plaintextByteSize ≤ limit)
    ∧ (decryptPlaintextRangeIn P limit key fileObjectId c start stop ≠ .error .panic ↔
        ∀ header body, parseHeader c = .ok (header, body) →
          start < stop → stop ≤ header.plaintextByteSize →
            stop - start ≤ limit ∧ ¬ Overruns P key fileObjectId header body start stop) := by
  intro limit
  have hlimit : c.length ≤ limit := by
    have hone := Nat.mul_le_mul_right c.length hK
    have hmax : c.length ≤ isizeMax := by
      unfold isizeMax
      omega
    rw [Nat.one_mul] at hone
    exact Nat.le_min.mpr ⟨hone, hmax⟩
  refine ⟨?_, ?_, ?_⟩
  · unfold parseEncryptionHeaderIn
    rw [parseHeaderIn_eq hlimit]
    exact bind_ne_error parseHeader_ne_panic fun _ _ h => (by cases h)
  · rw [decryptCiphertextFullIn_eq hlimit hslice]
    cases hparse : parseHeader c with
    | error e =>
      refine ⟨fun _ header body h => (by cases h), fun _ => ?_⟩
      rw [error_bind]
      intro h
      rw [Except.error.inj h] at hparse
      exact parseHeader_ne_panic hparse
    | ok read =>
      rw [ok_bind]
      constructor
      · intro hreturns header body h
        obtain rfl := Except.ok.inj h
        by_contra hlarge
        exact hreturns (by rw [reserve, rejectIf_pos (Nat.lt_of_not_le hlarge), error_bind])
      · intro hsize
        rw [reserve_eq (hsize read.1 read.2 rfl), ok_bind]
        exact decryptCiphertextFull_ne_panic
  · rw [decryptPlaintextRangeIn_eq hlimit hslice]
    cases hparse : parseHeader c with
    | error e =>
      refine ⟨fun _ header body h => (by cases h), fun _ => ?_⟩
      rw [error_bind]
      intro h
      rw [Except.error.inj h] at hparse
      exact parseHeader_ne_panic hparse
    | ok read =>
      obtain ⟨header, body⟩ := read
      obtain ⟨_, _, _, _, _, hnonces, hpos⟩ := parseHeader_sizes hparse
      rw [ok_bind]
      dsimp only
      by_cases hrange : start < stop ∧ stop ≤ header.plaintextByteSize
      · obtain ⟨hstart, hstop⟩ := hrange
        rw [if_pos ⟨hstart, hstop⟩]
        have hpanics := @rangeLoop_panics P key fileObjectId body header start stop hsized hnonces
          hstart hstop hpos
        have hplain : decryptPlaintextRange P key fileObjectId c start stop = .error .panic ↔
            Overruns P key fileObjectId header body start stop := by
          rw [← hpanics]
          unfold decryptPlaintextRange
          rw [hparse, ok_bind]
          dsimp only
          rw [if_neg (by omega)]
          cases forChunks (rangeStep P key fileObjectId header body start stop
            (start / header.chunkSize)) ((stop - 1) / header.chunkSize + 1) 0 with
          | error e => rw [error_bind]; simp
          | ok out => rw [ok_bind, pure_ok]; simp
        constructor
        · intro hreturns header' body' h _ _
          obtain ⟨rfl, rfl⟩ := Prod.ext_iff.mp (Except.ok.inj h)
          have hsmall : stop - start ≤ limit := by
            by_contra hlarge
            exact hreturns (by rw [reserve, rejectIf_pos (Nat.lt_of_not_le hlarge), error_bind])
          rw [reserve_eq hsmall, ok_bind] at hreturns
          exact ⟨hsmall, fun hover => hreturns (hplain.mpr hover)⟩
        · intro hholds
          obtain ⟨hsmall, hover⟩ := hholds header body rfl hstart hstop
          rw [reserve_eq hsmall, ok_bind]
          exact fun h => hover (hplain.mp h)
      · rw [if_neg hrange]
        refine ⟨fun _ header' body' h hstart hstop => ?_, fun _ h => (by cases h)⟩
        obtain ⟨rfl, rfl⟩ := Prod.ext_iff.mp (Except.ok.inj h)
        exact absurd ⟨hstart, hstop⟩ hrange

theorem decoders_panic_on_header_two_bytes :
    decryptCiphertextFullIn taggedPrims (min (1 * twoBytes.length) isizeMax) (.fill 32 0) 7 twoBytes
      ≠ .error .panic := by
  refine (decoders_panic_on_header taggedPrims Aead.tagged_sized (.fill 32 0) 7 twoBytes
    (by decide +kernel) 1 (by decide) 0 2).2.1.mpr fun header body h => ?_
  have hsize : (parseHeader twoBytes).map (fun read => read.1.plaintextByteSize) = .ok 2 := by
    decide +kernel
  rw [h] at hsize
  have hsize : header.plaintextByteSize = 2 := Except.ok.inj hsize
  rw [hsize]
  decide +kernel

/-- A header without nonces that names a size. -/
def crafted (size : Nat) (rest : Bytes) : Bytes :=
  fileMagic ++ toBE 4 1 ++ toBE 4 1 ++ toBE 8 size ++ zeros 32 ++ toBE 4 0 ++ rest

/-- A header of 65 bytes asks for more than any multiple of its length that a vector can have, and a
range of a file that names a byte but no chunk is read past the table of nonces. -/
theorem crafted_header_panics :
    (∀ K, 1 ≤ K → decryptCiphertextFullIn taggedPrims
        (min (K * (crafted (2 ^ 64 - 1) []).length) isizeMax) (.fill 32 0) 7
        (crafted (2 ^ 64 - 1) []) = .error .panic)
    ∧ decryptPlaintextRangeIn taggedPrims (min (1 * (crafted 1 (zeros 17)).length) isizeMax)
        (.fill 32 0) 7 (crafted 1 (zeros 17)) 0 1 = .error .panic := by
  refine ⟨fun K hK => ?_, by decide +kernel⟩
  have hlength : (crafted (2 ^ 64 - 1) []).length = 65 := by decide +kernel
  have hmax : isizeMax = 2 ^ 63 - 1 := rfl
  have hsize : (parseHeader (crafted (2 ^ 64 - 1) [])).map (fun read => read.1.plaintextByteSize)
      = .ok (2 ^ 64 - 1) := by decide +kernel
  generalize crafted (2 ^ 64 - 1) [] = c at hlength hsize ⊢
  rw [decryptCiphertextFullIn_eq (by rw [hlength]; omega) (by omega)]
  cases hread : parseHeader c with
  | error e =>
    rw [hread] at hsize
    cases hsize
  | ok read =>
    rw [hread] at hsize
    have hsize : read.1.plaintextByteSize = 2 ^ 64 - 1 := Except.ok.inj hsize
    rw [ok_bind, hsize, reserve, rejectIf_pos (by omega), error_bind]

end Server
end FileCrypto
end Yuance
