import Yuance.FileCrypto.Server

/-!
# Yuance.FileCrypto.Ranges

`decrypt_plaintext_range` and `decrypt_body_range` of `api/src/platform/file_crypto.rs`: a part of the
plaintext is read from the whole file, or from the sealed chunks that it lies in.

* `bodyOffsetForChunk_eq`: the prefix sum of the chunk lengths is the running offset of the format.
* `rangeStep_sealed`, `bodyRangeStep_fetched`: both loops put the cuts of the chunks together.
-/

namespace Yuance
namespace FileCrypto
namespace Server

open Lib

def chunkCiphertextLen (header : FileEncryptionHeader) (chunkIndex : Nat) : Nat :=
  chunkPlaintextLen header.chunkSize header.plaintextByteSize chunkIndex + tagLen

def bodyOffsetForChunk (header : FileEncryptionHeader) (chunkIndex : Nat) : Nat :=
  ((List.range chunkIndex).map (chunkCiphertextLen header)).sum

def parseEncryptionHeader (bytes : Bytes) : Except AppError FileEncryptionHeader := do
  let (header, _) ← parseHeader bytes
  pure header

/-- What of the chunk lies between the two ends: the chunk is opened if that is anything. -/
def decryptCut (P : Prims) (dataKey : Key) (fileObjectId : Int) (header : FileEncryptionHeader)
    (start endExclusive chunkIndex chunkLen : Nat) (chunk : Bytes) : Except AppError Bytes :=
  let chunkStart := chunkIndex * header.chunkSize
  let cutStart := start - chunkStart
  let cutEnd := min (endExclusive - chunkStart) chunkLen
  if cutStart < cutEnd then do
    let nonce ← okOr header.nonces[chunkIndex]? .panic
    let plaintext ← decryptChunk P dataKey fileObjectId (asU32 chunkIndex) nonce chunk
    okOr (slice? plaintext cutStart cutEnd) .panic
  else .ok []

/-- The body of the chunk loop of `decrypt_plaintext_range`. -/
def rangeStep (P : Prims) (dataKey : Key) (fileObjectId : Int) (header : FileEncryptionHeader)
    (body : Bytes) (start endExclusive firstChunk chunkIndex bodyOffset : Nat) :
    Except AppError (Bytes × Nat) := do
  let chunkLen :=
    chunkPlaintextLen header.chunkSize header.plaintextByteSize (asU32 chunkIndex)
  let chunk ← okOr (slice? body bodyOffset (bodyOffset + chunkLen + tagLen))
    (.crypto "加密文件分块数据不完整")
  let piece ← (if firstChunk ≤ chunkIndex then
      decryptCut P dataKey fileObjectId header start endExclusive chunkIndex chunkLen chunk
    else .ok [])
  pure (piece, bodyOffset + (chunkLen + tagLen))

def decryptPlaintextRange (P : Prims) (dataKey : Key) (fileObjectId : Int) (ciphertext : Bytes)
    (start endExclusive : Nat) : Except AppError Bytes := do
  let (header, body) ← parseHeader ciphertext
  let plaintextTotal := header.plaintextByteSize
  if start ≥ plaintextTotal ∨ endExclusive > plaintextTotal ∨ start ≥ endExclusive then pure []
  else do
    let firstChunk := start / header.chunkSize
    let lastChunk := (endExclusive - 1) / header.chunkSize
    let (output, _) ← forChunks
      (rangeStep P dataKey fileObjectId header body start endExclusive firstChunk)
      (lastChunk + 1) 0
    pure output

/-- The body of the chunk loop of `decrypt_body_range`. -/
def bodyRangeStep (P : Prims) (dataKey : Key) (fileObjectId : Int) (header : FileEncryptionHeader)
    (body : Bytes) (start endExclusive chunkIndex bodyOffset : Nat) :
    Except AppError (Bytes × Nat) := do
  let chunkLen := chunkCiphertextLen header chunkIndex
  let chunk ← okOr (slice? body bodyOffset (bodyOffset + chunkLen))
    (.crypto "加密文件分块数据不完整")
  let piece ← decryptCut P dataKey fileObjectId header start endExclusive chunkIndex
    (chunkPlaintextLen header.chunkSize header.plaintextByteSize chunkIndex) chunk
  pure (piece, bodyOffset + chunkLen)

def decryptBodyRange (P : Prims) (dataKey : Key) (fileObjectId : Int)
    (header : FileEncryptionHeader) (body : Bytes)
    (bodyChunkStart bodyChunkEndExclusive plaintextStart plaintextEndExclusive : Nat) :
    Except AppError Bytes :=
  if bodyChunkStart ≥ bodyChunkEndExclusive ∨ plaintextStart ≥ plaintextEndExclusive then .ok []
  else do
    let count := bodyChunkEndExclusive - bodyChunkStart
    let expectedLen := ((List.range' bodyChunkStart count).map (chunkCiphertextLen header)).sum
    rejectIf (body.length < expectedLen) (.crypto "加密文件分块数据不完整")
    let (output, _) ← forChunks
      (fun index => bodyRangeStep P dataKey fileObjectId header body plaintextStart
        plaintextEndExclusive (bodyChunkStart + index)) count 0
    pure output

/-! ## An honest file -/

/-- The header that the encoder writes. -/
def headerOf (P : Prims) (nonce : Nat → Nonce) (plaintext : Bytes) : FileEncryptionHeader :=
  { chunkSize := Format.chunkSize
    plaintextByteSize := plaintext.length
    plaintextSha256 := P.sha.hash plaintext
    chunkCount := Format.count plaintext.length
    nonces := (List.range (Format.count plaintext.length)).map nonce }

section Honest

variable {P : Prims} {key : Key} {fileObjectId : Int} {nonce : Nat → Nonce} {plaintext : Bytes}
  {start stop : Nat}

/-- The part of chunk `i` that lies between the two ends. -/
def cut (plaintext : Bytes) (start stop i : Nat) : Bytes :=
  subarray plaintext (max start (i * Format.chunkSize))
    (min stop ((i + 1) * Format.chunkSize))

/-- The cuts of the chunks before `k` are the range up to the end of these chunks. -/
theorem flatMap_cut (k : Nat) (hstart : start ≤ stop) :
    (List.range k).flatMap (cut plaintext start stop)
      = subarray plaintext start (min stop (max start (k * Format.chunkSize))) := by
  have hcs : Format.chunkSize = 1048576 := rfl
  induction k with
  | zero =>
    rw [Nat.zero_mul, Nat.max_eq_left (by omega), Nat.min_eq_right hstart]
    simp [subarray]
  | succ k ih =>
    rw [List.range_succ, List.flatMap_append, ih, List.flatMap_singleton, cut]
    unfold subarray
    rw [Nat.succ_mul]
    by_cases hbefore : (k + 1) * Format.chunkSize ≤ start
    · rw [Nat.succ_mul] at hbefore
      rw [show min stop (max start (k * Format.chunkSize)) - start = 0 by omega,
        show min stop (max start (k * Format.chunkSize + Format.chunkSize)) - start = 0 by omega,
        show min stop (k * Format.chunkSize + Format.chunkSize)
          - max start (k * Format.chunkSize) = 0 by omega]
      simp
    · rw [Nat.succ_mul] at hbefore
      by_cases hbehind : stop ≤ k * Format.chunkSize
      · rw [show min stop (max start (k * Format.chunkSize)) = stop by omega,
          show min stop (max start (k * Format.chunkSize + Format.chunkSize)) = stop by omega,
          show min stop (k * Format.chunkSize + Format.chunkSize)
            - max start (k * Format.chunkSize) = 0 by omega]
        simp
      · obtain ⟨a, ha⟩ := Nat.exists_eq_add_of_le (Nat.le_max_left start (k * Format.chunkSize))
        obtain ⟨b, hb⟩ := Nat.exists_eq_add_of_le
          (show max start (k * Format.chunkSize)
            ≤ min stop (k * Format.chunkSize + Format.chunkSize) by omega)
        have hl : min stop (start + a) - start = a := by omega
        have hr : min stop (max start (k * Format.chunkSize + Format.chunkSize)) - start
            = a + b := by omega
        rw [hb, ha, hl, hr, Nat.add_sub_cancel_left, List.take_add, List.drop_drop]

section Cut

variable {size i cutStart cutEnd : Nat}

/-- What `decrypt_cut` takes out of a chunk, for chunks of any size. -/
theorem slice?_chunk (hs : start - i * size = cutStart)
    (he : min (stop - i * size) (min (plaintext.length - i * size) size) = cutEnd)
    (hstop : stop ≤ plaintext.length) (hcut : cutStart < cutEnd) :
    slice? (chunk size plaintext i) cutStart cutEnd =
      some (subarray plaintext (max start (i * size)) (min stop ((i + 1) * size))) := by
  rw [slice?_eq_subarray (by omega) (by rw [chunk_length]; omega), chunk]
  unfold subarray
  rw [Nat.add_sub_cancel_left, List.drop_take, List.drop_drop, List.take_take, Nat.succ_mul]
  have hfrom : i * size + cutStart = max start (i * size) := by omega
  have hlength : min (cutEnd - cutStart) (size - cutStart) =
      min stop (i * size + size) - max start (i * size) := by omega
  rw [hfrom, hlength]

theorem subarray_eq_nil (hs : start - i * size = cutStart)
    (he : min (stop - i * size) (min (plaintext.length - i * size) size) = cutEnd)
    (hstop : stop ≤ plaintext.length) (hi : i * size < plaintext.length)
    (hcut : ¬ cutStart < cutEnd) :
    subarray plaintext (max start (i * size)) (min stop ((i + 1) * size)) = [] := by
  unfold subarray
  rw [Nat.succ_mul, List.take_eq_nil_iff]
  left
  omega

end Cut

theorem chunkPlaintextLen_of_lt {n i : Nat} (hi : i < Format.count n) :
    chunkPlaintextLen Format.chunkSize n i = min (n - i * Format.chunkSize) Format.chunkSize := by
  have hlt := (Format.chunk_len_eq hi).2
  simp only [chunkPlaintextLen]
  rw [if_neg (by omega)]

/-- The prefix sum of the chunk lengths is the offset at which the chunk stands. -/
theorem bodyOffsetForChunk_eq {i : Nat} (hi : i ≤ Format.count plaintext.length) :
    bodyOffsetForChunk (headerOf P nonce plaintext) i = Format.bodyOffset plaintext i := by
  induction i with
  | zero => simp [bodyOffsetForChunk, Format.bodyOffset]
  | succ i ih =>
    have hlen : chunkCiphertextLen (headerOf P nonce plaintext) i
        = min (plaintext.length - i * Format.chunkSize) Format.chunkSize + 16 := by
      rw [chunkCiphertextLen, tagLen]
      exact congrArg (· + 16) (chunkPlaintextLen_of_lt hi)
    have hsum : bodyOffsetForChunk (headerOf P nonce plaintext) (i + 1)
        = bodyOffsetForChunk (headerOf P nonce plaintext) i
          + chunkCiphertextLen (headerOf P nonce plaintext) i := by
      simp [bodyOffsetForChunk, List.range_succ]
    rw [hsum, ih (by omega), hlen, Format.bodyOffset_succ hi, Nat.add_assoc]

theorem decryptChunk_sealed (i : Nat) :
    decryptChunk P key fileObjectId i (nonce i) (Format.sealed P key fileObjectId nonce plaintext i)
      = .ok (chunk Format.chunkSize plaintext i) := by
  have hopen : P.aead.decrypt key (nonce i) (chunkAad fileObjectId i)
      (Format.sealed P key fileObjectId nonce plaintext i)
      = some (chunk Format.chunkSize plaintext i) := P.aead.decrypt_encrypt _ _ _ _
  simp only [decryptChunk, hopen]

/-- The cut of a sealed chunk. -/
theorem decryptCut_sealed (h : Format.count plaintext.length < 2 ^ 32)
    (hstop : stop ≤ plaintext.length) {i : Nat} (hi : i < Format.count plaintext.length) :
    decryptCut P key fileObjectId (headerOf P nonce plaintext) start stop i
      (min (plaintext.length - i * Format.chunkSize) Format.chunkSize)
      (Format.sealed P key fileObjectId nonce plaintext i) = .ok (cut plaintext start stop i) := by
  have hlt := (Format.chunk_len_eq hi).2
  have hi32 : asU32 i = i := Nat.mod_eq_of_lt (by omega)
  have hnonce : (headerOf P nonce plaintext).nonces[i]? = some (nonce i) := by
    rw [headerOf, List.getElem?_map, List.getElem?_range hi, Option.map_some]
  have hsize : (headerOf P nonce plaintext).chunkSize = Format.chunkSize := rfl
  obtain ⟨cutStart, hs⟩ : ∃ cutStart, start - i * Format.chunkSize = cutStart := ⟨_, rfl⟩
  obtain ⟨cutEnd, he⟩ : ∃ cutEnd, min (stop - i * Format.chunkSize)
      (min (plaintext.length - i * Format.chunkSize) Format.chunkSize) = cutEnd := ⟨_, rfl⟩
  unfold decryptCut
  simp only [hsize, hs, he]
  split
  · rename_i hcut
    rw [hnonce, okOr_some, ok_bind, hi32, decryptChunk_sealed, ok_bind,
      slice?_chunk hs he hstop hcut, okOr_some]
    rfl
  · rename_i hcut
    exact congrArg Except.ok (subarray_eq_nil hs he hstop hlt hcut).symm

theorem slice_sealed {i : Nat} (hi : i < Format.count plaintext.length) :
    slice? (Format.body P key fileObjectId nonce plaintext) (Format.bodyOffset plaintext i)
      (Format.bodyOffset plaintext i
        + min (plaintext.length - i * Format.chunkSize) Format.chunkSize + tagLen)
      = some (Format.sealed P key fileObjectId nonce plaintext i) := by
  obtain ⟨pre, post, hb, hl⟩ := @Format.body_split P key fileObjectId nonce plaintext i hi
  rw [hb]
  refine slice?_mid hl.symm ?_
  rw [Format.sealed_length, ← hl, tagLen, Nat.min_comm]
  omega

/-- A chunk of the loop over the whole file; those before the first contribute nothing. -/
theorem rangeStep_sealed (h : Format.count plaintext.length < 2 ^ 32)
    (hstop : stop ≤ plaintext.length) {i : Nat} (hi : i < Format.count plaintext.length) :
    rangeStep P key fileObjectId (headerOf P nonce plaintext)
      (Format.body P key fileObjectId nonce plaintext) start stop (start / Format.chunkSize) i
      (Format.bodyOffset plaintext i)
      = .ok (cut plaintext start stop i, Format.bodyOffset plaintext (i + 1)) := by
  have hi32 : asU32 i = i := Nat.mod_eq_of_lt (by omega)
  have hlen : chunkPlaintextLen (headerOf P nonce plaintext).chunkSize
      (headerOf P nonce plaintext).plaintextByteSize i
      = min (plaintext.length - i * Format.chunkSize) Format.chunkSize :=
    chunkPlaintextLen_of_lt hi
  have hnext : Format.bodyOffset plaintext i
      + (min (plaintext.length - i * Format.chunkSize) Format.chunkSize + tagLen)
      = Format.bodyOffset plaintext (i + 1) := by
    rw [Format.bodyOffset_succ hi, tagLen, Nat.add_assoc]
  unfold rangeStep
  rw [hi32, hlen]
  dsimp only
  rw [slice_sealed hi, okOr_some, ok_bind]
  split
  · rw [decryptCut_sealed h hstop hi, ok_bind, hnext, pure_ok]
  · rename_i hbefore
    have hempty : cut plaintext start stop i = [] := by
      have hle : (i + 1) * Format.chunkSize ≤ start :=
        (Nat.le_div_iff_mul_le (by decide)).mp (by omega)
      unfold cut subarray
      rw [List.take_eq_nil_iff]
      left
      omega
    rw [ok_bind, hnext, hempty, pure_ok]

theorem parseHeader_honest (h : Format.count plaintext.length < 2 ^ 32) :
    parseHeader (Format.encoded P key fileObjectId nonce plaintext)
      = .ok (headerOf P nonce plaintext, Format.body P key fileObjectId nonce plaintext) :=
  parseHeader_encoded h

/-- The chunk that the last byte of the range lies in. -/
theorem last_lt_count (hstart : start < stop) (hstop : stop ≤ plaintext.length) :
    (stop - 1) / Format.chunkSize < Format.count plaintext.length := by
  have hle : plaintext.length ≤ Format.count plaintext.length * Format.chunkSize :=
    le_ceilDiv_mul (by decide)
  rw [Nat.div_lt_iff_lt_mul (by decide)]
  omega

/-- The chunks up to the last one hold the whole range. -/
theorem flatMap_cut_last (hstart : start < stop) :
    (List.range ((stop - 1) / Format.chunkSize + 1)).flatMap (cut plaintext start stop)
      = subarray plaintext start stop := by
  have hlast : stop ≤ ((stop - 1) / Format.chunkSize + 1) * Format.chunkSize := by
    have := @Nat.lt_div_mul_add (stop - 1) Format.chunkSize (by decide)
    rw [Nat.succ_mul]
    omega
  rw [flatMap_cut _ (by omega)]
  congr 1
  omega

theorem decryptPlaintextRange_encoded (h : Format.count plaintext.length < 2 ^ 32) :
    decryptPlaintextRange P key fileObjectId (Format.encoded P key fileObjectId nonce plaintext)
      start stop
      = .ok (if start < stop ∧ stop ≤ plaintext.length then subarray plaintext start stop
          else []) := by
  have hsize : (headerOf P nonce plaintext).chunkSize = Format.chunkSize := rfl
  have htotal : (headerOf P nonce plaintext).plaintextByteSize = plaintext.length := rfl
  unfold decryptPlaintextRange
  rw [parseHeader_honest h, ok_bind]
  dsimp only
  rw [hsize, htotal]
  split
  · rename_i hempty
    rw [if_neg (by omega), pure_ok]
  · rename_i hrange
    have hstart : start < stop := by omega
    have hlast := last_lt_count hstart (show stop ≤ plaintext.length by omega)
    have hloop := @forChunks_ok _ _ (cut plaintext start stop) (Format.bodyOffset plaintext)
      ((stop - 1) / Format.chunkSize + 1)
      (fun i hi => @rangeStep_sealed P key fileObjectId nonce plaintext start stop h (by omega) i
        (by omega))
    rw [show Format.bodyOffset plaintext 0 = 0 by simp [Format.bodyOffset],
      flatMap_cut_last hstart] at hloop
    rw [hloop, ok_bind, if_pos (by omega), pure_ok]

/-- The chunk lengths from `first` on, up to chunk `first + count`. -/
theorem sum_chunkCiphertextLen {first count : Nat}
    (hlast : first + count ≤ Format.count plaintext.length) :
    ((List.range' first count).map (chunkCiphertextLen (headerOf P nonce plaintext))).sum
      = Format.bodyOffset plaintext (first + count) - Format.bodyOffset plaintext first := by
  have hall := @bodyOffsetForChunk_eq P nonce plaintext (first + count) hlast
  have hfirst := @bodyOffsetForChunk_eq P nonce plaintext first (by omega)
  have hsplit : List.range (first + count) = List.range first ++ List.range' first count := by
    rw [List.range_add, List.range'_eq_map_range]
  unfold bodyOffsetForChunk at hall hfirst
  rw [hsplit, List.map_append, List.sum_append, hfirst] at hall
  omega

/-- A chunk of the loop over the fetched body. -/
theorem bodyRangeStep_fetched (h : Format.count plaintext.length < 2 ^ 32)
    (hstop : stop ≤ plaintext.length) {first last i : Nat}
    (hlast : last ≤ Format.count plaintext.length) (hi : first + i < last) :
    bodyRangeStep P key fileObjectId (headerOf P nonce plaintext)
      (subarray (Format.body P key fileObjectId nonce plaintext)
        (Format.bodyOffset plaintext first) (Format.bodyOffset plaintext last))
      start stop (first + i)
      (Format.bodyOffset plaintext (first + i) - Format.bodyOffset plaintext first)
      = .ok (cut plaintext start stop (first + i),
          Format.bodyOffset plaintext (first + (i + 1)) - Format.bodyOffset plaintext first) := by
  have hcount : first + i < Format.count plaintext.length := by omega
  have hlen : chunkPlaintextLen (headerOf P nonce plaintext).chunkSize
      (headerOf P nonce plaintext).plaintextByteSize (first + i)
      = min (plaintext.length - (first + i) * Format.chunkSize) Format.chunkSize :=
    chunkPlaintextLen_of_lt hcount
  have hfirst := @Format.bodyOffset_mono plaintext first (first + i) (by omega)
  have hnext := @Format.bodyOffset_mono plaintext (first + i + 1) last (by omega)
  rw [Format.bodyOffset_succ hcount] at hnext
  have hslice := @slice?_subarray _ _ _ _ (Format.bodyOffset plaintext first)
    (Format.bodyOffset plaintext last)
    (@slice_sealed P key fileObjectId nonce plaintext _ hcount) hfirst hnext
  rw [Nat.add_assoc, Nat.sub_add_comm hfirst] at hslice
  unfold bodyRangeStep chunkCiphertextLen
  rw [hlen]
  dsimp only
  have hmoved : Format.bodyOffset plaintext (first + i) - Format.bodyOffset plaintext first
      + (min (plaintext.length - (first + i) * Format.chunkSize) Format.chunkSize + tagLen)
      = Format.bodyOffset plaintext (first + (i + 1)) - Format.bodyOffset plaintext first := by
    rw [← Nat.add_assoc first i 1, Format.bodyOffset_succ hcount, tagLen]
    omega
  rw [hslice, okOr_some, ok_bind, decryptCut_sealed h hstop hcount, ok_bind, hmoved, pure_ok]

theorem decryptBodyRange_fetched (h : Format.count plaintext.length < 2 ^ 32)
    (hstart : start < stop) (hstop : stop ≤ plaintext.length) :
    decryptBodyRange P key fileObjectId (headerOf P nonce plaintext)
      (subarray (Format.body P key fileObjectId nonce plaintext)
        (Format.bodyOffset plaintext (start / Format.chunkSize))
        (Format.bodyOffset plaintext ((stop - 1) / Format.chunkSize + 1)))
      (start / Format.chunkSize) ((stop - 1) / Format.chunkSize + 1) start stop
      = .ok (subarray plaintext start stop) := by
  obtain ⟨first, hfirst⟩ : ∃ first, start / Format.chunkSize = first := ⟨_, rfl⟩
  obtain ⟨last, hlast⟩ : ∃ last, (stop - 1) / Format.chunkSize = last := ⟨_, rfl⟩
  have hcount := last_lt_count hstart hstop
  have hle : first ≤ last := by
    rw [← hfirst, ← hlast]
    exact Nat.div_le_div_right (by omega)
  rw [hlast] at hcount
  have hbefore : (List.range first).flatMap (cut plaintext start stop) = [] := by
    have hbound : first * Format.chunkSize ≤ start := by
      rw [← hfirst]
      exact Nat.div_mul_le_self _ _
    rw [flatMap_cut _ (by omega), Nat.max_eq_left hbound]
    unfold subarray
    rw [Nat.min_eq_right (by omega), Nat.sub_self, List.take_zero]
  have hcuts : (List.range (last + 1 - first)).flatMap
      (fun i => cut plaintext start stop (first + i)) = subarray plaintext start stop := by
    have hsplit : List.range (last + 1) = List.range first
        ++ (List.range (last + 1 - first)).map (first + ·) := by
      rw [← List.range_add, Nat.add_sub_cancel' (by omega)]
    have hall := @flatMap_cut_last plaintext start stop hstart
    rw [hlast, hsplit, List.flatMap_append, hbefore, List.nil_append, List.flatMap_map] at hall
    exact hall
  have hloop := @forChunks_ok _ _ (fun i => cut plaintext start stop (first + i))
    (fun i => Format.bodyOffset plaintext (first + i) - Format.bodyOffset plaintext first)
    (last + 1 - first)
    (fun i hi => @bodyRangeStep_fetched P key fileObjectId nonce plaintext start stop h hstop first
      (last + 1) i (by omega) (by omega))
  have hzero : Format.bodyOffset plaintext (first + 0) - Format.bodyOffset plaintext first = 0 := by
    rw [Nat.add_zero, Nat.sub_self]
  rw [hzero, hcuts] at hloop
  have hbody := @Format.bodyOffset_le_body P key fileObjectId nonce plaintext (last + 1) hcount
  rw [hfirst, hlast]
  unfold decryptBodyRange
  rw [if_neg (by omega)]
  dsimp only
  rw [sum_chunkCiphertextLen (by omega), Nat.add_sub_cancel' (by omega), rejectIf_neg (by
    rw [subarray_length hbody]
    omega), ok_bind, hloop, ok_bind, pure_ok]

/-- An encoder that returns has drawn a nonce for every chunk. -/
theorem count_lt_of_encrypted {c : Bytes}
    (h : encryptPlaintext P key fileObjectId plaintext nonce = .ok c) :
    Format.count plaintext.length < 2 ^ 32 := by
  have hlen : (chunks fileChunkSize plaintext).length = Format.count plaintext.length := by
    rw [chunks, List.length_map, List.length_range, fileChunkSize_eq, Format.count]
  unfold encryptPlaintext at h
  dsimp only at h
  obtain ⟨⟨body, offset⟩, hloop, _⟩ := bind_eq_ok.mp h
  by_contra hbig
  have hshort : chunkCountFor plaintext.length fileChunkSize
      < (chunks fileChunkSize plaintext).length := by
    rw [hlen]
    unfold chunkCountFor asU32
    split
    · omega
    · have hmod := Nat.mod_lt (ceilDiv plaintext.length fileChunkSize) (show 0 < 2 ^ 32 by decide)
      omega
  obtain ⟨offset', next, hstep⟩ := forChunks_step hloop hshort
  unfold encryptStep randomNonces at hstep
  rw [List.getElem?_eq_none (by simp), okOr_none, error_bind] at hstep
  cases hstep

end Honest

/-- A range of an honest file is the slice of the plaintext, and so is what is read from the chunks
that the range lies in. -/
theorem range_decryption_slices (P : Prims) (key : Key) (fileObjectId : Int) (nonce : Nat → Nonce)
    (plaintext c : Bytes) (start stop : Nat)
    (h : encryptPlaintext P key fileObjectId plaintext nonce = .ok c) :
    decryptPlaintextRange P key fileObjectId c start stop
        = .ok (if start < stop ∧ stop ≤ plaintext.length then subarray plaintext start stop
            else [])
    ∧ (start < stop → stop ≤ plaintext.length →
        ∃ header body fetched, parseEncryptionHeader c = .ok header
          ∧ c.drop (fileHeaderFixedLen + header.chunkCount * nonceLen) = body
          ∧ slice? body (bodyOffsetForChunk header (start / header.chunkSize))
              (bodyOffsetForChunk header ((stop - 1) / header.chunkSize + 1)) = some fetched
          ∧ decryptBodyRange P key fileObjectId header fetched (start / header.chunkSize)
              ((stop - 1) / header.chunkSize + 1) start stop
            = .ok (subarray plaintext start stop)) := by
  have hcount := count_lt_of_encrypted h
  rw [encryptPlaintext_eq hcount] at h
  obtain rfl := Except.ok.inj h
  refine ⟨decryptPlaintextRange_encoded hcount, ?_⟩
  intro hstart hstop
  have hlast := last_lt_count hstart hstop
  have hbody : (Format.encoded P key fileObjectId nonce plaintext).drop
      (fileHeaderFixedLen + (headerOf P nonce plaintext).chunkCount * nonceLen)
      = Format.body P key fileObjectId nonce plaintext := by
    refine List.drop_left' ?_
    rw [Format.header_length]
    rfl
  have hle : start / Format.chunkSize ≤ (stop - 1) / Format.chunkSize :=
    Nat.div_le_div_right (by omega)
  have hfrom := @bodyOffsetForChunk_eq P nonce plaintext (start / Format.chunkSize) (by omega)
  have hto := @bodyOffsetForChunk_eq P nonce plaintext ((stop - 1) / Format.chunkSize + 1) hlast
  have hmono := @Format.bodyOffset_mono plaintext (start / Format.chunkSize)
    ((stop - 1) / Format.chunkSize + 1) (by omega)
  have hend := @Format.bodyOffset_le_body P key fileObjectId nonce plaintext _ hlast
  have hparse : parseEncryptionHeader (Format.encoded P key fileObjectId nonce plaintext)
      = .ok (headerOf P nonce plaintext) := by
    unfold parseEncryptionHeader
    rw [parseHeader_honest hcount, ok_bind]
    rfl
  refine ⟨headerOf P nonce plaintext, _, _, hparse, hbody, ?_,
    decryptBodyRange_fetched hcount hstart hstop⟩
  rw [show (headerOf P nonce plaintext).chunkSize = Format.chunkSize from rfl, hfrom, hto]
  exact slice?_eq_subarray hmono hend

/-- Two bytes of a file of three. -/
theorem range_decryption_slices_three :
    ∃ c, encryptPlaintext ⟨Aead.plain, Digest.const⟩ (.fill 32 0) 7 [104, 105, 106]
        (fun _ => .fill 12 0) = .ok c
      ∧ decryptPlaintextRange ⟨Aead.plain, Digest.const⟩ (.fill 32 0) 7 c 1 3 = .ok [105, 106] := by
  obtain ⟨c, hc⟩ : ∃ c, encryptPlaintext ⟨Aead.plain, Digest.const⟩ (.fill 32 0) 7 [104, 105, 106]
      (fun _ => .fill 12 0) = .ok c := ⟨_, rfl⟩
  exact ⟨c, hc, (range_decryption_slices _ _ _ _ _ c 1 3 hc).1⟩

end Server
end FileCrypto
end Yuance
