import Yuance.FileCrypto.Format

/-!
# Yuance.FileCrypto.Server

`encrypt_plaintext` and `decrypt_ciphertext_full` of `api/src/platform/file_crypto.rs`. `usize` is
64 bits wide; casts to `u32` and `u64` truncate. The nonces that `random_nonces` draws are the
first values of `fill`.

* `encryptPlaintext_eq`: the encoder produces `Format.encoded`.
* `decryptCiphertextFull_encoded`: the decoder returns the plaintext of `Format.encoded`.
-/

namespace Yuance
namespace FileCrypto
namespace Server

open Lib

inductive AppError where
  | crypto (message : String)
  /-- An index out of bounds. -/
  | panic
  deriving DecidableEq, Repr

def fileChunkSize : Nat := 1024 * 1024
def fileMagic : Bytes := ascii "YUANCE-ENC-v1"
def fileFormatVersion : Nat := 1
def nonceLen : Nat := 12
def tagLen : Nat := 16
def fileHeaderFixedLen : Nat := fileMagic.length + 4 + 4 + 8 + 32 + 4

def asU32 (n : Nat) : Nat := n % 2 ^ 32

structure FileEncryptionHeader where
  chunkSize : Nat
  plaintextByteSize : Nat
  plaintextSha256 : Bytes
  chunkCount : Nat
  nonces : List Nonce

def chunkAadWithSeparator (fileObjectId : Int) (chunkIndex : Nat) (separator : UInt8) : Bytes :=
  ascii "yuance-file-enc:v1:" ++ toBE 8 (asU64 fileObjectId) ++ [separator] ++ toBE 4 chunkIndex

def chunkAad (fileObjectId : Int) (chunkIndex : Nat) : Bytes :=
  chunkAadWithSeparator fileObjectId chunkIndex 58

def legacyChunkAad (fileObjectId : Int) (chunkIndex : Nat) : Bytes :=
  chunkAadWithSeparator fileObjectId chunkIndex 0

def chunkCountFor (plaintextLen chunkSize : Nat) : Nat :=
  if plaintextLen = 0 then 0 else asU32 (ceilDiv plaintextLen chunkSize)

def randomNonces (fill : Nat → Nonce) (count : Nat) : List Nonce := (List.range count).map fill

def buildHeader (P : Prims) (plaintext : Bytes) (nonces : List Nonce) : Bytes :=
  fileMagic ++ toBE 4 fileFormatVersion ++ toBE 4 (asU32 fileChunkSize)
    ++ toBE 8 plaintext.length ++ P.sha.hash plaintext ++ toBE 4 (asU32 nonces.length)
    ++ nonces.flatMap (fun nonce => nonce.val)

def encryptChunk (P : Prims) (dataKey : Key) (fileObjectId : Int) (chunkIndex : Nat)
    (nonce : Nonce) (plaintext : Bytes) : Bytes :=
  P.aead.encrypt dataKey nonce (chunkAad fileObjectId chunkIndex) plaintext

/-- The body of the chunk loop of `encrypt_plaintext`. -/
def encryptStep (P : Prims) (dataKey : Key) (fileObjectId : Int) (nonces : List Nonce)
    (plaintext : Bytes) (chunkIndex offset : Nat) : Except AppError (Bytes × Nat) := do
  let nonce ← okOr nonces[chunkIndex]? .panic
  pure (encryptChunk P dataKey fileObjectId (asU32 chunkIndex) nonce
    (chunk fileChunkSize plaintext chunkIndex), offset)

def encryptPlaintext (P : Prims) (dataKey : Key) (fileObjectId : Int) (plaintext : Bytes)
    (fill : Nat → Nonce) : Except AppError Bytes := do
  let chunkCount := chunkCountFor plaintext.length fileChunkSize
  let nonces := randomNonces fill chunkCount
  let header := buildHeader P plaintext nonces
  let (body, _) ← forChunks (encryptStep P dataKey fileObjectId nonces plaintext)
    (chunks fileChunkSize plaintext).length 0
  pure (header ++ body)

/-- `read_u32` and `read_u64` are `readUInt 4` and `readUInt 8`. -/
def readUInt (width : Nat) (bytes : Bytes) (cursor : Nat) : Except AppError (Nat × Nat) := do
  let value ← okOr (slice? bytes cursor (cursor + width)) (.crypto "加密文件头不完整")
  pure (ofBE value, cursor + width)

def readU32 (bytes : Bytes) (cursor : Nat) : Except AppError (Nat × Nat) := readUInt 4 bytes cursor

def readU64 (bytes : Bytes) (cursor : Nat) : Except AppError (Nat × Nat) := readUInt 8 bytes cursor

/-- `nonce_bytes.chunks_exact(NONCE_LEN)`: a short rest is dropped. -/
def chunksExact : Nat → Bytes → List Nonce
  | 0, _ => []
  | k + 1, bytes =>
    if h : (bytes.take nonceLen).length = 12 then
      ⟨bytes.take nonceLen, h⟩ :: chunksExact k (bytes.drop nonceLen)
    else []

def parseHeader (ciphertext : Bytes) : Except AppError (FileEncryptionHeader × Bytes) := do
  rejectIf (ciphertext.length < fileHeaderFixedLen ∨ ciphertext.take fileMagic.length ≠ fileMagic)
    (.crypto "加密文件头无效")
  let cursor := fileMagic.length
  let (version, cursor) ← readU32 ciphertext cursor
  rejectIf (version ≠ fileFormatVersion) (.crypto "加密文件版本不受支持")
  let (chunkSize, cursor) ← readU32 ciphertext cursor
  rejectIf (chunkSize = 0) (.crypto "加密文件分块大小无效")
  let (plaintextByteSize, cursor) ← readU64 ciphertext cursor
  let plaintextSha256 ← okOr (slice? ciphertext cursor (cursor + 32)) (.crypto "加密文件头不完整")
  let cursor := cursor + 32
  let (chunkCount, cursor) ← readU32 ciphertext cursor
  let headerLen := cursor + chunkCount * nonceLen
  let nonceBytes ← okOr (slice? ciphertext cursor headerLen) (.crypto "加密文件 nonce 表不完整")
  let nonces := chunksExact (nonceBytes.length / nonceLen) nonceBytes
  let body ← okOr (slice? ciphertext headerLen ciphertext.length) (.crypto "加密文件体不完整")
  pure ({ chunkSize, plaintextByteSize, plaintextSha256, chunkCount, nonces }, body)

def chunkPlaintextLen (chunkSize plaintextByteSize chunkIndex : Nat) : Nat :=
  let offset := chunkIndex * chunkSize
  if offset ≥ plaintextByteSize then 0 else min (plaintextByteSize - offset) chunkSize

/-- Files of early browser uploads carry a zero byte in place of the colon. -/
def decryptChunk (P : Prims) (dataKey : Key) (fileObjectId : Int) (chunkIndex : Nat)
    (nonce : Nonce) (ciphertextWithTag : Bytes) : Except AppError Bytes :=
  match P.aead.decrypt dataKey nonce (chunkAad fileObjectId chunkIndex) ciphertextWithTag with
  | some plaintext => .ok plaintext
  | none =>
    match P.aead.decrypt dataKey nonce (legacyChunkAad fileObjectId chunkIndex)
        ciphertextWithTag with
    | some plaintext => .ok plaintext
    | none => .error (.crypto "文件分块解密失败或数据被篡改")

def verifyPlaintextSha256 (P : Prims) (plaintext expected : Bytes) : Except AppError Unit :=
  rejectIf (P.sha.hash plaintext ≠ expected) (.crypto "文件明文校验值不匹配")

/-- The body of the chunk loop of `decrypt_ciphertext_full`. -/
def decryptStep (P : Prims) (dataKey : Key) (fileObjectId : Int) (header : FileEncryptionHeader)
    (body : Bytes) (chunkIndex offset : Nat) : Except AppError (Bytes × Nat) := do
  let chunkLen := chunkPlaintextLen header.chunkSize header.plaintextByteSize chunkIndex
  let chunk ← okOr (slice? body offset (offset + chunkLen + tagLen))
    (.crypto "加密文件分块数据不完整")
  let nonce ← okOr header.nonces[chunkIndex]? .panic
  let plaintext ← decryptChunk P dataKey fileObjectId chunkIndex nonce chunk
  pure (plaintext, offset + (chunkLen + tagLen))

def decryptCiphertextFull (P : Prims) (dataKey : Key) (fileObjectId : Int) (ciphertext : Bytes) :
    Except AppError Bytes := do
  let (header, body) ← parseHeader ciphertext
  let (plaintext, _) ← forChunks (decryptStep P dataKey fileObjectId header body)
    header.chunkCount 0
  verifyPlaintextSha256 P plaintext header.plaintextSha256
  pure plaintext

/-! ## The encoder -/

section Encode

variable {P : Prims} {key : Key} {fileObjectId : Int} {nonce : Nat → Nonce} {plaintext : Bytes}

theorem fileChunkSize_eq : fileChunkSize = Format.chunkSize := rfl

theorem chunkCountFor_eq (n : Nat) (h : Format.count n < 2 ^ 32) :
    chunkCountFor n fileChunkSize = Format.count n := by
  unfold chunkCountFor
  split
  · rename_i h0
    subst h0
    rw [Format.count, ceilDiv_zero_left]
  · rw [fileChunkSize_eq]
    exact Nat.mod_eq_of_lt h

theorem buildHeader_eq (h : Format.count plaintext.length < 2 ^ 32) :
    buildHeader P plaintext (randomNonces nonce (Format.count plaintext.length))
      = Format.header P nonce plaintext := by
  have hc : asU32 (randomNonces nonce (Format.count plaintext.length)).length
      = Format.count plaintext.length := by
    simp only [randomNonces, List.length_map, List.length_range]
    exact Nat.mod_eq_of_lt h
  have hn : (randomNonces nonce (Format.count plaintext.length)).flatMap (fun n => n.val)
      = Format.nonceTable nonce plaintext := by
    simp [randomNonces, Format.nonceTable, List.flatMap_map]
  have hz : asU32 fileChunkSize = Format.chunkSize := by decide
  rw [buildHeader, hc, hn, hz, Format.header, Format.fixedHeader]
  rfl

theorem encryptStep_eq {i : Nat} (hi : i < Format.count plaintext.length)
    (h : Format.count plaintext.length < 2 ^ 32) :
    encryptStep P key fileObjectId (randomNonces nonce (Format.count plaintext.length)) plaintext
      i 0 = .ok (Format.sealed P key fileObjectId nonce plaintext i, 0) := by
  have hi32 : asU32 i = i := Nat.mod_eq_of_lt (by omega)
  have hn : (randomNonces nonce (Format.count plaintext.length))[i]? = some (nonce i) := by
    rw [randomNonces, List.getElem?_map, List.getElem?_range hi, Option.map_some]
  rw [encryptStep, hn, hi32, fileChunkSize_eq, okOr_some, ok_bind, pure_ok]
  rfl

theorem encryptPlaintext_eq (h : Format.count plaintext.length < 2 ^ 32) :
    encryptPlaintext P key fileObjectId plaintext nonce
      = .ok (Format.encoded P key fileObjectId nonce plaintext) := by
  have hlen : (chunks fileChunkSize plaintext).length = Format.count plaintext.length := by
    rw [chunks, List.length_map, List.length_range, fileChunkSize_eq, Format.count]
  -- the loop body never moves the offset, so the offset function is constant
  have hloop := @forChunks_ok _ _ (Format.sealed P key fileObjectId nonce plaintext) (fun _ => 0)
    (Format.count plaintext.length) (fun i hi => encryptStep_eq hi h)
  rw [encryptPlaintext, chunkCountFor_eq _ h, hlen, buildHeader_eq h, hloop]
  rfl

end Encode

/-! ## The decoder -/

section Decode

variable {P : Prims} {key : Key} {fileObjectId : Int} {nonce : Nat → Nonce} {plaintext : Bytes}

theorem readUInt_of_slice? {bytes : Bytes} {w n cursor : Nat}
    (h : slice? bytes cursor (cursor + w) = some (toBE w n)) (hn : n < 256 ^ w) :
    readUInt w bytes cursor = .ok (n, cursor + w) := by
  rw [readUInt, h, okOr_some, ok_bind, ofBE_toBE_of_lt hn, pure_ok]

theorem chunksExact_nonces (f : Nat → Nonce) (k : Nat) (rest : Bytes) :
    chunksExact k ((List.range k).flatMap (fun i => (f i).val) ++ rest)
      = (List.range k).map f := by
  induction k generalizing f with
  | zero => rfl
  | succ k ih =>
    have hr : (List.range (k + 1)).flatMap (fun i => (f i).val) ++ rest
        = (f 0).val ++ ((List.range k).flatMap (fun i => (f (i + 1)).val) ++ rest) := by
      simp [List.range_succ_eq_map, List.flatMap_map, List.append_assoc]
    have ht : ((f 0).val ++ ((List.range k).flatMap (fun i => (f (i + 1)).val) ++ rest)).take
        nonceLen = (f 0).val := List.take_left' (f 0).property
    have hd : ((f 0).val ++ ((List.range k).flatMap (fun i => (f (i + 1)).val) ++ rest)).drop
        nonceLen = (List.range k).flatMap (fun i => (f (i + 1)).val) ++ rest :=
      List.drop_left' (f 0).property
    rw [hr, chunksExact, dif_pos (by rw [ht]; exact (f 0).property), hd, ih (fun i => f (i + 1)),
      List.range_succ_eq_map, List.map_cons, List.map_map]
    congr 1
    exact Subtype.ext ht

/-- A header parses to its fields and what stands behind it. -/
theorem parseHeader_of_fields {tail c : Bytes} (f : Format.Fields P nonce plaintext tail c)
    (h : Format.count plaintext.length < 2 ^ 32) :
    parseHeader c
      = .ok ({ chunkSize := Format.chunkSize, plaintextByteSize := plaintext.length,
               plaintextSha256 := P.sha.hash plaintext,
               chunkCount := Format.count plaintext.length,
               nonces := (List.range (Format.count plaintext.length)).map nonce }, tail) := by
  have hsize := Format.size_lt h
  have hm : fileMagic.length = 13 := by decide
  have r1 : readU32 c 13 = .ok (1, 17) := readUInt_of_slice? f.version (by decide)
  have r2 : readU32 c 17 = .ok (Format.chunkSize, 21) :=
    readUInt_of_slice? f.chunkSize (by decide)
  have r3 : readU64 c 21 = .ok (plaintext.length, 29) :=
    readUInt_of_slice? f.plaintextSize (by omega)
  have r5 : readU32 c 61 = .ok (Format.count plaintext.length, 65) :=
    readUInt_of_slice? f.count (by omega)
  have hguard : ¬ (c.length < fileHeaderFixedLen ∨ c.take 13 ≠ fileMagic) := by
    have h65 : fileHeaderFixedLen = Format.fixedLen := by decide
    rw [f.length, f.magic, h65]
    rintro (hl | hne)
    · omega
    · exact hne rfl
  have hx : chunksExact (Format.count plaintext.length) (Format.nonceTable nonce plaintext)
      = (List.range (Format.count plaintext.length)).map nonce := by
    have := chunksExact_nonces nonce (Format.count plaintext.length) []
    rwa [List.append_nil] at this
  have htable : (Format.nonceTable nonce plaintext).length / 12
      = Format.count plaintext.length := by
    simp
  unfold parseHeader
  simp only [hm, rejectIf_neg hguard, r1, rejectIf_neg (show ¬ 1 ≠ fileFormatVersion by decide), r2,
    rejectIf_neg (show ¬ Format.chunkSize = 0 by decide), r3, f.sha, r5, nonceLen, f.nonces, f.body,
    okOr_some, ok_bind, pure_ok, htable, hx, Nat.reduceAdd]

/-- The header of an encoded file parses to its fields and the sealed chunks. -/
theorem parseHeader_encoded (h : Format.count plaintext.length < 2 ^ 32) :
    parseHeader (Format.encoded P key fileObjectId nonce plaintext)
      = .ok ({ chunkSize := Format.chunkSize, plaintextByteSize := plaintext.length,
               plaintextSha256 := P.sha.hash plaintext,
               chunkCount := Format.count plaintext.length,
               nonces := (List.range (Format.count plaintext.length)).map nonce },
             Format.body P key fileObjectId nonce plaintext) :=
  parseHeader_of_fields Format.encoded_fields h

/-- The loop body opens sealed chunk `i` and moves to the next one. -/
theorem decryptStep_encoded {i : Nat} (hi : i < Format.count plaintext.length) :
    decryptStep P key fileObjectId
      { chunkSize := Format.chunkSize, plaintextByteSize := plaintext.length,
        plaintextSha256 := P.sha.hash plaintext, chunkCount := Format.count plaintext.length,
        nonces := (List.range (Format.count plaintext.length)).map nonce }
      (Format.body P key fileObjectId nonce plaintext) i (Format.bodyOffset plaintext i)
      = .ok (chunk Format.chunkSize plaintext i, Format.bodyOffset plaintext (i + 1)) := by
  obtain ⟨pre, post, hb, hl⟩ := @Format.body_split P key fileObjectId nonce plaintext i hi
  have hlt := (Format.chunk_len_eq hi).2
  have hchunk : chunkPlaintextLen Format.chunkSize plaintext.length i
      = min (plaintext.length - i * Format.chunkSize) Format.chunkSize := by
    simp only [chunkPlaintextLen]
    rw [if_neg (by omega)]
  have hs : (Format.sealed P key fileObjectId nonce plaintext i).length
      = min (plaintext.length - i * Format.chunkSize) Format.chunkSize + 16 := by
    rw [Format.sealed_length, Nat.min_comm]
  have hslice : slice? (Format.body P key fileObjectId nonce plaintext)
      (Format.bodyOffset plaintext i)
      (Format.bodyOffset plaintext i
        + min (plaintext.length - i * Format.chunkSize) Format.chunkSize + tagLen)
      = some (Format.sealed P key fileObjectId nonce plaintext i) := by
    rw [hb]
    refine slice?_mid hl.symm ?_
    rw [hs, ← hl, tagLen]
    omega
  have hdec : decryptChunk P key fileObjectId i (nonce i)
      (Format.sealed P key fileObjectId nonce plaintext i)
      = .ok (chunk Format.chunkSize plaintext i) := by
    have : P.aead.decrypt key (nonce i) (chunkAad fileObjectId i)
        (Format.sealed P key fileObjectId nonce plaintext i)
        = some (chunk Format.chunkSize plaintext i) := P.aead.decrypt_encrypt _ _ _ _
    simp only [decryptChunk, this]
  have hnext : Format.bodyOffset plaintext i
      + (min (plaintext.length - i * Format.chunkSize) Format.chunkSize + tagLen)
      = Format.bodyOffset plaintext (i + 1) := by
    rw [Format.bodyOffset_succ hi, tagLen]
    omega
  unfold decryptStep
  simp only [hchunk, hslice, hdec, hnext, List.getElem?_map, List.getElem?_range hi,
    Option.map_some, okOr_some, ok_bind, pure_ok]

theorem decryptCiphertextFull_encoded (h : Format.count plaintext.length < 2 ^ 32) :
    decryptCiphertextFull P key fileObjectId (Format.encoded P key fileObjectId nonce plaintext)
      = .ok plaintext := by
  have h0 : Format.bodyOffset plaintext 0 = 0 := by simp [Format.bodyOffset]
  have hloop := @forChunks_ok _ _ (chunk Format.chunkSize plaintext)
    (Format.bodyOffset plaintext) _
    (fun i hi => @decryptStep_encoded P key fileObjectId nonce plaintext i hi)
  rw [h0, Format.flatMap_chunk] at hloop
  have hsha : verifyPlaintextSha256 P plaintext (P.sha.hash plaintext) = .ok () :=
    rejectIf_neg (by simp)
  unfold decryptCiphertextFull
  simp only [parseHeader_encoded h, hloop, hsha, ok_bind, pure_ok]

end Decode

end Server
end FileCrypto
end Yuance
