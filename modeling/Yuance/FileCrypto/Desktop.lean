import Yuance.FileCrypto.Format
import Yuance.Lib.Js

/-!
# Yuance.FileCrypto.Desktop

`encryptFile` and `decryptFile` of `desktop/src/files/file-crypto.mjs`. Buffer lengths are far below
`2 ^ 53`, so arithmetic on them is exact; the size field of a header is rounded as `Number` does.
The nonces that `randomBytes` draws are the values of `fill`.

* `encryptFile_eq`: the encoder produces `Format.encoded`.
* `decryptFile_encoded`: the decoder returns the plaintext of `Format.encoded`.
-/

namespace Yuance
namespace FileCrypto
namespace Desktop

open Lib

inductive Error where
  -- `code: "file_encryption_failed"`
  | encryption (message : String)
  -- `ERR_OUT_OF_RANGE` of a Buffer read or write
  | outOfRange
  -- a nonce that is not twelve bytes long
  | ivLength
  deriving DecidableEq, Repr

def fileChunkSize : Nat := 1024 * 1024
def magic : Bytes := ascii "YUANCE-ENC-v1"
def formatVersion : Nat := 1
def nonceLength : Nat := 12
def tagLength : Nat := 16
def sha256Length : Nat := 32
def headerFixedLength : Nat := magic.length + 4 + 4 + 8 + sha256Length + 4

def chunkCountFor (plaintextByteSize : Nat) : Except Error Nat := do
  rejectIf (¬ isSafeInteger plaintextByteSize) (.encryption "加密文件明文大小无效")
  pure (if plaintextByteSize = 0 then 0 else ceilDiv plaintextByteSize fileChunkSize)

def plaintextLengthAt (chunkSize plaintextByteSize chunkIndex : Nat) : Nat :=
  let offset := toNumber (chunkIndex * chunkSize)
  if offset ≥ plaintextByteSize then 0 else min (plaintextByteSize - offset) chunkSize

/-- `writeUInt32BE` and `writeBigUInt64BE` refuse a value that does not fit. -/
def writeUInt (width : Nat) (buffer : Bytes) (value offset : Nat) : Except Error Bytes := do
  rejectIf (value ≥ 256 ^ width) .outOfRange
  pure (writeAt buffer offset (toBE width value))

def writeUInt32BE (buffer : Bytes) (value offset : Nat) : Except Error Bytes :=
  writeUInt 4 buffer value offset
def writeBigUInt64BE (buffer : Bytes) (value offset : Nat) : Except Error Bytes :=
  writeUInt 8 buffer value offset

def createEncryptionHeader (plaintextByteSize : Nat) (plaintextSha256 : String)
    (fill : Nat → Nonce) : Except Error Bytes := do
  let chunkCount ← chunkCountFor plaintextByteSize
  let nonces := (List.range chunkCount).flatMap fun i => (fill i).val
  let header := zeros (headerFixedLength + nonces.length)
  let header := bufferCopy header 0 magic
  let cursor := magic.length
  let header ← writeUInt32BE header formatVersion cursor
  let header ← writeUInt32BE header fileChunkSize (cursor + 4)
  let header ← writeBigUInt64BE header plaintextByteSize (cursor + 4 + 4)
  let header := bufferCopy header (cursor + 4 + 4 + 8) (bufferFromHex plaintextSha256)
  let header ← writeUInt32BE header chunkCount (cursor + 4 + 4 + 8 + sha256Length)
  pure (bufferCopy header (cursor + 4 + 4 + 8 + sha256Length + 4) nonces)

def chunkAadWithSeparator (fileObjectId : Int) (chunkIndex : Nat) (separator : UInt8) :
    Except Error Bytes := do
  rejectIf (¬ isSafeInteger fileObjectId ∨ fileObjectId < 1) (.encryption "文件对象 ID 无效")
  let text := ascii "yuance-file-enc:v1:"
  let aad := bufferCopy (zeros (text.length + 8 + 1 + 4)) 0 text
  let aad ← writeBigUInt64BE aad fileObjectId.toNat text.length
  let aad := writeAt aad (text.length + 8) [separator]
  writeUInt32BE aad chunkIndex (text.length + 9)

def chunkAad (fileObjectId : Int) (chunkIndex : Nat) : Except Error Bytes :=
  chunkAadWithSeparator fileObjectId chunkIndex 0x3a

def legacyChunkAad (fileObjectId : Int) (chunkIndex : Nat) : Except Error Bytes :=
  chunkAadWithSeparator fileObjectId chunkIndex 0

def encryptBodyChunk (P : Prims) (dataKey : Key) (fileObjectId : Int) (chunkIndex : Nat)
    (nonce plaintext : Bytes) : Except Error Bytes := do
  let nonce ← okOr (asNonce nonce) .ivLength
  let aad ← chunkAad fileObjectId chunkIndex
  pure (P.aead.encrypt dataKey nonce aad plaintext)

/-- The body of the chunk loop of `encryptFile`. -/
def encryptStep (P : Prims) (dataKey : Key) (fileObjectId : Int) (plaintext header : Bytes)
    (chunkCount chunkIndex offset : Nat) : Except Error (Bytes × Nat) := do
  let start := chunkIndex * fileChunkSize
  let chunk := subarray plaintext start (start + fileChunkSize)
  let nonce := subarray header
    (header.length - chunkCount * nonceLength + chunkIndex * nonceLength)
    (header.length - chunkCount * nonceLength + (chunkIndex + 1) * nonceLength)
  let part ← encryptBodyChunk P dataKey fileObjectId chunkIndex nonce chunk
  pure (part, offset)

def encryptFile (P : Prims) (dataKey : Key) (fileObjectId : Int) (plaintext : Bytes)
    (fill : Nat → Nonce) : Except Error Bytes := do
  let header ← createEncryptionHeader plaintext.length (hexEncode (P.sha.hash plaintext)) fill
  let chunkCount ← chunkCountFor plaintext.length
  let (parts, _) ← forChunks (encryptStep P dataKey fileObjectId plaintext header chunkCount)
    chunkCount 0
  pure (header ++ parts)

structure EncryptionHeader where
  chunkSize : Nat
  plaintextByteSize : Nat
  plaintextSha256 : String
  chunkCount : Nat
  nonces : Bytes
  headerLength : Nat

def readUInt (width : Nat) (buffer : Bytes) (offset : Nat) : Except Error Nat := do
  let value ← okOr (slice? buffer offset (offset + width)) .outOfRange
  pure (ofBE value)

def readUInt32BE (buffer : Bytes) (offset : Nat) : Except Error Nat := readUInt 4 buffer offset
def readBigUInt64BE (buffer : Bytes) (offset : Nat) : Except Error Nat := readUInt 8 buffer offset

def parseEncryptionHeader (ciphertext : Bytes) : Except Error EncryptionHeader := do
  rejectIf (ciphertext.length < headerFixedLength) (.encryption "加密文件头无效")
  rejectIf (subarray ciphertext 0 magic.length ≠ magic) (.encryption "加密文件头无效")
  let cursor := magic.length
  let version ← readUInt32BE ciphertext cursor
  rejectIf (version ≠ formatVersion) (.encryption "加密文件版本不受支持")
  let cursor := cursor + 4
  let chunkSize ← readUInt32BE ciphertext cursor
  let cursor := cursor + 4
  rejectIf (chunkSize = 0) (.encryption "加密文件分块大小无效")
  let size ← readBigUInt64BE ciphertext cursor
  let plaintextByteSize := toNumber size
  let cursor := cursor + 8
  let plaintextSha256 := hexEncode (subarray ciphertext cursor (cursor + sha256Length))
  let cursor := cursor + sha256Length
  let chunkCount ← readUInt32BE ciphertext cursor
  let cursor := cursor + 4
  let headerLength := cursor + chunkCount * nonceLength
  rejectIf (ciphertext.length < headerLength) (.encryption "加密文件 nonce 表不完整")
  let nonces := subarray ciphertext cursor headerLength
  pure { chunkSize, plaintextByteSize, plaintextSha256, chunkCount, nonces, headerLength }

def decryptBodyChunkWithAad (P : Prims) (dataKey : Key) (nonce ciphertextWithTag aad : Bytes) :
    Except Error Bytes := do
  rejectIf (ciphertextWithTag.length ≤ tagLength) (.encryption "加密文件分块数据不完整")
  let nonce ← okOr (asNonce nonce) .ivLength
  okOr (P.aead.decrypt dataKey nonce aad ciphertextWithTag)
    (.encryption "Unsupported state or unable to authenticate data")

/-- The two attempts sit in `try` blocks that also cover the associated data. -/
def decryptBodyChunk (P : Prims) (dataKey : Key) (fileObjectId : Int) (chunkIndex : Nat)
    (nonce ciphertextWithTag : Bytes) : Except Error Bytes :=
  match chunkAad fileObjectId chunkIndex >>=
      decryptBodyChunkWithAad P dataKey nonce ciphertextWithTag with
  | .ok plaintext => .ok plaintext
  | .error _ =>
    match legacyChunkAad fileObjectId chunkIndex >>=
        decryptBodyChunkWithAad P dataKey nonce ciphertextWithTag with
    | .ok plaintext => .ok plaintext
    | .error _ => .error (.encryption "加密文件分块解密失败或数据被篡改")

/-- The body of the chunk loop of `decryptFile`. -/
def decryptStep (P : Prims) (dataKey : Key) (fileObjectId : Int) (ciphertext : Bytes)
    (header : EncryptionHeader) (chunkIndex offset : Nat) : Except Error (Bytes × Nat) := do
  let length := plaintextLengthAt header.chunkSize header.plaintextByteSize chunkIndex
  let chunk := subarray ciphertext offset (offset + length + tagLength)
  let nonce := subarray header.nonces (chunkIndex * nonceLength) ((chunkIndex + 1) * nonceLength)
  let plaintext ← decryptBodyChunk P dataKey fileObjectId chunkIndex nonce chunk
  pure (plaintext, offset + chunk.length)

def decryptFile (P : Prims) (dataKey : Key) (fileObjectId : Int) (ciphertext : Bytes) :
    Except Error Bytes := do
  let header ← parseEncryptionHeader ciphertext
  let (plaintext, _) ← forChunks (decryptStep P dataKey fileObjectId ciphertext header)
    header.chunkCount header.headerLength
  rejectIf (hexEncode (P.sha.hash plaintext) ≠ header.plaintextSha256)
    (.encryption "加密文件明文校验值不匹配")
  pure plaintext

/-! ## The encoder -/

section Encode

variable {P : Prims} {key : Key} {fileObjectId : Int} {nonce : Nat → Nonce} {plaintext : Bytes}

theorem fileChunkSize_eq : fileChunkSize = Format.chunkSize := rfl

theorem nonceLength_eq : nonceLength = 12 := by decide

theorem chunkCountFor_eq {n : Nat} (h : Format.count n < 2 ^ 32) :
    chunkCountFor n = .ok (Format.count n) := by
  have hn := Format.size_lt h
  have hsafe : ¬ ¬ isSafeInteger n := by
    simp only [isSafeInteger, maxSafeInteger, not_not]
    omega
  have hc : (if n = 0 then 0 else ceilDiv n fileChunkSize) = Format.count n := by
    split
    · rename_i h0
      subst h0
      rw [Format.count, ceilDiv_zero_left]
    · rw [fileChunkSize_eq, Format.count]
  rw [chunkCountFor, rejectIf_neg hsafe, ok_bind, hc, pure_ok]

theorem writeUInt_eq {width value offset : Nat} {pre : Bytes} {k k' : Nat}
    (hv : value < 256 ^ width) (ho : offset = pre.length) (hk : k = width + k') :
    writeUInt width (pre ++ zeros k) value offset = .ok (pre ++ toBE width value ++ zeros k') := by
  rw [writeUInt, rejectIf_neg (by omega), ok_bind, writeAt_zeros ho (by rw [toBE_length, hk]),
    pure_ok]

/-- The header is filled from left to right. -/
theorem createEncryptionHeader_eq (h : Format.count plaintext.length < 2 ^ 32) :
    createEncryptionHeader plaintext.length (hexEncode (P.sha.hash plaintext)) nonce
      = .ok (Format.header P nonce plaintext) := by
  have hsize := Format.size_lt h
  have hm : magic.length = 13 := by decide
  have hfixed : headerFixedLength = 65 := by decide
  have hsha := P.sha.length_hash plaintext
  have htable : ((List.range (Format.count plaintext.length)).flatMap fun i => (nonce i).val)
      = Format.nonceTable nonce plaintext := by
    rw [Format.nonceTable]
  obtain ⟨table, ht⟩ : ∃ t, Format.nonceTable nonce plaintext = t := ⟨_, rfl⟩
  have w1 : bufferCopy (zeros (65 + table.length)) 0 magic
      = magic ++ zeros (52 + table.length) := by
    have := @bufferCopy_zeros [] magic 0 (65 + table.length) (52 + table.length) rfl (by omega)
    rwa [List.nil_append, List.nil_append] at this
  have w2 : writeUInt32BE (magic ++ zeros (52 + table.length)) formatVersion 13
      = .ok (magic ++ toBE 4 1 ++ zeros (48 + table.length)) :=
    writeUInt_eq (by decide) (by omega) (by omega)
  have w3 : writeUInt32BE (magic ++ toBE 4 1 ++ zeros (48 + table.length)) fileChunkSize (13 + 4)
      = .ok (magic ++ toBE 4 1 ++ toBE 4 Format.chunkSize ++ zeros (44 + table.length)) :=
    writeUInt_eq (by decide) (by simp [hm]) (by omega)
  have w4 : writeBigUInt64BE (magic ++ toBE 4 1 ++ toBE 4 Format.chunkSize
        ++ zeros (44 + table.length)) plaintext.length (13 + 4 + 4)
      = .ok (magic ++ toBE 4 1 ++ toBE 4 Format.chunkSize ++ toBE 8 plaintext.length
        ++ zeros (36 + table.length)) :=
    writeUInt_eq (by omega) (by simp [hm]) (by omega)
  have w5 : bufferCopy (magic ++ toBE 4 1 ++ toBE 4 Format.chunkSize ++ toBE 8 plaintext.length
        ++ zeros (36 + table.length)) (13 + 4 + 4 + 8) (P.sha.hash plaintext)
      = magic ++ toBE 4 1 ++ toBE 4 Format.chunkSize ++ toBE 8 plaintext.length
        ++ P.sha.hash plaintext ++ zeros (4 + table.length) :=
    bufferCopy_zeros (by simp [hm]) (by omega)
  have w6 : writeUInt32BE (magic ++ toBE 4 1 ++ toBE 4 Format.chunkSize
        ++ toBE 8 plaintext.length ++ P.sha.hash plaintext ++ zeros (4 + table.length))
        (Format.count plaintext.length) (13 + 4 + 4 + 8 + 32)
      = .ok (Format.fixedHeader P plaintext ++ zeros table.length) :=
    writeUInt_eq (by omega) (by simp [hm, hsha]) rfl
  have w7 : bufferCopy (Format.fixedHeader P plaintext ++ zeros table.length)
        (13 + 4 + 4 + 8 + 32 + 4) table = Format.fixedHeader P plaintext ++ table := by
    have := @bufferCopy_zeros (Format.fixedHeader P plaintext) table (13 + 4 + 4 + 8 + 32 + 4)
      table.length 0 (by simp [Format.fixedLen]) (by omega)
    rwa [show zeros 0 = [] from rfl, List.append_nil] at this
  unfold createEncryptionHeader
  simp only [chunkCountFor_eq h, htable, ht, hfixed, hm, w1, w2, w3, w4, bufferFromHex_hexEncode, w5,
    show sha256Length = 32 by decide, w6, w7, ok_bind, pure_ok]
  rw [Format.header, ht]

theorem chunkAadWithSeparator_eq (hid : 1 ≤ fileObjectId) (hmax : fileObjectId ≤ 2 ^ 53 - 1) {i : Nat}
    (hi : i < 2 ^ 32) (separator : UInt8) : chunkAadWithSeparator fileObjectId i separator
      = .ok (Format.aadWith fileObjectId i separator) := by
  have hg : ¬ (¬ isSafeInteger fileObjectId ∨ fileObjectId < 1) := by
    simp only [isSafeInteger, maxSafeInteger, not_or, not_not]
    omega
  have hu : asU64 fileObjectId = fileObjectId.toNat := by
    rw [asU64, Int.emod_eq_of_lt (by omega) (by omega)]
  have ht : (ascii "yuance-file-enc:v1:").length = 19 := by decide
  obtain ⟨text, htext⟩ : ∃ t, ascii "yuance-file-enc:v1:" = t := ⟨_, rfl⟩
  rw [htext] at ht
  have w1 : bufferCopy (zeros (19 + 8 + 1 + 4)) 0 text = text ++ zeros 13 := by
    have := @bufferCopy_zeros [] text 0 (19 + 8 + 1 + 4) 13 rfl (by omega)
    rwa [List.nil_append, List.nil_append] at this
  have w2 : writeBigUInt64BE (text ++ zeros 13) fileObjectId.toNat 19
      = .ok (text ++ toBE 8 fileObjectId.toNat ++ zeros 5) :=
    writeUInt_eq (by omega) ht.symm (by omega)
  have w3 : writeAt (text ++ toBE 8 fileObjectId.toNat ++ zeros 5) (19 + 8) [separator]
      = text ++ toBE 8 fileObjectId.toNat ++ [separator] ++ zeros 4 :=
    writeAt_zeros (by simp [ht]) rfl
  have w4 : writeUInt32BE (text ++ toBE 8 fileObjectId.toNat ++ [separator] ++ zeros 4) i (19 + 9)
      = .ok (text ++ toBE 8 fileObjectId.toNat ++ [separator] ++ toBE 4 i ++ zeros 0) :=
    writeUInt_eq (by omega) (by simp [ht]) rfl
  unfold chunkAadWithSeparator
  simp only [rejectIf_neg hg, htext, ht, w1, w2, w3, w4, ok_bind]
  rw [Format.aadWith, hu, htext, show zeros 0 = [] from rfl, List.append_nil]

theorem chunkAad_eq (hid : 1 ≤ fileObjectId) (hmax : fileObjectId ≤ 2 ^ 53 - 1) {i : Nat}
    (hi : i < 2 ^ 32) : chunkAad fileObjectId i = .ok (Format.aad fileObjectId i) :=
  chunkAadWithSeparator_eq hid hmax hi 0x3a

theorem encryptStep_eq (hid : 1 ≤ fileObjectId) (hmax : fileObjectId ≤ 2 ^ 53 - 1)
    (h : Format.count plaintext.length < 2 ^ 32) {i : Nat}
    (hi : i < Format.count plaintext.length) :
    encryptStep P key fileObjectId plaintext (Format.header P nonce plaintext)
      (Format.count plaintext.length) i 0
      = .ok (Format.sealed P key fileObjectId nonce plaintext i, 0) := by
  have hn : subarray (Format.header P nonce plaintext)
      ((Format.header P nonce plaintext).length - Format.count plaintext.length * 12 + i * 12)
      ((Format.header P nonce plaintext).length - Format.count plaintext.length * 12
        + (i + 1) * 12) = (nonce i).val := by
    obtain ⟨pre, post, hs, hl⟩ := @Format.nonceTable_split nonce plaintext i hi
    have hp : (Format.fixedHeader P plaintext ++ pre).length = Format.fixedLen + i * 12 := by
      rw [List.length_append, Format.fixedHeader_length, hl]
    rw [Format.header_length, Nat.add_sub_cancel, Format.header, hs, ← List.append_assoc,
      ← List.append_assoc]
    refine subarray_mid hp.symm ?_
    rw [hp, (nonce i).property, Nat.succ_mul]
    omega
  unfold encryptStep encryptBodyChunk
  simp only [nonceLength_eq, hn, asNonce_val, okOr_some, chunkAad_eq hid hmax (show i < 2 ^ 32 by omega),
    ok_bind, pure_ok]
  rfl

theorem encryptFile_eq (hid : 1 ≤ fileObjectId) (hmax : fileObjectId ≤ 2 ^ 53 - 1)
    (h : Format.count plaintext.length < 2 ^ 32) :
    encryptFile P key fileObjectId plaintext nonce
      = .ok (Format.encoded P key fileObjectId nonce plaintext) := by
  have hloop := @forChunks_ok _ _ (Format.sealed P key fileObjectId nonce plaintext) (fun _ => 0)
    (Format.count plaintext.length) (fun i hi => encryptStep_eq hid hmax h hi)
  unfold encryptFile
  simp only [createEncryptionHeader_eq h, chunkCountFor_eq h, hloop, ok_bind, pure_ok]
  rw [Format.encoded, Format.body]

end Encode

/-! ## The decoder -/

section Decode

variable {P : Prims} {key : Key} {fileObjectId : Int} {nonce : Nat → Nonce} {plaintext : Bytes}

theorem readUInt_of_slice? {bytes : Bytes} {w n offset : Nat}
    (h : slice? bytes offset (offset + w) = some (toBE w n)) (hn : n < 256 ^ w) :
    readUInt w bytes offset = .ok n := by
  rw [readUInt, h, okOr_some, ok_bind, ofBE_toBE_of_lt hn, pure_ok]

/-- What `parseEncryptionHeader` reads from an encoded file. -/
def headerOf (P : Prims) (nonce : Nat → Nonce) (plaintext : Bytes) : EncryptionHeader :=
  { chunkSize := Format.chunkSize
    plaintextByteSize := plaintext.length
    plaintextSha256 := hexEncode (P.sha.hash plaintext)
    chunkCount := Format.count plaintext.length
    nonces := Format.nonceTable nonce plaintext
    headerLength := Format.fixedLen + Format.count plaintext.length * 12 }

theorem parseEncryptionHeader_encoded (h : Format.count plaintext.length < 2 ^ 32) :
    parseEncryptionHeader (Format.encoded P key fileObjectId nonce plaintext)
      = .ok (headerOf P nonce plaintext) := by
  have f := @Format.encoded_fields P key fileObjectId nonce plaintext
  obtain ⟨c, hc⟩ : ∃ c, Format.encoded P key fileObjectId nonce plaintext = c := ⟨_, rfl⟩
  rw [hc] at f ⊢
  have hsize := Format.size_lt h
  have hm : magic.length = 13 := by decide
  have hs : sha256Length = 32 := by decide
  have hlen := f.length
  have h65 : 13 + 4 + 4 + 8 + 32 + 4 = Format.fixedLen := by decide
  have hfixed : headerFixedLength = Format.fixedLen := by decide
  have r1 : readUInt32BE c 13 = .ok 1 := readUInt_of_slice? f.version (by decide)
  have r2 : readUInt32BE c (13 + 4) = .ok Format.chunkSize :=
    readUInt_of_slice? f.chunkSize (by decide)
  have r3 : readBigUInt64BE c (13 + 4 + 4) = .ok plaintext.length :=
    readUInt_of_slice? f.plaintextSize (by omega)
  have r4 : subarray c (13 + 4 + 4 + 8) (13 + 4 + 4 + 8 + 32) = P.sha.hash plaintext :=
    subarray_of_slice? f.sha
  have r5 : readUInt32BE c (13 + 4 + 4 + 8 + 32) = .ok (Format.count plaintext.length) :=
    readUInt_of_slice? f.count (by omega)
  have r6 : subarray c Format.fixedLen (Format.fixedLen + Format.count plaintext.length * 12)
      = Format.nonceTable nonce plaintext := subarray_of_slice? f.nonces
  have g1 : ¬ c.length < headerFixedLength := by omega
  have g2 : ¬ subarray c 0 13 ≠ magic := not_not_intro f.magic
  have g3 : ¬ 1 ≠ formatVersion := by decide
  have g4 : ¬ Format.chunkSize = 0 := by decide
  have g5 : ¬ c.length < Format.fixedLen + Format.count plaintext.length * 12 := by omega
  unfold parseEncryptionHeader
  simp only [rejectIf_neg g1, hm, rejectIf_neg g2, r1, rejectIf_neg g3, r2, rejectIf_neg g4, r3,
    toNumber_of_lt (show plaintext.length < 2 ^ 53 by omega), hs, r4, r5, h65, nonceLength_eq,
    rejectIf_neg g5, r6, ok_bind, pure_ok, headerOf]

/-- The loop body opens sealed chunk `i` and moves to the next one. -/
theorem decryptStep_encoded (hid : 1 ≤ fileObjectId) (hmax : fileObjectId ≤ 2 ^ 53 - 1)
    (h : Format.count plaintext.length < 2 ^ 32) {i : Nat}
    (hi : i < Format.count plaintext.length) :
    decryptStep P key fileObjectId (Format.encoded P key fileObjectId nonce plaintext)
      (headerOf P nonce plaintext) i
      (Format.fixedLen + Format.count plaintext.length * 12 + Format.bodyOffset plaintext i)
      = .ok (chunk Format.chunkSize plaintext i,
          Format.fixedLen + Format.count plaintext.length * 12
            + Format.bodyOffset plaintext (i + 1)) := by
  have hlt := (Format.chunk_len_eq hi).2
  have hsize := Format.size_lt h
  have hchunk : plaintextLengthAt Format.chunkSize plaintext.length i
      = min (plaintext.length - i * Format.chunkSize) Format.chunkSize := by
    unfold plaintextLengthAt
    rw [toNumber_of_lt (by omega), if_neg (by omega)]
  have hsealed := subarray_of_slice?
    (@Format.sealed_at P key fileObjectId nonce plaintext i hi)
  rw [← Nat.add_assoc] at hsealed
  have hlen : (Format.sealed P key fileObjectId nonce plaintext i).length
      = min (plaintext.length - i * Format.chunkSize) Format.chunkSize + 16 := by
    rw [Format.sealed_length, Nat.min_comm]
  have hshort : ¬ (Format.sealed P key fileObjectId nonce plaintext i).length ≤ tagLength := by
    have hpos : 0 < Format.chunkSize := by decide
    rw [hlen, tagLength]
    omega
  have hopen : P.aead.decrypt key (nonce i) (Format.aad fileObjectId i)
      (Format.sealed P key fileObjectId nonce plaintext i)
      = some (chunk Format.chunkSize plaintext i) := P.aead.decrypt_encrypt _ _ _ _
  have hbody : decryptBodyChunk P key fileObjectId i (nonce i).val
      (Format.sealed P key fileObjectId nonce plaintext i)
      = .ok (chunk Format.chunkSize plaintext i) := by
    rw [decryptBodyChunk, chunkAad_eq hid hmax (by omega), ok_bind]
    simp only [decryptBodyChunkWithAad, rejectIf_neg hshort, asNonce_val, hopen, okOr_some, ok_bind]
  have hnext : Format.fixedLen + Format.count plaintext.length * 12
      + Format.bodyOffset plaintext i
      + (min (plaintext.length - i * Format.chunkSize) Format.chunkSize + 16)
      = Format.fixedLen + Format.count plaintext.length * 12
        + Format.bodyOffset plaintext (i + 1) := by
    rw [Format.bodyOffset_succ hi]
    omega
  unfold decryptStep headerOf
  simp only [hchunk, show tagLength = 16 by decide, hsealed, nonceLength_eq,
    Format.subarray_nonceTable hi, hbody, ok_bind, pure_ok, hlen]
  rw [hnext]

theorem decryptLoop_encoded (hid : 1 ≤ fileObjectId) (hmax : fileObjectId ≤ 2 ^ 53 - 1)
    (h : Format.count plaintext.length < 2 ^ 32) :
    ∃ last, forChunks (decryptStep P key fileObjectId
        (Format.encoded P key fileObjectId nonce plaintext) (headerOf P nonce plaintext))
        (Format.count plaintext.length)
        (Format.fixedLen + Format.count plaintext.length * 12) = .ok (plaintext, last) := by
  have hloop := @forChunks_ok _ _ (chunk Format.chunkSize plaintext)
    (fun i => Format.fixedLen + Format.count plaintext.length * 12
      + Format.bodyOffset plaintext i) _
    (fun i hi => @decryptStep_encoded P key fileObjectId nonce plaintext hid hmax h i hi)
  have h0 : Format.bodyOffset plaintext 0 = 0 := by simp [Format.bodyOffset]
  simp only [h0, Nat.add_zero, Format.flatMap_chunk] at hloop
  exact ⟨_, hloop⟩

theorem decryptFile_encoded (hid : 1 ≤ fileObjectId) (hmax : fileObjectId ≤ 2 ^ 53 - 1)
    (h : Format.count plaintext.length < 2 ^ 32) :
    decryptFile P key fileObjectId (Format.encoded P key fileObjectId nonce plaintext)
      = .ok plaintext := by
  obtain ⟨last, hloop⟩ := @decryptLoop_encoded P key fileObjectId nonce plaintext hid hmax h
  have hsha : ¬ hexEncode (P.sha.hash plaintext) ≠ (headerOf P nonce plaintext).plaintextSha256 :=
    not_not_intro rfl
  unfold decryptFile
  rw [parseEncryptionHeader_encoded h, ok_bind]
  simp only [show (headerOf P nonce plaintext).chunkCount = Format.count plaintext.length from rfl,
    show (headerOf P nonce plaintext).headerLength
      = Format.fixedLen + Format.count plaintext.length * 12 from rfl, hloop, ok_bind,
    rejectIf_neg hsha, pure_ok]

end Decode

end Desktop
end FileCrypto
end Yuance
