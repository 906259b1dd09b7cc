import Yuance.FileCrypto.Format
import Yuance.Lib.Js

/-!
# Yuance.FileCrypto.Browser

`encryptFile` and `decryptFile` of `web/src/platform/browser/file-crypto.js`. `DataView` writes wrap
to their width; `crypto.getRandomValues` refuses more than 65536 bytes, and the nonces it draws
otherwise are the values of `fill`. The parts a loop collects for `concatBytes` are put together as
they come.

* `encryptFile_eq`: the encoder produces `Format.encoded` whenever the nonces fit the quota.
* `decryptFile_encoded`: the decoder returns the plaintext of `Format.encoded`.
-/

namespace Yuance
namespace FileCrypto
namespace Browser

open Lib

inductive Error where
  | error (message : String)
  -- `TypedArray.prototype.set` past the end, or a `DataView` read out of bounds
  | range
  -- `QuotaExceededError` of `getRandomValues`
  | quotaExceeded
  -- a rejected WebCrypto operation
  | operation
  deriving DecidableEq, Repr

def fileChunkSize : Nat := 1024 * 1024
def magicBytes : Bytes := ascii "YUANCE-ENC-v1"
def formatVersion : Nat := 1
def nonceLength : Nat := 12
def tagLength : Nat := 16
def sha256Length : Nat := 32
def headerFixedLength : Nat := magicBytes.length + 4 + 4 + 8 + sha256Length + 4

def randomQuota : Nat := 65536

/-- `target.set(source, offset)`. -/
def typedSet (target : Bytes) (source : Bytes) (offset : Nat) : Except Error Bytes := do
  rejectIf (offset + source.length > target.length) .range
  pure (writeAt target offset source)

/-- `view.setUint32` and `view.setBigUint64` keep the low bytes of the value. -/
def viewSet (width : Nat) (target : Bytes) (offset value : Nat) : Except Error Bytes :=
  typedSet target (toBE width value) offset

def getRandomValues (fill : Nat → Nonce) (chunkCount : Nat) : Except Error Bytes := do
  rejectIf (chunkCount * nonceLength > randomQuota) .quotaExceeded
  pure ((List.range chunkCount).flatMap fun i => (fill i).val)

def buildHeader (P : Prims) (plaintext nonces : Bytes) : Except Error Bytes := do
  let header := zeros (headerFixedLength + nonces.length)
  let header ← typedSet header magicBytes 0
  let cursor := magicBytes.length
  let header ← viewSet 4 header cursor formatVersion
  let header ← viewSet 4 header (cursor + 4) fileChunkSize
  let header ← viewSet 8 header (cursor + 4 + 4) plaintext.length
  let header ← typedSet header (P.sha.hash plaintext) (cursor + 4 + 4 + 8)
  let header ← viewSet 4 header (cursor + 4 + 4 + 8 + sha256Length)
    (nonces.length / nonceLength)
  typedSet header nonces (cursor + 4 + 4 + 8 + sha256Length + 4)

def encryptedBodyLength (plaintextLength chunkCount : Nat) : Nat :=
  if chunkCount = 0 then 0
  else
    let lastChunkLength := plaintextLength - (chunkCount - 1) * fileChunkSize
    (chunkCount - 1) * (fileChunkSize + tagLength) + lastChunkLength + tagLength

def importAesGcmKey (keyBytes : Bytes) : Except Error Key :=
  if h : keyBytes.length = 32 then .ok ⟨keyBytes, h⟩ else .error (.error "文件数据密钥长度无效")

def chunkAadWithSeparator (fileObjectId : Int) (chunkIndex : Nat) (separator : UInt8) :
    Except Error Bytes := do
  let text := ascii "yuance-file-enc:v1:"
  let aad ← typedSet (zeros (text.length + 8 + 1 + 4)) text 0
  let aad ← viewSet 8 aad text.length (asU64 fileObjectId)
  let aad ← typedSet aad [separator] (text.length + 8)
  viewSet 4 aad (text.length + 9) chunkIndex

def chunkAad (fileObjectId : Int) (chunkIndex : Nat) : Except Error Bytes :=
  chunkAadWithSeparator fileObjectId chunkIndex 0x3a

def legacyChunkAad (fileObjectId : Int) (chunkIndex : Nat) : Except Error Bytes :=
  chunkAadWithSeparator fileObjectId chunkIndex 0

def encryptChunk (P : Prims) (key : Key) (nonce aad plaintext : Bytes) : Except Error Bytes := do
  let nonce ← okOr (asNonce nonce) .operation
  pure (P.aead.encrypt key nonce aad plaintext)

def decryptChunk (P : Prims) (key : Key) (nonce aad ciphertextWithTag : Bytes) :
    Except Error Bytes := do
  let nonce ← okOr (asNonce nonce) .operation
  okOr (P.aead.decrypt key nonce aad ciphertextWithTag) .operation

/-- The body of the chunk loop of `encryptFile`: the buffer and the offset behind the header. -/
def encryptStep (P : Prims) (key : Key) (fileObjectId : Int) (plaintext nonces : Bytes)
    (headerLength : Nat) (state : Bytes × Nat) (chunkIndex : Nat) : Except Error (Bytes × Nat) := do
  let start := chunkIndex * fileChunkSize
  let chunk := subarray plaintext start (start + fileChunkSize)
  let nonce := subarray nonces (chunkIndex * nonceLength) ((chunkIndex + 1) * nonceLength)
  let aad ← chunkAad fileObjectId chunkIndex
  let encryptedBytes ← encryptChunk P key nonce aad chunk
  let ciphertext ← typedSet state.1 encryptedBytes (headerLength + state.2)
  pure (ciphertext, state.2 + encryptedBytes.length)

def encryptFile (P : Prims) (dataKey : Bytes) (fileObjectId : Int) (plaintext : Bytes)
    (fill : Nat → Nonce) : Except Error Bytes := do
  let chunkCount := ceilDiv plaintext.length fileChunkSize
  let nonces ← getRandomValues fill chunkCount
  let header ← buildHeader P plaintext nonces
  let bodyLength := encryptedBodyLength plaintext.length chunkCount
  let ciphertext ← typedSet (zeros (header.length + bodyLength)) header 0
  let key ← importAesGcmKey dataKey
  let (ciphertext, _) ← (List.range chunkCount).foldlM
    (encryptStep P key fileObjectId plaintext nonces header.length) (ciphertext, 0)
  pure ciphertext

structure EncryptionHeader where
  chunkSize : Nat
  plaintextByteSize : Nat
  plaintextSha256 : String
  chunkCount : Nat
  nonces : Bytes
  headerLength : Nat

/-- `view.getUint32` and `view.getBigUint64`. -/
def viewGet (width : Nat) (view : Bytes) (offset : Nat) : Except Error Nat := do
  let value ← okOr (slice? view offset (offset + width)) .range
  pure (ofBE value)

def parseEncryptionHeader (ciphertext : Bytes) : Except Error EncryptionHeader := do
  rejectIf (ciphertext.length < headerFixedLength) (.error "加密文件头无效")
  rejectIf (subarray ciphertext 0 magicBytes.length ≠ magicBytes) (.error "加密文件头无效")
  let cursor := magicBytes.length
  let version ← viewGet 4 ciphertext cursor
  rejectIf (version ≠ formatVersion) (.error "加密文件版本不受支持")
  let cursor := cursor + 4
  let chunkSize ← viewGet 4 ciphertext cursor
  let cursor := cursor + 4
  rejectIf (chunkSize = 0) (.error "加密文件分块大小无效")
  let size ← viewGet 8 ciphertext cursor
  let plaintextByteSize := toNumber size
  let cursor := cursor + 8
  let plaintextSha256 := hexEncode (subarray ciphertext cursor (cursor + sha256Length))
  let cursor := cursor + sha256Length
  let chunkCount ← viewGet 4 ciphertext cursor
  let cursor := cursor + 4
  let headerLength := cursor + chunkCount * nonceLength
  rejectIf (ciphertext.length < headerLength) (.error "加密文件 nonce 表不完整")
  let nonces := subarray ciphertext cursor headerLength
  pure { chunkSize, plaintextByteSize, plaintextSha256, chunkCount, nonces, headerLength }

def chunkPlaintextLengthAt (chunkSize plaintextByteSize chunkIndex : Nat) : Nat :=
  let offset := toNumber (chunkIndex * chunkSize)
  if offset ≥ plaintextByteSize then 0 else min (plaintextByteSize - offset) chunkSize

/-- The two attempts of the chunk loop of `decryptFile`. -/
def decryptAttempts (P : Prims) (key : Key) (fileObjectId : Int) (chunkIndex : Nat)
    (nonce chunk : Bytes) : Except Error Bytes :=
  match chunkAad fileObjectId chunkIndex >>= fun aad => decryptChunk P key nonce aad chunk with
  | .ok plaintext => .ok plaintext
  | .error _ =>
    match legacyChunkAad fileObjectId chunkIndex >>= fun aad =>
        decryptChunk P key nonce aad chunk with
    | .ok plaintext => .ok plaintext
    | .error _ => .error (.error "加密文件分块解密失败或数据被篡改")

/-- The body of the chunk loop of `decryptFile`. -/
def decryptStep (P : Prims) (key : Key) (fileObjectId : Int) (ciphertext : Bytes)
    (header : EncryptionHeader) (chunkIndex bodyOffset : Nat) : Except Error (Bytes × Nat) := do
  let chunkPlaintextLength :=
    chunkPlaintextLengthAt header.chunkSize header.plaintextByteSize chunkIndex
  let chunk := subarray ciphertext bodyOffset (bodyOffset + chunkPlaintextLength + tagLength)
  let nonce := subarray header.nonces (chunkIndex * nonceLength) ((chunkIndex + 1) * nonceLength)
  let plaintext ← decryptAttempts P key fileObjectId chunkIndex nonce chunk
  pure (plaintext, bodyOffset + chunk.length)

def decryptFile (P : Prims) (dataKey : Bytes) (fileObjectId : Int) (ciphertext : Bytes) :
    Except Error Bytes := do
  let header ← parseEncryptionHeader ciphertext
  let key ← importAesGcmKey dataKey
  let (plaintext, _) ← forChunks (decryptStep P key fileObjectId ciphertext header)
    header.chunkCount header.headerLength
  rejectIf (hexEncode (P.sha.hash plaintext) ≠ header.plaintextSha256)
    (.error "加密文件明文校验值不匹配")
  pure plaintext

/-! ## The encoder -/

section Encode

variable {P : Prims} {key : Key} {fileObjectId : Int} {nonce : Nat → Nonce} {plaintext : Bytes}

theorem nonceLength_eq : nonceLength = 12 := by decide

theorem count_eq (n : Nat) : ceilDiv n fileChunkSize = Format.count n := rfl

theorem importAesGcmKey_val : importAesGcmKey key.val = .ok key := dif_pos key.property

theorem typedSet_eq {pre src : Bytes} {off k k' : Nat} (ho : off = pre.length)
    (hk : k = src.length + k') :
    typedSet (pre ++ zeros k) src off = .ok (pre ++ src ++ zeros k') := by
  have hfit : ¬ off + src.length > (pre ++ zeros k).length := by
    rw [List.length_append, zeros_length]
    omega
  rw [typedSet, rejectIf_neg hfit, ok_bind, writeAt_zeros ho hk, pure_ok]

theorem viewSet_eq {width value off : Nat} {pre : Bytes} {k k' : Nat} (ho : off = pre.length)
    (hk : k = width + k') :
    viewSet width (pre ++ zeros k) off value = .ok (pre ++ toBE width value ++ zeros k') :=
  typedSet_eq ho (by rw [toBE_length, hk])

/-- The header is filled from left to right. -/
theorem buildHeader_eq :
    buildHeader P plaintext (Format.nonceTable nonce plaintext)
      = .ok (Format.header P nonce plaintext) := by
  have hm : magicBytes.length = 13 := by decide
  have hfixed : headerFixedLength = 65 := by decide
  have hsha := P.sha.length_hash plaintext
  have hcount : (Format.nonceTable nonce plaintext).length / 12
      = Format.count plaintext.length := by
    rw [Format.nonceTable_length, Nat.mul_div_cancel _ (by decide)]
  obtain ⟨table, ht⟩ : ∃ t, Format.nonceTable nonce plaintext = t := ⟨_, rfl⟩
  rw [ht] at hcount ⊢
  have w1 : typedSet (zeros (65 + table.length)) magicBytes 0
      = .ok (magicBytes ++ zeros (52 + table.length)) := by
    have := @typedSet_eq [] magicBytes 0 (65 + table.length) (52 + table.length) rfl (by omega)
    rwa [List.nil_append, List.nil_append] at this
  have w2 : viewSet 4 (magicBytes ++ zeros (52 + table.length)) 13 formatVersion
      = .ok (magicBytes ++ toBE 4 1 ++ zeros (48 + table.length)) :=
    viewSet_eq (by omega) (by omega)
  have w3 : viewSet 4 (magicBytes ++ toBE 4 1 ++ zeros (48 + table.length)) (13 + 4) fileChunkSize
      = .ok (magicBytes ++ toBE 4 1 ++ toBE 4 Format.chunkSize ++ zeros (44 + table.length)) :=
    viewSet_eq (by simp [hm]) (by omega)
  have w4 : viewSet 8 (magicBytes ++ toBE 4 1 ++ toBE 4 Format.chunkSize
        ++ zeros (44 + table.length)) (13 + 4 + 4) plaintext.length
      = .ok (magicBytes ++ toBE 4 1 ++ toBE 4 Format.chunkSize ++ toBE 8 plaintext.length
        ++ zeros (36 + table.length)) :=
    viewSet_eq (by simp [hm]) (by omega)
  have w5 : typedSet (magicBytes ++ toBE 4 1 ++ toBE 4 Format.chunkSize
        ++ toBE 8 plaintext.length ++ zeros (36 + table.length)) (P.sha.hash plaintext)
        (13 + 4 + 4 + 8)
      = .ok (magicBytes ++ toBE 4 1 ++ toBE 4 Format.chunkSize ++ toBE 8 plaintext.length
        ++ P.sha.hash plaintext ++ zeros (4 + table.length)) :=
    typedSet_eq (by simp [hm]) (by omega)
  have w6 : viewSet 4 (magicBytes ++ toBE 4 1 ++ toBE 4 Format.chunkSize
        ++ toBE 8 plaintext.length ++ P.sha.hash plaintext ++ zeros (4 + table.length))
        (13 + 4 + 4 + 8 + 32) (Format.count plaintext.length)
      = .ok (Format.fixedHeader P plaintext ++ zeros table.length) :=
    viewSet_eq (by simp [hm, hsha]) rfl
  have w7 : typedSet (Format.fixedHeader P plaintext ++ zeros table.length) table
        (13 + 4 + 4 + 8 + 32 + 4) = .ok (Format.fixedHeader P plaintext ++ table) := by
    have := @typedSet_eq (Format.fixedHeader P plaintext) table (13 + 4 + 4 + 8 + 32 + 4)
      table.length 0 (by simp [Format.fixedLen]) (by omega)
    rwa [show zeros 0 = [] from rfl, List.append_nil] at this
  unfold buildHeader
  simp only [hfixed, hm, w1, w2, w3, w4, w5, show sha256Length = 32 by decide, nonceLength_eq, hcount,
    w6, w7, ok_bind]
  rw [Format.header, ht]

theorem chunkAadWithSeparator_eq (i : Nat) (separator : UInt8) :
    chunkAadWithSeparator fileObjectId i separator
      = .ok (Format.aadWith fileObjectId i separator) := by
  have ht : (ascii "yuance-file-enc:v1:").length = 19 := by decide
  obtain ⟨text, htext⟩ : ∃ t, ascii "yuance-file-enc:v1:" = t := ⟨_, rfl⟩
  rw [htext] at ht
  have w1 : typedSet (zeros (19 + 8 + 1 + 4)) text 0 = .ok (text ++ zeros 13) := by
    have := @typedSet_eq [] text 0 (19 + 8 + 1 + 4) 13 rfl (by omega)
    rwa [List.nil_append, List.nil_append] at this
  have w2 : viewSet 8 (text ++ zeros 13) 19 (asU64 fileObjectId)
      = .ok (text ++ toBE 8 (asU64 fileObjectId) ++ zeros 5) := viewSet_eq ht.symm (by omega)
  have w3 : typedSet (text ++ toBE 8 (asU64 fileObjectId) ++ zeros 5) [separator] (19 + 8)
      = .ok (text ++ toBE 8 (asU64 fileObjectId) ++ [separator] ++ zeros 4) :=
    typedSet_eq (by simp [ht]) rfl
  have w4 : viewSet 4 (text ++ toBE 8 (asU64 fileObjectId) ++ [separator] ++ zeros 4) (19 + 9) i
      = .ok (text ++ toBE 8 (asU64 fileObjectId) ++ [separator] ++ toBE 4 i ++ zeros 0) :=
    viewSet_eq (by simp [ht]) rfl
  unfold chunkAadWithSeparator
  simp only [htext, ht, w1, w2, w3, w4, ok_bind]
  rw [Format.aadWith, htext, show zeros 0 = [] from rfl, List.append_nil]

theorem chunkAad_eq (i : Nat) : chunkAad fileObjectId i = .ok (Format.aad fileObjectId i) :=
  chunkAadWithSeparator_eq i 0x3a

/-- The buffer behind `i` chunks: header, sealed chunks, and zeros for the rest. -/
def filled (P : Prims) (key : Key) (fileObjectId : Int) (nonce : Nat → Nonce) (plaintext : Bytes)
    (i : Nat) : Bytes × Nat :=
  (Format.header P nonce plaintext
    ++ (List.range i).flatMap (Format.sealed P key fileObjectId nonce plaintext)
    ++ zeros ((Format.body P key fileObjectId nonce plaintext).length
        - Format.bodyOffset plaintext i), Format.bodyOffset plaintext i)

theorem encryptStep_filled {i : Nat} (hi : i < Format.count plaintext.length) :
    encryptStep P key fileObjectId plaintext (Format.nonceTable nonce plaintext)
      (Format.header P nonce plaintext).length
      (filled P key fileObjectId nonce plaintext i) i
      = .ok (filled P key fileObjectId nonce plaintext (i + 1)) := by
  have hsealed : P.aead.encrypt key (nonce i) (Format.aad fileObjectId i)
      (subarray plaintext (i * fileChunkSize) (i * fileChunkSize + fileChunkSize))
      = Format.sealed P key fileObjectId nonce plaintext i := rfl
  have hlen : (Format.sealed P key fileObjectId nonce plaintext i).length
      = min (plaintext.length - i * Format.chunkSize) Format.chunkSize + 16 := by
    rw [Format.sealed_length, Nat.min_comm]
  have hsucc := Format.bodyOffset_succ hi
  -- the sealed chunk fits: the body goes on at least to the offset behind it
  have hbody : Format.bodyOffset plaintext (i + 1)
      ≤ (Format.body P key fileObjectId nonce plaintext).length := by
    obtain ⟨pre, post, hb, hl⟩ := @Format.body_split P key fileObjectId nonce plaintext i hi
    rw [hb, List.length_append, List.length_append, hl, hlen, hsucc]
    omega
  have hset := @typedSet_eq (Format.header P nonce plaintext
      ++ (List.range i).flatMap (Format.sealed P key fileObjectId nonce plaintext))
    (Format.sealed P key fileObjectId nonce plaintext i)
    ((Format.header P nonce plaintext).length + Format.bodyOffset plaintext i)
    ((Format.body P key fileObjectId nonce plaintext).length - Format.bodyOffset plaintext i)
    ((Format.body P key fileObjectId nonce plaintext).length - Format.bodyOffset plaintext (i + 1))
    (by rw [List.length_append, Format.sealedPrefix_length]) (by omega)
  have hjoin : (List.range (i + 1)).flatMap (Format.sealed P key fileObjectId nonce plaintext)
      = (List.range i).flatMap (Format.sealed P key fileObjectId nonce plaintext)
        ++ Format.sealed P key fileObjectId nonce plaintext i := by
    rw [List.range_succ, List.flatMap_append, List.flatMap_singleton]
  have hoff : Format.bodyOffset plaintext i
      + (Format.sealed P key fileObjectId nonce plaintext i).length
      = Format.bodyOffset plaintext (i + 1) := by
    omega
  unfold encryptStep filled encryptChunk
  simp only [nonceLength_eq, Format.subarray_nonceTable hi, chunkAad_eq, asNonce_val, okOr_some,
    ok_bind, pure_ok, hsealed, hset, hoff]
  rw [hjoin, List.append_assoc (Format.header P nonce plaintext)]

theorem encryptedBodyLength_eq :
    encryptedBodyLength plaintext.length (Format.count plaintext.length)
      = (Format.body P key fileObjectId nonce plaintext).length := by
  rw [Format.body_length, encryptedBodyLength]
  split
  · rename_i h0
    have hle : plaintext.length ≤ Format.count plaintext.length * Format.chunkSize :=
      le_ceilDiv_mul (by decide)
    rw [h0, Nat.zero_mul] at hle
    omega
  · rename_i h0
    have hlt : (Format.count plaintext.length - 1) * Format.chunkSize < plaintext.length :=
      mul_lt_of_lt_ceilDiv (show Format.count plaintext.length - 1 < Format.count plaintext.length
        by omega)
    have hz : fileChunkSize = Format.chunkSize := rfl
    rw [hz, tagLength, Nat.mul_add]
    simp only
    omega

/-- The encoder produces the encrypted file exactly when the nonces fit the quota. -/
theorem encryptFile_eq :
    encryptFile P key.val fileObjectId plaintext nonce
      = if Format.count plaintext.length * 12 > 65536 then .error .quotaExceeded
        else .ok (Format.encoded P key fileObjectId nonce plaintext) := by
  have hq : randomQuota = 65536 := by decide
  unfold encryptFile getRandomValues
  simp only [count_eq, nonceLength_eq, hq]
  split
  · rename_i hgt
    rw [rejectIf_pos hgt, error_bind, error_bind]
  · rename_i hle
    have h0 : Format.bodyOffset plaintext 0 = 0 := by simp [Format.bodyOffset]
    have hloop := @foldlM_range_ok _ _
      (encryptStep P key fileObjectId plaintext (Format.nonceTable nonce plaintext)
        (Format.header P nonce plaintext).length)
      (filled P key fileObjectId nonce plaintext) (Format.count plaintext.length)
      (fun i hi => encryptStep_filled hi)
    have hfirst : typedSet (zeros ((Format.header P nonce plaintext).length
        + (Format.body P key fileObjectId nonce plaintext).length))
        (Format.header P nonce plaintext) 0
        = .ok (Format.header P nonce plaintext
          ++ zeros (Format.body P key fileObjectId nonce plaintext).length) := by
      have := @typedSet_eq [] (Format.header P nonce plaintext) 0 _
        (Format.body P key fileObjectId nonce plaintext).length rfl rfl
      rwa [List.nil_append, List.nil_append] at this
    have hlast : (filled P key fileObjectId nonce plaintext (Format.count plaintext.length)).1
        = Format.encoded P key fileObjectId nonce plaintext := by
      rw [filled, Format.body_length, Format.bodyOffset_count, Nat.sub_self, Format.encoded,
        Format.body, show zeros 0 = [] from rfl, List.append_nil]
    have hstart : filled P key fileObjectId nonce plaintext 0
        = (Format.header P nonce plaintext
          ++ zeros (Format.body P key fileObjectId nonce plaintext).length, 0) := by
      rw [filled, h0, Nat.sub_zero, List.range_zero, List.flatMap_nil, List.append_nil]
    rw [hstart] at hloop
    rw [rejectIf_neg hle, ok_bind, pure_ok, ok_bind, ← Format.nonceTable, buildHeader_eq, ok_bind,
      @encryptedBodyLength_eq P key fileObjectId nonce plaintext, hfirst, ok_bind,
      importAesGcmKey_val, ok_bind, hloop, ok_bind, pure_ok, hlast]

end Encode

/-! ## The decoder -/

section Decode

variable {P : Prims} {key : Key} {fileObjectId : Int} {nonce : Nat → Nonce} {plaintext : Bytes}

theorem viewGet_of_slice? {bytes : Bytes} {w n offset : Nat}
    (h : slice? bytes offset (offset + w) = some (toBE w n)) (hn : n < 256 ^ w) :
    viewGet w bytes offset = .ok n := by
  rw [viewGet, h, okOr_some, ok_bind, ofBE_toBE_of_lt hn, pure_ok]

/-- What `parseEncryptionHeader` reads from an encoded file. -/
def headerOf (P : Prims) (nonce : Nat → Nonce) (plaintext : Bytes) : EncryptionHeader :=
  { chunkSize := Format.chunkSize
    plaintextByteSize := plaintext.length
    plaintextSha256 := hexEncode (P.sha.hash plaintext)
    chunkCount := Format.count plaintext.length
    nonces := Format.nonceTable nonce plaintext
    headerLength := Format.fixedLen + Format.count plaintext.length * 12 }

theorem parseEncryptionHeader_encoded (h : Format.count plaintext.length < 2 ^ 32) :
    parseEncryptionHeader (Format.encoded P key fileObjectId nonce plaintext)
      = .ok (headerOf P nonce plaintext) := by
  have f := @Format.encoded_fields P key fileObjectId nonce plaintext
  obtain ⟨c, hc⟩ : ∃ c, Format.encoded P key fileObjectId nonce plaintext = c := ⟨_, rfl⟩
  rw [hc] at f ⊢
  have hsize := Format.size_lt h
  have hm : magicBytes.length = 13 := by decide
  have hs : sha256Length = 32 := by decide
  have hlen := f.length
  have h65 : 13 + 4 + 4 + 8 + 32 + 4 = Format.fixedLen := by decide
  have hfixed : headerFixedLength = Format.fixedLen := by decide
  have r1 : viewGet 4 c 13 = .ok 1 := viewGet_of_slice? f.version (by decide)
  have r2 : viewGet 4 c (13 + 4) = .ok Format.chunkSize :=
    viewGet_of_slice? f.chunkSize (by decide)
  have r3 : viewGet 8 c (13 + 4 + 4) = .ok plaintext.length :=
    viewGet_of_slice? f.plaintextSize (by omega)
  have r4 : subarray c (13 + 4 + 4 + 8) (13 + 4 + 4 + 8 + 32) = P.sha.hash plaintext :=
    subarray_of_slice? f.sha
  have r5 : viewGet 4 c (13 + 4 + 4 + 8 + 32) = .ok (Format.count plaintext.length) :=
    viewGet_of_slice? f.count (by omega)
  have r6 : subarray c Format.fixedLen (Format.fixedLen + Format.count plaintext.length * 12)
      = Format.nonceTable nonce plaintext := subarray_of_slice? f.nonces
  have g1 : ¬ c.length < headerFixedLength := by omega
  have g2 : ¬ subarray c 0 13 ≠ magicBytes := not_not_intro f.magic
  have g3 : ¬ 1 ≠ formatVersion := by decide
  have g4 : ¬ Format.chunkSize = 0 := by decide
  have g5 : ¬ c.length < Format.fixedLen + Format.count plaintext.length * 12 := by omega
  unfold parseEncryptionHeader
  simp only [rejectIf_neg g1, hm, rejectIf_neg g2, r1, rejectIf_neg g3, r2, rejectIf_neg g4, r3,
    toNumber_of_lt (show plaintext.length < 2 ^ 53 by omega), hs, r4, r5, h65, nonceLength_eq,
    rejectIf_neg g5, r6, ok_bind, pure_ok, headerOf]

/-- The loop body opens sealed chunk `i` and moves to the next one. -/
theorem decryptStep_encoded (h : Format.count plaintext.length < 2 ^ 32) {i : Nat}
    (hi : i < Format.count plaintext.length) :
    decryptStep P key fileObjectId (Format.encoded P key fileObjectId nonce plaintext)
      (headerOf P nonce plaintext) i
      (Format.fixedLen + Format.count plaintext.length * 12 + Format.bodyOffset plaintext i)
      = .ok (chunk Format.chunkSize plaintext i,
          Format.fixedLen + Format.count plaintext.length * 12
            + Format.bodyOffset plaintext (i + 1)) := by
  have hlt := (Format.chunk_len_eq hi).2
  have hsize := Format.size_lt h
  have hchunk : chunkPlaintextLengthAt Format.chunkSize plaintext.length i
      = min (plaintext.length - i * Format.chunkSize) Format.chunkSize := by
    unfold chunkPlaintextLengthAt
    rw [toNumber_of_lt (by omega), if_neg (by omega)]
  have hsealed := subarray_of_slice?
    (@Format.sealed_at P key fileObjectId nonce plaintext i hi)
  rw [← Nat.add_assoc] at hsealed
  have hlen : (Format.sealed P key fileObjectId nonce plaintext i).length
      = min (plaintext.length - i * Format.chunkSize) Format.chunkSize + 16 := by
    rw [Format.sealed_length, Nat.min_comm]
  have hopen : P.aead.decrypt key (nonce i) (Format.aad fileObjectId i)
      (Format.sealed P key fileObjectId nonce plaintext i)
      = some (chunk Format.chunkSize plaintext i) := P.aead.decrypt_encrypt _ _ _ _
  have hbody : decryptAttempts P key fileObjectId i (nonce i).val
      (Format.sealed P key fileObjectId nonce plaintext i)
      = .ok (chunk Format.chunkSize plaintext i) := by
    rw [decryptAttempts, chunkAad_eq, ok_bind]
    simp only [decryptChunk, asNonce_val, hopen, okOr_some, ok_bind]
  have hnext : Format.fixedLen + Format.count plaintext.length * 12
      + Format.bodyOffset plaintext i
      + (min (plaintext.length - i * Format.chunkSize) Format.chunkSize + 16)
      = Format.fixedLen + Format.count plaintext.length * 12
        + Format.bodyOffset plaintext (i + 1) := by
    rw [Format.bodyOffset_succ hi]
    omega
  unfold decryptStep headerOf
  simp only [hchunk, show tagLength = 16 by decide, hsealed, nonceLength_eq,
    Format.subarray_nonceTable hi, hbody, ok_bind, pure_ok, hlen]
  rw [hnext]

theorem decryptLoop_encoded (h : Format.count plaintext.length < 2 ^ 32) :
    ∃ last, forChunks (decryptStep P key fileObjectId
        (Format.encoded P key fileObjectId nonce plaintext) (headerOf P nonce plaintext))
        (Format.count plaintext.length)
        (Format.fixedLen + Format.count plaintext.length * 12) = .ok (plaintext, last) := by
  have hloop := @forChunks_ok _ _ (chunk Format.chunkSize plaintext)
    (fun i => Format.fixedLen + Format.count plaintext.length * 12
      + Format.bodyOffset plaintext i) _
    (fun i hi => @decryptStep_encoded P key fileObjectId nonce plaintext h i hi)
  have h0 : Format.bodyOffset plaintext 0 = 0 := by simp [Format.bodyOffset]
  simp only [h0, Nat.add_zero, Format.flatMap_chunk] at hloop
  exact ⟨_, hloop⟩

theorem decryptFile_encoded (h : Format.count plaintext.length < 2 ^ 32) :
    decryptFile P key.val fileObjectId (Format.encoded P key fileObjectId nonce plaintext)
      = .ok plaintext := by
  obtain ⟨last, hloop⟩ := @decryptLoop_encoded P key fileObjectId nonce plaintext h
  have hsha : ¬ hexEncode (P.sha.hash plaintext) ≠ (headerOf P nonce plaintext).plaintextSha256 :=
    not_not_intro rfl
  unfold decryptFile
  rw [parseEncryptionHeader_encoded h, ok_bind, importAesGcmKey_val, ok_bind]
  simp only [show (headerOf P nonce plaintext).chunkCount = Format.count plaintext.length from rfl,
    show (headerOf P nonce plaintext).headerLength
      = Format.fixedLen + Format.count plaintext.length * 12 from rfl, hloop, ok_bind,
    rejectIf_neg hsha, pure_ok]

end Decode

end Browser
end FileCrypto
end Yuance
