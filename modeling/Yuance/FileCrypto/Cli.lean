import Yuance.FileCrypto.Format

/-!
# Yuance.FileCrypto.Cli

`hash_file`, `EncryptedFileStream` and `decrypt_file` of `tools/yuance-agent-cli/src/file_crypto.rs`.
The stream is a state machine that each `poll_next` moves on; the file system is what a poll finds
there (`Disk`). A running SHA-256 is the bytes it has seen. `usize` is 64 bits wide, arithmetic on
`u64` wraps.

* `drain_eq`: over an unchanged file the polled pieces are `Format.encoded`.
* `decryptFile_encoded`: the decoder returns the plaintext of `Format.encoded`.
-/

namespace Yuance
namespace FileCrypto
namespace Cli

open Lib

inductive ErrorKind where
  | invalidData | invalidInput | unexpectedEof | wouldBlock | other
  -- an index out of bounds or a failed `expect`
  | panic
  deriving DecidableEq, Repr

structure IoError where
  kind : ErrorKind
  message : String
  deriving DecidableEq, Repr

def fileChunkSize : Nat := 1024 * 1024
def magic : Bytes := ascii "YUANCE-ENC-v1"
def formatVersion : Nat := 1
def nonceLength : Nat := 12
def headerFixedLength : Nat := 13 + 4 + 4 + 8 + 32 + 4

def asU32 (n : Nat) : Nat := n % 2 ^ 32

def panicked : IoError := { kind := .panic, message := "" }
def invalidEncryptedFile : IoError := { kind := .invalidData, message := "加密附件校验失败" }
def changedDuringUpload : IoError := { kind := .invalidData, message := "文件在上传期间发生变化" }

def encryptedTotalSize (plaintext : Nat) : Nat :=
  let chunks := if plaintext = 0 then 0 else ceilDiv plaintext fileChunkSize
  (headerFixedLength + chunks * nonceLength + plaintext + chunks * 16) % 2 ^ 64

structure FileDigest where
  byteSize : Nat
  sha256 : String

/-- The read loop of `hash_file`; read `k` returns up to `sizes k + 1` bytes. -/
def hashLoop (sizes : Nat → Nat) (k : Nat) (rest seen : Bytes) : Bytes :=
  match rest with
  | [] => seen
  | b :: rest' =>
    let read := min (sizes k) (fileChunkSize - 1)
    hashLoop sizes (k + 1) (rest'.drop read) (seen ++ b :: rest'.take read)
  termination_by rest.length
  decreasing_by
    simp only [List.length_cons, List.length_drop]
    omega

def hashFile (P : Prims) (sizes : Nat → Nat) (content : Bytes) : FileDigest :=
  let seen := hashLoop sizes 0 content []
  { byteSize := seen.length, sha256 := hexEncode (P.sha.hash seen) }

/-! ## The decoder's definitions -/

def readUInt (width : Nat) (bytes : Bytes) (offset : Nat) : Except IoError Nat := do
  let value ← okOr (slice? bytes offset (offset + width)) invalidEncryptedFile
  pure (ofBE value)

def readU32 (bytes : Bytes) (offset : Nat) : Except IoError Nat := readUInt 4 bytes offset
def readU64 (bytes : Bytes) (offset : Nat) : Except IoError Nat := readUInt 8 bytes offset

def decodeSha256 (value : String) : Except IoError Bytes := do
  let bytes ← okOr (hexDecode value) invalidEncryptedFile
  rejectIf (bytes.length ≠ 32) invalidEncryptedFile
  pure bytes

/-- An empty text stands for a digest that is not known. -/
def expectedSha (plaintextSha256 : String) : Except IoError (Option Bytes) :=
  if plaintextSha256 = "" then .ok none else some <$> decodeSha256 plaintextSha256

def chunkCount (byteSize : Nat) : Nat :=
  if byteSize = 0 then 0 else ceilDiv byteSize fileChunkSize

def plaintextChunkLen (byteSize index : Nat) : Nat :=
  min (byteSize - index * fileChunkSize) fileChunkSize

def chunkAad (fileObjectId : Int) (chunkIndex : Nat) : Bytes :=
  ascii "yuance-file-enc:v1:" ++ toBE 8 (asU64 fileObjectId) ++ [58] ++ toBE 4 chunkIndex

def legacyChunkAad (fileObjectId : Int) (chunkIndex : Nat) : Bytes :=
  ascii "yuance-file-enc:v1:" ++ toBE 8 (asU64 fileObjectId) ++ [0] ++ toBE 4 chunkIndex

/-- The body of the chunk loop of `decrypt_file`. -/
def decryptStep (P : Prims) (ciphertext : Bytes) (fileObjectId : Int) (key : Key)
    (plaintextByteSize nonceStart index cursor : Nat) : Except IoError (Bytes × Nat) := do
  let plaintextLength := plaintextChunkLen plaintextByteSize index
  let encryptedLength := plaintextLength + 16
  let chunk ← okOr (slice? ciphertext cursor (cursor + encryptedLength)) invalidEncryptedFile
  let nonceStart := nonceStart + index * nonceLength
  let nonceBytes ← okOr (slice? ciphertext nonceStart (nonceStart + nonceLength)) panicked
  let nonce ← okOr (asNonce nonceBytes) invalidEncryptedFile
  let decrypted ← okOr
    ((P.aead.decrypt key nonce (chunkAad fileObjectId (asU32 index)) chunk).orElse fun _ =>
      P.aead.decrypt key nonce (legacyChunkAad fileObjectId (asU32 index)) chunk)
    invalidEncryptedFile
  rejectIf (decrypted.length ≠ plaintextLength) invalidEncryptedFile
  pure (decrypted, cursor + encryptedLength)

def decryptFile (P : Prims) (ciphertext : Bytes) (fileObjectId : Int) (key : Key)
    (plaintextByteSize : Nat) (plaintextSha256 : String) : Except IoError Bytes := do
  rejectIf (fileObjectId < 1 ∨ plaintextByteSize > 2 ^ 64 - 1) invalidEncryptedFile
  let expected ← expectedSha plaintextSha256
  rejectIf (ciphertext.length ≠ encryptedTotalSize plaintextByteSize
    ∨ ciphertext.length < headerFixedLength ∨ ciphertext.take magic.length ≠ magic)
    invalidEncryptedFile
  let version ← readU32 ciphertext magic.length
  let chunkSize ← readU32 ciphertext (magic.length + 4)
  let headerPlaintextSize ← readU64 ciphertext (magic.length + 8)
  let shaStart := magic.length + 4 + 4 + 8
  let headerSha ← okOr (slice? ciphertext shaStart (shaStart + 32)) panicked
  let countOffset := shaStart + 32
  let headerChunkCount ← readU32 ciphertext countOffset
  let nonceStart := countOffset + 4
  let headerSize := nonceStart + headerChunkCount * nonceLength
  rejectIf (version ≠ formatVersion ∨ chunkSize ≠ fileChunkSize
    ∨ headerPlaintextSize ≠ plaintextByteSize
    ∨ headerChunkCount ≠ chunkCount plaintextByteSize
    ∨ headerSize > ciphertext.length
    ∨ (∃ e ∈ expected, headerSha ≠ e)) invalidEncryptedFile
  let (plaintext, cursor) ← forChunks
    (decryptStep P ciphertext fileObjectId key plaintextByteSize nonceStart)
    headerChunkCount headerSize
  let actualSha := P.sha.hash plaintext
  rejectIf (cursor ≠ ciphertext.length ∨ plaintext.length ≠ plaintextByteSize
    ∨ actualSha ≠ headerSha ∨ (∃ e ∈ expected, actualSha ≠ e)) invalidEncryptedFile
  pure plaintext

/-! ## The stream -/

structure Metadata where
  isFile : Bool
  len : Nat
  modified : Option Nat

/-- What a poll finds: the metadata behind the path and the bytes behind the open handle. -/
structure Disk where
  metadata : Except IoError Metadata
  content : Except IoError Bytes

structure FileSignature where
  byteSize : Nat
  modified : Option Nat
  deriving DecidableEq

def FileSignature.read (disk : Disk) : Except IoError FileSignature := do
  let metadata ← disk.metadata
  rejectIf (metadata.isFile = false)
    { kind := .invalidInput, message := "上传路径必须是普通文件" }
  pure { byteSize := metadata.len, modified := metadata.modified }

/-- `file.read_exact` of `n` bytes at `position`. -/
def readExact (disk : Disk) (position n : Nat) : Except IoError Bytes := do
  let content ← disk.content
  okOr (slice? content position (position + n))
    { kind := .unexpectedEof, message := "failed to fill whole buffer" }

structure DigestState where
  hasher : Bytes
  finished : Bool

structure EncryptedFileStream where
  position : Nat
  fileObjectId : Int
  key : Key
  plaintext : FileDigest
  expectedSignature : FileSignature
  header : Option Bytes
  nonces : List Nonce
  chunkIndex : Nat
  digest : DigestState
  plaintextHasher : Bytes
  finished : Bool

def createHeader (plaintext : FileDigest) (nonces : List Nonce) : Except IoError Bytes := do
  let sha ← okOr (hexDecode plaintext.sha256) panicked
  pure (magic ++ toBE 4 formatVersion ++ toBE 4 (asU32 fileChunkSize) ++ toBE 8 plaintext.byteSize
    ++ sha ++ toBE 4 (asU32 nonces.length) ++ nonces.flatMap (fun nonce => nonce.val))

def EncryptedFileStream.open (disk : Disk) (fileObjectId : Int) (key : Key)
    (plaintext : FileDigest) (fill : Nat → Nonce) : Except IoError EncryptedFileStream := do
  rejectIf (fileObjectId < 1) { kind := .invalidInput, message := "文件对象 ID 无效" }
  let signature ← FileSignature.read disk
  rejectIf (signature.byteSize ≠ plaintext.byteSize)
    { kind := .invalidInput, message := "文件大小在上传前已变化" }
  let nonces := (List.range (chunkCount plaintext.byteSize)).map fill
  let header ← createHeader plaintext nonces
  pure { position := 0, fileObjectId, key, plaintext, expectedSignature := signature,
         header := some header, nonces, chunkIndex := 0,
         digest := { hasher := [], finished := false }, plaintextHasher := [], finished := false }

def updateDigest (digest : DigestState) (bytes : Bytes) : DigestState :=
  { digest with hasher := digest.hasher ++ bytes }

/-- The check behind the last chunk: the file is the one that was hashed. -/
def verifySource (P : Prims) (disk : Disk) (s : EncryptedFileStream) : Except IoError Unit := do
  let signature ← FileSignature.read disk
  rejectIf (signature ≠ s.expectedSignature) changedDuringUpload
  rejectIf (hexEncode (P.sha.hash s.plaintextHasher) ≠ s.plaintext.sha256) changedDuringUpload

def EncryptedFileStream.fail (s : EncryptedFileStream) (error : IoError) :
    Option (Except IoError Bytes) × EncryptedFileStream :=
  (some (.error error), { s with finished := true })

def EncryptedFileStream.finish (s : EncryptedFileStream) : EncryptedFileStream :=
  { s with finished := true, digest := { s.digest with finished := true } }

/-- The chunk at `chunkIndex` is read and sealed. -/
def nextChunk (P : Prims) (disk : Disk) (s : EncryptedFileStream) :
    Except IoError (Bytes × EncryptedFileStream) := do
  let expected := plaintextChunkLen s.plaintext.byteSize s.chunkIndex
  let plaintext ← readExact disk s.position expected
  let aad := chunkAad s.fileObjectId (asU32 s.chunkIndex)
  let nonce ← okOr s.nonces[s.chunkIndex]? panicked
  let encrypted := P.aead.encrypt s.key nonce aad plaintext
  pure (encrypted, { s with
    position := s.position + expected
    plaintextHasher := s.plaintextHasher ++ plaintext
    chunkIndex := s.chunkIndex + 1
    digest := updateDigest s.digest encrypted })

def pollNext (P : Prims) (disk : Disk) (s : EncryptedFileStream) :
    Option (Except IoError Bytes) × EncryptedFileStream :=
  if s.finished then (none, s)
  else match s.header with
  | some header =>
    (some (.ok header), { s with header := none, digest := updateDigest s.digest header })
  | none =>
    let totalChunks := chunkCount s.plaintext.byteSize
    if s.chunkIndex ≥ totalChunks then
      match verifySource P disk s with
      | .ok () => (none, s.finish)
      | .error error => s.fail error
    else
      match nextChunk P disk s with
      | .error error => s.fail error
      | .ok (encrypted, s') =>
        if s'.chunkIndex = totalChunks then
          match verifySource P disk s' with
          | .ok () => (some (.ok encrypted), s'.finish)
          | .error error => s'.fail error
        else (some (.ok encrypted), s')

/-- Polls until the stream ends; `none` when `fuel` polls were not enough. -/
def drain (P : Prims) (disk : Disk) : Nat → EncryptedFileStream →
    Option (Except IoError (Bytes × EncryptedFileStream))
  | 0, _ => none
  | fuel + 1, s =>
    match pollNext P disk s with
    | (none, s') => some (.ok ([], s'))
    | (some (.error error), _) => some (.error error)
    | (some (.ok piece), s') =>
      match drain P disk fuel s' with
      | some (.ok (rest, last)) => some (.ok (piece ++ rest, last))
      | other => other

/-- All pieces of a freshly opened stream put together. -/
def streamedFile (P : Prims) (disk : Disk) (fileObjectId : Int) (key : Key)
    (plaintext : FileDigest) (fill : Nat → Nonce) (fuel : Nat) : Option (Except IoError Bytes) :=
  match EncryptedFileStream.open disk fileObjectId key plaintext fill with
  | .error error => some (.error error)
  | .ok s => (drain P disk fuel s).map (Except.map Prod.fst)

/-- `EncryptionDigest::encrypted_sha256`. -/
def encryptedSha256 (P : Prims) (digest : DigestState) : Except IoError String := do
  rejectIf (digest.finished = false) { kind := .wouldBlock, message := "加密流尚未完成" }
  pure (hexEncode (P.sha.hash digest.hasher))

/-! ## The decoder on an encoded file -/

section Decode

variable {P : Prims} {key : Key} {fileObjectId : Int} {nonce : Nat → Nonce} {plaintext : Bytes}

theorem fileChunkSize_eq : fileChunkSize = Format.chunkSize := rfl

theorem nonceLength_eq : nonceLength = 12 := by decide

theorem chunkCount_eq (n : Nat) : chunkCount n = Format.count n := by
  unfold chunkCount
  split
  · rename_i h0
    subst h0
    rw [Format.count, ceilDiv_zero_left]
  · rw [fileChunkSize_eq, Format.count]

theorem plaintextChunkLen_eq (n i : Nat) :
    plaintextChunkLen n i = min (n - i * Format.chunkSize) Format.chunkSize := by
  rw [plaintextChunkLen, fileChunkSize_eq]

theorem encryptedTotalSize_of_count {n : Nat} (h : Format.count n < 2 ^ 32) :
    encryptedTotalSize n
      = Format.fixedLen + Format.count n * 12 + (n + Format.count n * 16) := by
  have hsize := Format.size_lt h
  have hcount : (if n = 0 then 0 else ceilDiv n fileChunkSize) = Format.count n := chunkCount_eq n
  have hfixed : headerFixedLength = Format.fixedLen := by decide
  have hlen : Format.fixedLen = 65 := rfl
  rw [encryptedTotalSize, hcount, hfixed, nonceLength, Nat.mod_eq_of_lt]
  · omega
  · omega

theorem encryptedTotalSize_eq (h : Format.count plaintext.length < 2 ^ 32) :
    encryptedTotalSize plaintext.length
      = (Format.encoded P key fileObjectId nonce plaintext).length := by
  rw [encryptedTotalSize_of_count h, Format.encoded_length]

theorem readUInt_of_slice? {bytes : Bytes} {w n offset : Nat}
    (h : slice? bytes offset (offset + w) = some (toBE w n)) (hn : n < 256 ^ w) :
    readUInt w bytes offset = .ok n := by
  rw [readUInt, h, okOr_some, ok_bind, ofBE_toBE_of_lt hn, pure_ok]

theorem expectedSha_hexEncode (sha : Bytes) (hl : sha.length = 32) :
    expectedSha (hexEncode sha) = .ok (some sha) := by
  have hne : hexEncode sha ≠ "" := by
    intro h
    have hd := hexDecode_hexEncode sha
    have h0 : hexDecode "" = some [] := by simp [hexDecode, hexDecodeChars]
    rw [h, h0] at hd
    obtain rfl := Option.some.inj hd
    simp at hl
  have hdecode : decodeSha256 (hexEncode sha) = .ok sha := by
    rw [decodeSha256, hexDecode_hexEncode, okOr_some, ok_bind, rejectIf_neg (by simp [hl]), ok_bind,
      pure_ok]
  rw [expectedSha, if_neg hne, hdecode]
  rfl

/-- The loop body opens sealed chunk `i` and moves to the next one. -/
theorem decryptStep_encoded {i : Nat} (hi : i < Format.count plaintext.length)
    (h : Format.count plaintext.length < 2 ^ 32) :
    decryptStep P (Format.encoded P key fileObjectId nonce plaintext) fileObjectId key
      plaintext.length Format.fixedLen i
      (Format.fixedLen + Format.count plaintext.length * 12 + Format.bodyOffset plaintext i)
      = .ok (chunk Format.chunkSize plaintext i,
          Format.fixedLen + Format.count plaintext.length * 12
            + Format.bodyOffset plaintext (i + 1)) := by
  have hi32 : asU32 i = i := Nat.mod_eq_of_lt (by omega)
  have hopen : P.aead.decrypt key (nonce i) (chunkAad fileObjectId i)
      (Format.sealed P key fileObjectId nonce plaintext i)
      = some (chunk Format.chunkSize plaintext i) := P.aead.decrypt_encrypt _ _ _ _
  have hlen : ¬ (chunk Format.chunkSize plaintext i).length
      ≠ min (plaintext.length - i * Format.chunkSize) Format.chunkSize := by
    rw [chunk_length, Nat.min_comm]
    exact not_not_intro rfl
  have hnext : Format.fixedLen + Format.count plaintext.length * 12
      + Format.bodyOffset plaintext i
      + (min (plaintext.length - i * Format.chunkSize) Format.chunkSize + 16)
      = Format.fixedLen + Format.count plaintext.length * 12
        + Format.bodyOffset plaintext (i + 1) := by
    rw [Format.bodyOffset_succ hi]
    omega
  unfold decryptStep
  simp only [plaintextChunkLen_eq, Format.sealed_at hi, nonceLength_eq, Format.nonce_at hi, asNonce_val,
    hi32, hopen, Option.orElse_some, rejectIf_neg hlen, okOr_some, ok_bind, pure_ok]
  rw [hnext]

theorem decryptLoop_encoded (h : Format.count plaintext.length < 2 ^ 32) :
    forChunks (decryptStep P (Format.encoded P key fileObjectId nonce plaintext) fileObjectId key
        plaintext.length Format.fixedLen) (Format.count plaintext.length)
        (Format.fixedLen + Format.count plaintext.length * 12)
      = .ok (plaintext, (Format.encoded P key fileObjectId nonce plaintext).length) := by
  have hloop := @forChunks_ok _ _ (chunk Format.chunkSize plaintext)
    (fun i => Format.fixedLen + Format.count plaintext.length * 12
      + Format.bodyOffset plaintext i) _
    (fun i hi => @decryptStep_encoded P key fileObjectId nonce plaintext i hi h)
  have h0 : Format.bodyOffset plaintext 0 = 0 := by simp [Format.bodyOffset]
  simp only [h0, Nat.add_zero, Format.flatMap_chunk, Format.bodyOffset_count] at hloop
  rw [hloop, Format.encoded_length]

/-- With a header that passes the checks, the result is what the chunk loop returns. -/
theorem decryptFile_of_header {c sha out : Bytes} {shaText : String} {n : Nat}
    {expected : Option Bytes} (hid : 1 ≤ fileObjectId) (hn : n < 2 ^ 64)
    (hexpected : expectedSha shaText = .ok expected) (hsame : ∀ e ∈ expected, e = sha)
    (hsize : c.length = encryptedTotalSize n) (hfixed : headerFixedLength ≤ c.length)
    (hmagic : c.take magic.length = magic)
    (r1 : readU32 c magic.length = .ok formatVersion)
    (r2 : readU32 c (magic.length + 4) = .ok fileChunkSize)
    (r3 : readU64 c (magic.length + 8) = .ok n)
    (r4 : slice? c (magic.length + 4 + 4 + 8) (magic.length + 4 + 4 + 8 + 32) = some sha)
    (r5 : readU32 c (magic.length + 4 + 4 + 8 + 32) = .ok (chunkCount n))
    (hheader : magic.length + 4 + 4 + 8 + 32 + 4 + chunkCount n * nonceLength ≤ c.length)
    (hloop : forChunks
      (decryptStep P c fileObjectId key n (magic.length + 4 + 4 + 8 + 32 + 4)) (chunkCount n)
      (magic.length + 4 + 4 + 8 + 32 + 4 + chunkCount n * nonceLength) = .ok (out, c.length))
    (hout : out.length = n) (hsha : P.sha.hash out = sha) :
    decryptFile P c fileObjectId key n shaText = .ok out := by
  have g1 : ¬ (fileObjectId < 1 ∨ n > 2 ^ 64 - 1) := by omega
  have g2 : ¬ (c.length ≠ encryptedTotalSize n ∨ c.length < headerFixedLength
      ∨ c.take magic.length ≠ magic) := by
    rintro (hne | hlt | hne)
    · exact hne hsize
    · omega
    · exact hne hmagic
  have g3 : ¬ (formatVersion ≠ formatVersion ∨ fileChunkSize ≠ fileChunkSize ∨ n ≠ n
      ∨ chunkCount n ≠ chunkCount n
      ∨ magic.length + 4 + 4 + 8 + 32 + 4 + chunkCount n * nonceLength > c.length
      ∨ (∃ e ∈ expected, sha ≠ e)) := by
    simp only [ne_eq, not_true_eq_false, false_or]
    rintro (hgt | ⟨e, he, hne⟩)
    · omega
    · exact hne (hsame e he).symm
  have g4 : ¬ (c.length ≠ c.length ∨ out.length ≠ n ∨ P.sha.hash out ≠ sha
      ∨ (∃ e ∈ expected, P.sha.hash out ≠ e)) := by
    simp only [ne_eq, not_true_eq_false, hout, hsha, false_or]
    rintro ⟨e, he, hne⟩
    exact hne (hsame e he).symm
  unfold decryptFile
  simp only [rejectIf_neg g1, hexpected, rejectIf_neg g2, r1, r2, r3, r4, r5, rejectIf_neg g3, hloop,
    rejectIf_neg g4, okOr_some, ok_bind, pure_ok]

theorem decryptFile_encoded (hid : 1 ≤ fileObjectId)
    (h : Format.count plaintext.length < 2 ^ 32) :
    decryptFile P (Format.encoded P key fileObjectId nonce plaintext) fileObjectId key
      plaintext.length (hexEncode (P.sha.hash plaintext)) = .ok plaintext := by
  have f := @Format.encoded_fields P key fileObjectId nonce plaintext
  have hloop := @decryptLoop_encoded P key fileObjectId nonce plaintext h
  have hsize := Format.size_lt h
  have hlen := f.length
  have hfixed : headerFixedLength = Format.fixedLen := by decide
  have hm : magic.length = 13 := by decide
  have h65 : 13 + 4 + 4 + 8 + 32 + 4 = Format.fixedLen := by decide
  refine decryptFile_of_header hid (by omega)
    (expectedSha_hexEncode _ (P.sha.length_hash plaintext))
    (fun e he => (Option.some.inj he).symm) (encryptedTotalSize_eq h).symm
    (by omega) ?_ ?_ ?_ ?_ ?_ ?_ ?_ ?_ rfl rfl
  · rw [hm]
    exact f.magic
  · rw [hm]
    exact readUInt_of_slice? f.version (by decide)
  · rw [hm]
    exact readUInt_of_slice? f.chunkSize (by decide)
  · rw [hm]
    exact readUInt_of_slice? f.plaintextSize (by omega)
  · rw [hm]
    exact f.sha
  · rw [hm, chunkCount_eq]
    exact readUInt_of_slice? f.count (by omega)
  · rw [hm, chunkCount_eq, h65, nonceLength_eq]
    omega
  · rw [hm, chunkCount_eq, h65, nonceLength_eq]
    exact hloop

end Decode

/-! ## The stream over an unchanged file -/

section Encode

variable {P : Prims} {key : Key} {fileObjectId : Int} {nonce : Nat → Nonce} {plaintext : Bytes}
  {modified : Option Nat}

theorem hashLoop_eq (sizes : Nat → Nat) (k : Nat) (rest seen : Bytes) :
    hashLoop sizes k rest seen = seen ++ rest := by
  fun_induction hashLoop sizes k rest seen with
  | case1 => simp
  | case2 k seen b rest read ih => rw [ih, List.append_assoc, List.cons_append, List.take_append_drop]

theorem hashFile_eq (sizes : Nat → Nat) (content : Bytes) :
    hashFile P sizes content
      = { byteSize := content.length, sha256 := hexEncode (P.sha.hash content) } := by
  rw [hashFile, hashLoop_eq, List.nil_append]

/-- A regular file that holds `plaintext`. -/
def unchanged (plaintext : Bytes) (modified : Option Nat) : Disk :=
  { metadata := .ok { isFile := true, len := plaintext.length, modified }
    content := .ok plaintext }

/-- The stream behind the header and `i` chunks. -/
def streamAt (P : Prims) (key : Key) (fileObjectId : Int) (nonce : Nat → Nonce) (plaintext : Bytes)
    (modified : Option Nat) (i : Nat) : EncryptedFileStream :=
  { position := min plaintext.length (i * Format.chunkSize)
    fileObjectId, key
    plaintext := { byteSize := plaintext.length, sha256 := hexEncode (P.sha.hash plaintext) }
    expectedSignature := { byteSize := plaintext.length, modified }
    header := none
    nonces := (List.range (Format.count plaintext.length)).map nonce
    chunkIndex := i
    digest := { hasher := Format.header P nonce plaintext
                  ++ (List.range i).flatMap (Format.sealed P key fileObjectId nonce plaintext)
                finished := false }
    plaintextHasher := plaintext.take (i * Format.chunkSize)
    finished := false }

theorem signature_unchanged : FileSignature.read (unchanged plaintext modified)
    = .ok { byteSize := plaintext.length, modified } := by
  simp only [FileSignature.read, unchanged, ok_bind, Bool.true_eq_false, pure_ok,
    rejectIf_neg not_false]

theorem createHeader_eq (h : Format.count plaintext.length < 2 ^ 32) :
    createHeader { byteSize := plaintext.length, sha256 := hexEncode (P.sha.hash plaintext) }
      ((List.range (Format.count plaintext.length)).map nonce)
      = .ok (Format.header P nonce plaintext) := by
  have hc : asU32 ((List.range (Format.count plaintext.length)).map nonce).length
      = Format.count plaintext.length := by
    rw [List.length_map, List.length_range]
    exact Nat.mod_eq_of_lt h
  have hn : ((List.range (Format.count plaintext.length)).map nonce).flatMap (fun n => n.val)
      = Format.nonceTable nonce plaintext := by
    rw [List.flatMap_map, Format.nonceTable]
  have hz : asU32 fileChunkSize = Format.chunkSize := by decide
  rw [createHeader, hexDecode_hexEncode, okOr_some, ok_bind, hc, hn, hz, pure_ok, Format.header,
    Format.fixedHeader]
  rfl

theorem open_unchanged (hid : 1 ≤ fileObjectId) (h : Format.count plaintext.length < 2 ^ 32) :
    EncryptedFileStream.open (unchanged plaintext modified) fileObjectId key
      { byteSize := plaintext.length, sha256 := hexEncode (P.sha.hash plaintext) } nonce
      = .ok { streamAt P key fileObjectId nonce plaintext modified 0 with
          header := some (Format.header P nonce plaintext)
          digest := { hasher := [], finished := false } } := by
  have g1 : ¬ fileObjectId < 1 := by omega
  have g2 : ¬ plaintext.length ≠ plaintext.length := not_not_intro rfl
  unfold EncryptedFileStream.open
  simp only [rejectIf_neg g1, signature_unchanged, rejectIf_neg g2, chunkCount_eq,
    createHeader_eq h, ok_bind, pure_ok]
  simp [streamAt]

theorem pollNext_header : pollNext P (unchanged plaintext modified)
      { streamAt P key fileObjectId nonce plaintext modified 0 with
        header := some (Format.header P nonce plaintext)
        digest := { hasher := [], finished := false } }
      = (some (.ok (Format.header P nonce plaintext)),
         streamAt P key fileObjectId nonce plaintext modified 0) := by
  simp [pollNext, streamAt, updateDigest]

theorem readExact_unchanged {i : Nat} (hi : i < Format.count plaintext.length) :
    readExact (unchanged plaintext modified) (min plaintext.length (i * Format.chunkSize))
      (min (plaintext.length - i * Format.chunkSize) Format.chunkSize)
      = .ok (chunk Format.chunkSize plaintext i) := by
  have hlt := (Format.chunk_len_eq hi).2
  have hs : slice? plaintext (i * Format.chunkSize) (i * Format.chunkSize
      + min (plaintext.length - i * Format.chunkSize) Format.chunkSize)
      = some (chunk Format.chunkSize plaintext i) := by
    rw [slice?_eq_subarray (by omega) (by omega), chunk, subarray, subarray,
      Nat.add_sub_cancel_left, Nat.add_sub_cancel_left, Nat.min_comm, Option.some.injEq,
      List.take_eq_take_iff, List.length_drop]
    omega
  rw [readExact, unchanged, ok_bind, Nat.min_eq_right (by omega), hs, okOr_some]

/-- One chunk moves the stream on by one. -/
theorem nextChunk_streamAt {i : Nat} (hi : i < Format.count plaintext.length)
    (h : Format.count plaintext.length < 2 ^ 32) :
    nextChunk P (unchanged plaintext modified)
      (streamAt P key fileObjectId nonce plaintext modified i)
      = .ok (Format.sealed P key fileObjectId nonce plaintext i,
             streamAt P key fileObjectId nonce plaintext modified (i + 1)) := by
  have hi32 : asU32 i = i := Nat.mod_eq_of_lt (by omega)
  have hlt := (Format.chunk_len_eq hi).2
  have hpos : min plaintext.length (i * Format.chunkSize)
      + min (plaintext.length - i * Format.chunkSize) Format.chunkSize
      = min plaintext.length ((i + 1) * Format.chunkSize) := by
    rw [Nat.succ_mul]
    omega
  have hseen : plaintext.take (i * Format.chunkSize) ++ chunk Format.chunkSize plaintext i
      = plaintext.take ((i + 1) * Format.chunkSize) := by
    rw [← flatMap_chunk_range, ← flatMap_chunk_range, List.range_succ, List.flatMap_append,
      List.flatMap_singleton]
  have hnonce : ((List.range (Format.count plaintext.length)).map nonce)[i]? = some (nonce i) := by
    rw [List.getElem?_map, List.getElem?_range hi, Option.map_some]
  have hsealed : P.aead.encrypt key (nonce i) (chunkAad fileObjectId i)
      (chunk Format.chunkSize plaintext i)
      = Format.sealed P key fileObjectId nonce plaintext i := rfl
  have hhash : Format.header P nonce plaintext
      ++ (List.range i).flatMap (Format.sealed P key fileObjectId nonce plaintext)
      ++ Format.sealed P key fileObjectId nonce plaintext i
      = Format.header P nonce plaintext
        ++ (List.range (i + 1)).flatMap (Format.sealed P key fileObjectId nonce plaintext) := by
    rw [List.range_succ, List.flatMap_append, List.flatMap_singleton, List.append_assoc]
  unfold nextChunk streamAt
  simp only [plaintextChunkLen_eq, readExact_unchanged hi, hi32, hnonce, okOr_some, ok_bind,
    pure_ok, updateDigest, hsealed, hhash, hseen, hpos]

/-- Behind the last chunk the file is found to be the hashed one. -/
theorem verifySource_streamAt :
    verifySource P (unchanged plaintext modified)
      (streamAt P key fileObjectId nonce plaintext modified (Format.count plaintext.length))
      = .ok () := by
  have htake : plaintext.take (Format.count plaintext.length * Format.chunkSize) = plaintext :=
    List.take_of_length_le (le_ceilDiv_mul (by decide))
  rw [verifySource, signature_unchanged, ok_bind, streamAt]
  simp only [htake, ne_eq, not_true_eq_false, rejectIf_neg not_false, ok_bind]

theorem pollNext_end :
    pollNext P (unchanged plaintext modified)
      (streamAt P key fileObjectId nonce plaintext modified (Format.count plaintext.length))
      = (none, (streamAt P key fileObjectId nonce plaintext modified
          (Format.count plaintext.length)).finish) := by
  rw [pollNext, verifySource_streamAt]
  simp [streamAt, chunkCount_eq]

theorem pollNext_finish (s : EncryptedFileStream) (disk : Disk) :
    pollNext P disk s.finish = (none, s.finish) := by
  simp [pollNext, EncryptedFileStream.finish]

theorem pollNext_chunk {i : Nat} (hi : i < Format.count plaintext.length)
    (h : Format.count plaintext.length < 2 ^ 32) :
    pollNext P (unchanged plaintext modified)
      (streamAt P key fileObjectId nonce plaintext modified i)
      = (some (.ok (Format.sealed P key fileObjectId nonce plaintext i)),
         if i + 1 = Format.count plaintext.length then
           (streamAt P key fileObjectId nonce plaintext modified (i + 1)).finish
         else streamAt P key fileObjectId nonce plaintext modified (i + 1)) := by
  have hne : ¬ i ≥ Format.count plaintext.length := by omega
  rw [pollNext, nextChunk_streamAt hi h]
  by_cases hlast : i + 1 = Format.count plaintext.length
  · have hv := @verifySource_streamAt P key fileObjectId nonce plaintext modified
    rw [← hlast] at hv
    simp [streamAt, chunkCount_eq, hne, hlast] at hv ⊢
    rw [hv]
  · simp [streamAt, chunkCount_eq, hne, hlast]

/-- From the stream behind `i` chunks the remaining chunks come out and the stream ends. -/
theorem drain_streamAt (h : Format.count plaintext.length < 2 ^ 32) (fuel i : Nat)
    (hi : i ≤ Format.count plaintext.length) (hf : Format.count plaintext.length - i < fuel) :
    drain P (unchanged plaintext modified) fuel
      (streamAt P key fileObjectId nonce plaintext modified i)
      = some (.ok ((List.range' i (Format.count plaintext.length - i)).flatMap
            (Format.sealed P key fileObjectId nonce plaintext),
          (streamAt P key fileObjectId nonce plaintext modified
            (Format.count plaintext.length)).finish)) := by
  induction fuel generalizing i with
  | zero => omega
  | succ fuel ih =>
    rcases Nat.lt_or_eq_of_le hi with hlt | rfl
    · rw [drain, pollNext_chunk hlt h]
      have hsucc : Format.count plaintext.length - i
          = (Format.count plaintext.length - (i + 1)) + 1 := by omega
      by_cases hlast : i + 1 = Format.count plaintext.length
      · -- the poll of the last chunk ends the stream; one more poll reports it
        obtain ⟨fuel', rfl⟩ : ∃ k, fuel = k + 1 := ⟨fuel - 1, by omega⟩
        simp only [hlast, if_true, drain, pollNext_finish, hsucc, Nat.sub_self]
        simp [List.range'_succ]
      · simp only [hlast, if_false]
        rw [ih (i + 1) (by omega) (by omega), hsucc, List.range'_succ, List.flatMap_cons]
    · rw [drain, pollNext_end, Nat.sub_self, List.range'_zero, List.flatMap_nil]

/-- The digest of a drained stream is that of the encoded file. -/
theorem encryptedSha256_finish :
    encryptedSha256 P (streamAt P key fileObjectId nonce plaintext modified
      (Format.count plaintext.length)).finish.digest
      = .ok (hexEncode (P.sha.hash (Format.encoded P key fileObjectId nonce plaintext))) := by
  simp only [encryptedSha256, EncryptedFileStream.finish, streamAt, Bool.true_eq_false,
    rejectIf_neg not_false, ok_bind, pure_ok, Format.encoded, Format.body]

theorem streamedFile_unchanged (hid : 1 ≤ fileObjectId)
    (h : Format.count plaintext.length < 2 ^ 32) (sizes : Nat → Nat) {fuel : Nat}
    (hf : Format.count plaintext.length + 2 ≤ fuel) :
    streamedFile P (unchanged plaintext modified) fileObjectId key (hashFile P sizes plaintext)
      nonce fuel = some (.ok (Format.encoded P key fileObjectId nonce plaintext)) := by
  obtain ⟨fuel', rfl⟩ : ∃ k, fuel = k + 1 := ⟨fuel - 1, by omega⟩
  have hdrain := @drain_streamAt P key fileObjectId nonce plaintext modified h fuel' 0 (by omega)
    (by omega)
  rw [Nat.sub_zero, ← List.range_eq_range'] at hdrain
  rw [streamedFile, hashFile_eq, open_unchanged hid h]
  simp only [drain, pollNext_header, hdrain, Option.map_some]
  rfl

end Encode

end Cli
end FileCrypto
end Yuance
