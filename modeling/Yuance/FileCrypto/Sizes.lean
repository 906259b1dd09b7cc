import Yuance.FileCrypto.Decoders

/-!
# Yuance.FileCrypto.Sizes

The size of an encrypted file, as it is announced before the upload: `encrypted_total_size` of
`api/src/platform/file_crypto.rs` and of the command-line client, and `encryptedTotalSize` of the
desktop application, against what the encoders put out.

* `encrypted_sizes_agree`: they are the same number for every attachment.
-/

namespace Yuance
namespace FileCrypto

open Lib

/-- `MAX_ATTACHMENT_BYTE_SIZE`. -/
def maxAttachmentByteSize : Nat := 1024 * 1024 * 1024

namespace Server

def encryptedBodyLen (plaintextLen : Nat) : Nat :=
  let chunkCount := chunkCountFor plaintextLen fileChunkSize
  if chunkCount = 0 then 0
  else
    (chunkCount - 1) * (fileChunkSize + tagLen)
      + (chunkPlaintextLen fileChunkSize plaintextLen (chunkCount - 1) + tagLen)

def encryptedTotalSize (plaintextByteSize : Nat) : Nat :=
  let chunkCount := chunkCountFor plaintextByteSize fileChunkSize
  fileHeaderFixedLen + chunkCount * nonceLen + encryptedBodyLen plaintextByteSize

def headerLenFor (plaintextByteSize : Nat) : Nat :=
  let chunkCount := chunkCountFor plaintextByteSize fileChunkSize
  fileHeaderFixedLen + chunkCount * nonceLen

end Server

namespace Desktop

def headerLengthFor (plaintextByteSize : Nat) : Except Error Nat := do
  let chunkCount ← chunkCountFor plaintextByteSize
  pure (headerFixedLength + chunkCount * nonceLength)

def encryptedBodyLength (plaintextByteSize chunkCount : Nat) : Nat :=
  if chunkCount = 0 then 0
  else
    let lastChunkLength := plaintextByteSize - (chunkCount - 1) * fileChunkSize
    (chunkCount - 1) * (fileChunkSize + tagLength) + lastChunkLength + tagLength

def encryptedTotalSize (plaintextByteSize : Nat) : Except Error Nat := do
  let chunkCount ← chunkCountFor plaintextByteSize
  let headerLength ← headerLengthFor plaintextByteSize
  pure (headerLength + encryptedBodyLength plaintextByteSize chunkCount)

end Desktop

/-! ## The size of the format -/

namespace Format

/-- Length of the encrypted file of `n` bytes. -/
def totalSize (n : Nat) : Nat := fixedLen + count n * 12 + (n + count n * 16)

theorem count_lt_of_attachment {n : Nat} (hn : n ≤ maxAttachmentByteSize) : count n < 2 ^ 32 := by
  have hmax : maxAttachmentByteSize = 1073741824 := rfl
  have hchunk : chunkSize = 1048576 := rfl
  unfold count ceilDiv
  rw [hchunk]
  split
  · omega
  · omega

/-- All chunks but the last are full. -/
theorem lastChunk {n : Nat} (hn : count n ≠ 0) :
    (count n - 1) * chunkSize + min (n - (count n - 1) * chunkSize) chunkSize = n
      ∧ (count n - 1) * chunkSize < n := by
  have hlt : (count n - 1) * chunkSize < n := mul_lt_of_lt_ceilDiv (show count n - 1 < count n by omega)
  have hle : n ≤ count n * chunkSize := le_ceilDiv_mul (by decide)
  rw [show count n = count n - 1 + 1 by omega, Nat.succ_mul] at hle
  refine ⟨?_, hlt⟩
  rw [Nat.min_eq_left (by omega)]
  omega

theorem count_eq_zero {n : Nat} (h : count n = 0) : n = 0 := by
  have hle : n ≤ count n * chunkSize := le_ceilDiv_mul (by decide)
  rw [h, Nat.zero_mul] at hle
  omega

end Format

section Sizes

variable {n : Nat}

theorem Server.encryptedTotalSize_eq (h : Format.count n < 2 ^ 32) :
    Server.encryptedTotalSize n = Format.totalSize n := by
  have hfixed : Server.fileHeaderFixedLen = Format.fixedLen := by decide
  unfold Server.encryptedTotalSize Server.encryptedBodyLen Format.totalSize
  dsimp only
  rw [Server.chunkCountFor_eq n h, Server.fileChunkSize_eq, hfixed, Server.nonceLen, Server.tagLen]
  split
  · rename_i hzero
    rw [hzero, Format.count_eq_zero hzero]
  · rename_i hpos
    obtain ⟨hall, hlt⟩ := Format.lastChunk hpos
    have hlast := Server.chunkPlaintextLen_eq Format.chunkSize n (Format.count n - 1)
    rw [hlast, Format.chunkLen, Nat.mul_add]
    omega

theorem Cli.encryptedTotalSize_total (h : Format.count n < 2 ^ 32) :
    Cli.encryptedTotalSize n = Format.totalSize n := Cli.encryptedTotalSize_of_count h

theorem Desktop.encryptedTotalSize_eq (h : Format.count n < 2 ^ 32) :
    Desktop.encryptedTotalSize n = .ok (Format.totalSize n) := by
  have hfixed : Desktop.headerFixedLength = Format.fixedLen := by decide
  unfold Desktop.encryptedTotalSize Desktop.headerLengthFor Desktop.encryptedBodyLength
    Format.totalSize
  rw [Desktop.chunkCountFor_eq h, ok_bind, ok_bind, pure_ok, ok_bind, pure_ok, hfixed,
    Desktop.nonceLength_eq, Desktop.fileChunkSize_eq, Desktop.tagLength]
  congr 1
  split
  · rename_i hzero
    rw [hzero, Format.count_eq_zero hzero]
  · rename_i hpos
    obtain ⟨hall, hlt⟩ := Format.lastChunk hpos
    have hle : n ≤ Format.count n * Format.chunkSize := le_ceilDiv_mul (by decide)
    dsimp only
    rw [Nat.mul_add]
    omega

/-- The chunks of a header together. -/
theorem Server.chunkLengths_sum {header : Server.FileEncryptionHeader}
    (hchunk : header.chunkSize = Server.fileChunkSize) (hsize : header.plaintextByteSize = n)
    (h : Format.count n < 2 ^ 32) :
    Server.headerLenFor n + ((List.range (Server.chunkCountFor n Server.fileChunkSize)).map
      (Server.chunkCiphertextLen header)).sum = Format.totalSize n := by
  have hfixed : Server.fileHeaderFixedLen = Format.fixedLen := by decide
  have hle : n ≤ Format.count n * Format.chunkSize := le_ceilDiv_mul (by decide)
  have hsum := Server.bodyOffsetForChunk_offset header (Format.count n)
  unfold Server.bodyOffsetForChunk at hsum
  unfold Server.headerLenFor Format.totalSize
  dsimp only
  rw [Server.chunkCountFor_eq n h, hsum, hchunk, hsize, Server.fileChunkSize_eq, Format.chunkOffset,
    Nat.min_eq_left hle, hfixed, Server.nonceLen]

end Sizes

/-! ## The encoders -/

section Encoders

variable {P : Prims} {key : Key} {fileObjectId : Int} {nonce : Nat → Nonce} {plaintext c : Bytes}

theorem encoded_totalSize :
    (Format.encoded P key fileObjectId nonce plaintext).length
      = Format.totalSize plaintext.length := Format.encoded_length

/-- Polling further does not change what a stream has put out when it ended. -/
theorem Cli.drain_more {disk : Cli.Disk} {fuel : Nat} {s : Cli.EncryptedFileStream}
    {out : Except Cli.IoError (Bytes × Cli.EncryptedFileStream)}
    (h : Cli.drain P disk fuel s = some out) (more : Nat) :
    Cli.drain P disk (fuel + more) s = some out := by
  induction fuel generalizing s out with
  | zero => cases h
  | succ fuel ih =>
    rw [Nat.add_right_comm]
    unfold Cli.drain at h ⊢
    split at h
    · exact h
    · exact h
    · rename_i piece s' hpoll
      cases hrest : Cli.drain P disk fuel s' with
      | none =>
        rw [hrest] at h
        cases h
      | some rest =>
        rw [ih hrest]
        rw [hrest] at h
        exact h

theorem Cli.streamedFile_length {modified : Option Nat} {sizes : Nat → Nat} {fuel : Nat}
    (hcount : Format.count plaintext.length < 2 ^ 32)
    (h : Cli.streamedFile P (Cli.unchanged plaintext modified) fileObjectId key
      (Cli.hashFile P sizes plaintext) nonce fuel = some (.ok c)) :
    c.length = Format.totalSize plaintext.length := by
  by_cases hid : 1 ≤ fileObjectId
  · have hall := @Cli.streamedFile_unchanged P key fileObjectId nonce plaintext modified hid hcount
      sizes (fuel + (Format.count plaintext.length + 2)) (by omega)
    have hsame : Cli.streamedFile P (Cli.unchanged plaintext modified) fileObjectId key
        (Cli.hashFile P sizes plaintext) nonce (fuel + (Format.count plaintext.length + 2))
        = some (.ok c) := by
      unfold Cli.streamedFile at h ⊢
      split at h
      · cases h
      · obtain ⟨out, hout, hmap⟩ := Option.map_eq_some_iff.mp h
        rw [Cli.drain_more hout, Option.map_some, hmap]
    rw [hsame] at hall
    rw [Except.ok.inj (Option.some.inj hall), encoded_totalSize]
  · unfold Cli.streamedFile Cli.EncryptedFileStream.open at h
    rw [rejectIf_pos (by omega), error_bind] at h
    cases h

theorem Desktop.encryptFile_length (hcount : Format.count plaintext.length < 2 ^ 32)
    (h : Desktop.encryptFile P key fileObjectId plaintext nonce = .ok c) :
    c.length = Format.totalSize plaintext.length := by
  by_cases hid : 1 ≤ fileObjectId ∧ fileObjectId ≤ 2 ^ 53 - 1
  · rw [Desktop.encryptFile_eq hid.1 hid.2 hcount] at h
    rw [← Except.ok.inj h, encoded_totalSize]
  · unfold Desktop.encryptFile at h
    rw [Desktop.createEncryptionHeader_eq hcount, ok_bind, Desktop.chunkCountFor_eq hcount, ok_bind]
      at h
    obtain ⟨⟨parts, offset⟩, hloop, h⟩ := bind_eq_ok.mp h
    rcases Nat.eq_zero_or_pos (Format.count plaintext.length) with hzero | hpos
    · rw [hzero] at hloop
      obtain ⟨rfl, _⟩ := Prod.ext_iff.mp (Except.ok.inj hloop)
      have hnil := Format.count_eq_zero hzero
      rw [← Except.ok.inj h, Format.totalSize, hzero, hnil, List.length_append, Format.header_length,
        hzero]
      rfl
    · -- the first chunk needs the associated data
      exfalso
      obtain ⟨offset', next, hstep⟩ := forChunks_step hloop hpos
      unfold Desktop.encryptStep at hstep
      obtain ⟨part, hpart, _⟩ := bind_eq_ok.mp hstep
      unfold Desktop.encryptBodyChunk at hpart
      obtain ⟨n, _, hpart⟩ := bind_eq_ok.mp hpart
      obtain ⟨aad, haad, _⟩ := bind_eq_ok.mp hpart
      exact hid (Desktop.id_of_chunkAad haad)

end Encoders

/-- The sizes announced for an attachment are the same, and every encoder puts out that much. -/
theorem encrypted_sizes_agree (n : Nat) (hn : n ≤ maxAttachmentByteSize) :
    Cli.encryptedTotalSize n = Server.encryptedTotalSize n
    ∧ Desktop.encryptedTotalSize n = .ok (Server.encryptedTotalSize n)
    ∧ (∀ header : Server.FileEncryptionHeader, header.chunkSize = Server.fileChunkSize →
        header.plaintextByteSize = n →
          Server.headerLenFor n + ((List.range (Server.chunkCountFor n Server.fileChunkSize)).map
            (Server.chunkCiphertextLen header)).sum = Server.encryptedTotalSize n)
    ∧ ∀ (P : Prims) (key : Key) (fileObjectId : Int) (nonce : Nat → Nonce) (plaintext : Bytes),
        plaintext.length = n →
        (∃ c, Server.encryptPlaintext P key fileObjectId plaintext nonce = .ok c
          ∧ c.length = Server.encryptedTotalSize n)
        ∧ (∃ c, Browser.encryptFile P key.val fileObjectId plaintext nonce = .ok c
          ∧ c.length = Server.encryptedTotalSize n)
        ∧ (1 ≤ fileObjectId → fileObjectId ≤ 2 ^ 53 - 1 →
          ∃ c, Desktop.encryptFile P key fileObjectId plaintext nonce = .ok c)
        ∧ (∀ c, Desktop.encryptFile P key fileObjectId plaintext nonce = .ok c →
          c.length = Server.encryptedTotalSize n)
        ∧ (1 ≤ fileObjectId → ∀ modified sizes fuel, Format.count n + 2 ≤ fuel →
          ∃ c, Cli.streamedFile P (Cli.unchanged plaintext modified) fileObjectId key
            (Cli.hashFile P sizes plaintext) nonce fuel = some (.ok c))
        ∧ (∀ modified sizes fuel c, Cli.streamedFile P (Cli.unchanged plaintext modified) fileObjectId
            key (Cli.hashFile P sizes plaintext) nonce fuel = some (.ok c) →
          c.length = Server.encryptedTotalSize n) := by
  have hcount := Format.count_lt_of_attachment hn
  have hquota : Format.count n * 12 ≤ 65536 := by
    have hmax : maxAttachmentByteSize = 1073741824 := rfl
    have hchunk : Format.chunkSize = 1048576 := rfl
    unfold Format.count ceilDiv
    rw [hchunk]
    split
    · omega
    · omega
  rw [Server.encryptedTotalSize_eq hcount]
  refine ⟨Cli.encryptedTotalSize_total hcount, Desktop.encryptedTotalSize_eq hcount,
    fun header hchunk hsize => Server.chunkLengths_sum hchunk hsize hcount, ?_⟩
  rintro P key fileObjectId nonce plaintext rfl
  refine ⟨⟨_, Server.encryptPlaintext_eq hcount, encoded_totalSize⟩, ?_,
    fun hid hsafe => ⟨_, Desktop.encryptFile_eq hid hsafe hcount⟩,
    fun c h => Desktop.encryptFile_length hcount h,
    fun hid modified sizes fuel hfuel => ⟨_, Cli.streamedFile_unchanged hid hcount sizes hfuel⟩,
    fun modified sizes fuel c h => Cli.streamedFile_length hcount h⟩
  rw [Browser.encryptFile_eq, if_neg (by omega)]
  exact ⟨_, rfl, encoded_totalSize⟩

theorem encrypted_sizes_agree_two_bytes :
    Cli.encryptedTotalSize 2 = 95 ∧ Cli.encryptedTotalSize 2 = Server.encryptedTotalSize 2 :=
  ⟨by decide, (encrypted_sizes_agree 2 (by decide)).1⟩

end FileCrypto
end Yuance
