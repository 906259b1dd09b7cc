import Yuance.FileCrypto.Whole

/-!
# Yuance.FileCrypto.Decoders

What the decoders of the server, the desktop application and the browser return, against the
command-line client. The decoders in JavaScript take as much of a chunk as there is, and count with
rounded numbers; a buffer is shorter than `2 ^ 53` bytes.

* `Desktop.accepted`, `Browser.accepted`: what these two return.
* `decoders_accept_whole_files`: what is returned is whole exactly where the header fits the file.
-/

namespace Yuance
namespace FileCrypto

open Lib

/-! ## The desktop application -/

namespace Desktop

variable {P : Prims} {key : Key} {fileObjectId : Int} {c : Bytes}

theorem readUInt_eq_ok {width offset value : Nat} :
    readUInt width c offset = .ok value ↔
      (slice? c offset (offset + width)).map ofBE = some value := by
  unfold readUInt
  cases hslice : slice? c offset (offset + width) with
  | none =>
    rw [okOr_none, error_bind]
    simp
  | some bytes =>
    rw [okOr_some, ok_bind, pure_ok]
    simp

/-- The number of the header is the size rounded. -/
theorem parseEncryptionHeader_raw {header : EncryptionHeader}
    (h : parseEncryptionHeader c = .ok header) :
    ∃ rawSize sha, Format.Raw c header.chunkSize rawSize header.chunkCount sha
      ∧ header.plaintextByteSize = toNumber rawSize
      ∧ header.plaintextSha256 = hexEncode sha
      ∧ header.headerLength = Format.fixedLen + header.chunkCount * 12
      ∧ header.nonces = subarray c Format.fixedLen (Format.fixedLen + header.chunkCount * 12) := by
  have hm : magic.length = 13 := by decide
  unfold parseEncryptionHeader at h
  dsimp only at h
  simp only [hm, nonceLength_eq, show sha256Length = 32 by decide, Nat.reduceAdd] at h
  obtain ⟨_, hlong, h⟩ := bind_eq_ok.mp h
  obtain ⟨_, hmagic, h⟩ := bind_eq_ok.mp h
  obtain ⟨version, hversion, h⟩ := bind_eq_ok.mp h
  obtain ⟨_, hversion', h⟩ := bind_eq_ok.mp h
  obtain ⟨chunkSize, hchunks, h⟩ := bind_eq_ok.mp h
  obtain ⟨_, hpositive, h⟩ := bind_eq_ok.mp h
  obtain ⟨size, htotal, h⟩ := bind_eq_ok.mp h
  obtain ⟨count, hcounted, h⟩ := bind_eq_ok.mp h
  obtain ⟨_, htable, h⟩ := bind_eq_ok.mp h
  obtain rfl := Except.ok.inj h
  have hversion := readUInt_eq_ok.mp hversion
  obtain rfl : version = 1 := not_not.mp (rejectIf_eq_ok.mp hversion')
  have hmagic := not_not.mp (rejectIf_eq_ok.mp hmagic)
  have hlong : ¬ c.length < 65 := rejectIf_eq_ok.mp hlong
  have htable := rejectIf_eq_ok.mp htable
  have hfixed : Format.fixedLen = 65 := rfl
  refine ⟨size, subarray c 29 61, ⟨?_, hmagic, hversion, readUInt_eq_ok.mp hchunks,
    rejectIf_eq_ok.mp hpositive, readUInt_eq_ok.mp htotal,
    slice?_eq_subarray (by omega) (by omega), readUInt_eq_ok.mp hcounted⟩, rfl, rfl, rfl, rfl⟩
  dsimp only
  omega

theorem decryptBodyChunkWithAad_eq_ok {nonce sealedChunk aad piece : Bytes} :
    decryptBodyChunkWithAad P key nonce sealedChunk aad = .ok piece ↔
      tagLength < sealedChunk.length ∧
        ∃ n, asNonce nonce = some n ∧ P.aead.decrypt key n aad sealedChunk = some piece := by
  unfold decryptBodyChunkWithAad
  constructor
  · intro h
    obtain ⟨_, hlong, h⟩ := bind_eq_ok.mp h
    obtain ⟨n, hn, h⟩ := bind_eq_ok.mp h
    exact ⟨by have := rejectIf_eq_ok.mp hlong; omega, n, okOr_eq_ok.mp hn, okOr_eq_ok.mp h⟩
  · rintro ⟨hlong, n, hn, hopen⟩
    rw [rejectIf_neg (by omega), ok_bind, hn, okOr_some, ok_bind, hopen, okOr_some]

/-- Associated data is written for the ids that a number holds. -/
theorem id_of_chunkAad {i : Nat} {separator : UInt8} {aad : Bytes}
    (h : chunkAadWithSeparator fileObjectId i separator = .ok aad) :
    1 ≤ fileObjectId ∧ fileObjectId ≤ 2 ^ 53 - 1 := by
  unfold chunkAadWithSeparator at h
  obtain ⟨_, hguard, _⟩ := bind_eq_ok.mp h
  have hguard := rejectIf_eq_ok.mp hguard
  simp only [isSafeInteger, maxSafeInteger, not_or, not_not] at hguard
  omega

theorem opened_of_decryptBodyChunk {i : Nat} {nonce sealedChunk piece : Bytes} (hi : i < 2 ^ 32)
    (h : decryptBodyChunk P key fileObjectId i nonce sealedChunk = .ok piece) :
    ∃ n, asNonce nonce = some n ∧ Format.opened P key fileObjectId i n sealedChunk = some piece := by
  unfold decryptBodyChunk at h
  unfold Format.opened
  split at h
  · rename_i plaintext hplain
    obtain rfl := Except.ok.inj h
    obtain ⟨aad, haad, hplain⟩ := bind_eq_ok.mp hplain
    obtain ⟨hid, hmax⟩ := id_of_chunkAad haad
    obtain rfl := Except.ok.inj ((chunkAad_eq hid hmax hi).symm.trans haad)
    obtain ⟨hlong, n, hn, hopen⟩ := decryptBodyChunkWithAad_eq_ok.mp hplain
    exact ⟨n, hn, by rw [hopen]; rfl⟩
  · rename_i e hfails
    split at h
    · rename_i plaintext hplain
      obtain rfl := Except.ok.inj h
      obtain ⟨aad, haad, hplain⟩ := bind_eq_ok.mp hplain
      obtain ⟨hid, hmax⟩ := id_of_chunkAad haad
      obtain rfl := Except.ok.inj ((chunkAadWithSeparator_eq hid hmax hi 0).symm.trans haad)
      obtain ⟨hlong, n, hn, hopen⟩ := decryptBodyChunkWithAad_eq_ok.mp hplain
      refine ⟨n, hn, ?_⟩
      cases hfirst : P.aead.decrypt key n (Format.aad fileObjectId i) sealedChunk with
      | none => exact hopen
      | some other =>
        rw [chunkAad_eq hid hmax hi, ok_bind,
          decryptBodyChunkWithAad_eq_ok.mpr ⟨hlong, n, hn, hfirst⟩] at hfails
        cases hfails
    · cases h

theorem plaintextLengthAt_eq {chunkSize size i : Nat} (hsize : size < 2 ^ 53) :
    plaintextLengthAt chunkSize size i = Format.chunkLen chunkSize size i :=
  Format.roundedLen_eq hsize

/-- The end of the last chunk. -/
def lastChunkEnd (header : EncryptionHeader) : Nat :=
  header.headerLength + ((List.range header.chunkCount).map fun i =>
    plaintextLengthAt header.chunkSize header.plaintextByteSize i + tagLength).sum

theorem lastChunkEnd_eq {header : EncryptionHeader} (hsize : header.plaintextByteSize < 2 ^ 53) :
    lastChunkEnd header = header.headerLength
      + Format.chunkOffset header.chunkSize header.plaintextByteSize header.chunkCount := by
  unfold lastChunkEnd
  congr 1
  induction header.chunkCount with
  | zero => rw [Format.chunkOffset_zero]; rfl
  | succ k ih =>
    rw [List.range_succ, List.map_append, List.sum_append, ih, Format.chunkOffset_succ,
      List.map_singleton, List.sum_singleton, plaintextLengthAt_eq hsize, tagLength]

theorem opens_of_decryptStep {header : EncryptionHeader} {i offset : Nat} {next : Bytes × Nat}
    (hnonces : header.nonces
      = subarray c Format.fixedLen (Format.fixedLen + header.chunkCount * 12))
    (htable : Format.fixedLen + header.chunkCount * 12 ≤ c.length)
    (hcount : header.chunkCount < 2 ^ 32) (hi : i < header.chunkCount)
    (h : decryptStep P key fileObjectId c header i offset = .ok next) :
    Format.OpensAt P key fileObjectId c
      (plaintextLengthAt header.chunkSize header.plaintextByteSize i) i offset next := by
  unfold decryptStep at h
  dsimp only at h
  obtain ⟨piece, hpiece, h⟩ := bind_eq_ok.mp h
  obtain rfl := Except.ok.inj h
  obtain ⟨nonce, hnonce, hopened⟩ := opened_of_decryptBodyChunk (by omega) hpiece
  refine ⟨nonce, _, by rw [← Nat.add_assoc]; rfl, ?_, hopened, rfl⟩
  rw [slice?_eq_subarray (by omega) (by omega), ← val_of_asNonce hnonce, hnonces, nonceLength_eq,
    subarray_subarray (by rw [Nat.succ_mul]; omega), Nat.succ_mul, ← Nat.add_assoc]

/-- What the desktop application returns. -/
theorem accepted {out : Bytes} (hsized : P.aead.Sized) (hc : c.length < 2 ^ 53)
    (h : decryptFile P key fileObjectId c = .ok out) :
    ∃ header rawSize sha, parseEncryptionHeader c = .ok header
      ∧ Format.Raw c header.chunkSize rawSize header.chunkCount sha
      ∧ header.headerLength = Format.fixedLen + header.chunkCount * 12
      ∧ header.plaintextByteSize = toNumber rawSize
      ∧ P.sha.hash out = sha ∧ out.length ≤ c.length
      ∧ (Format.Whole c header.chunkSize header.plaintextByteSize header.chunkCount →
          ∃ piece : Nat → Bytes, (∀ i, i < header.chunkCount →
              Format.Opens P key fileObjectId c header.chunkSize header.plaintextByteSize
                header.chunkCount i (piece i)) ∧
            out = (List.range header.chunkCount).flatMap piece) := by
  unfold decryptFile at h
  obtain ⟨header, hparse, h⟩ := bind_eq_ok.mp h
  obtain ⟨⟨plaintext, offset⟩, hloop, h⟩ := bind_eq_ok.mp h
  obtain ⟨_, hverify, h⟩ := bind_eq_ok.mp h
  obtain rfl := Except.ok.inj h
  obtain ⟨rawSize, sha, raw, hnumber, hdigest, hlength, hnonces⟩ := parseEncryptionHeader_raw hparse
  have hsha := not_not.mp (rejectIf_eq_ok.mp hverify)
  rw [hdigest, hexEncode_inj] at hsha
  rw [hlength] at hloop
  have hstep := fun i offset next (hi : i < header.chunkCount) hnext =>
    @opens_of_decryptStep P key fileObjectId c header i offset next hnonces raw.table raw.count_lt hi
      hnext
  refine ⟨header, rawSize, sha, hparse, raw, hlength, hnumber, hsha,
    Format.loop_length_le hsized raw.table hstep hloop, fun whole => ?_⟩
  have hsize : header.plaintextByteSize < 2 ^ 53 := by
    have := whole.ends
    omega
  exact Format.loop_pieces raw.positive whole (fun i => plaintextLengthAt_eq hsize) hstep hloop

end Desktop

/-! ## The browser -/

namespace Browser

variable {P : Prims} {key : Key} {fileObjectId : Int} {c : Bytes}

theorem viewGet_eq_ok {width offset value : Nat} :
    viewGet width c offset = .ok value ↔
      (slice? c offset (offset + width)).map ofBE = some value := by
  unfold viewGet
  cases hslice : slice? c offset (offset + width) with
  | none =>
    rw [okOr_none, error_bind]
    simp
  | some bytes =>
    rw [okOr_some, ok_bind, pure_ok]
    simp

/-- The number of the header is the size rounded. -/
theorem parseEncryptionHeader_raw {header : EncryptionHeader}
    (h : parseEncryptionHeader c = .ok header) :
    ∃ rawSize sha, Format.Raw c header.chunkSize rawSize header.chunkCount sha
      ∧ header.plaintextByteSize = toNumber rawSize
      ∧ header.plaintextSha256 = hexEncode sha
      ∧ header.headerLength = Format.fixedLen + header.chunkCount * 12
      ∧ header.nonces = subarray c Format.fixedLen (Format.fixedLen + header.chunkCount * 12) := by
  have hm : magicBytes.length = 13 := by decide
  unfold parseEncryptionHeader at h
  dsimp only at h
  simp only [hm, nonceLength_eq, show sha256Length = 32 by decide, Nat.reduceAdd] at h
  obtain ⟨_, hlong, h⟩ := bind_eq_ok.mp h
  obtain ⟨_, hmagic, h⟩ := bind_eq_ok.mp h
  obtain ⟨version, hversion, h⟩ := bind_eq_ok.mp h
  obtain ⟨_, hversion', h⟩ := bind_eq_ok.mp h
  obtain ⟨chunkSize, hchunks, h⟩ := bind_eq_ok.mp h
  obtain ⟨_, hpositive, h⟩ := bind_eq_ok.mp h
  obtain ⟨size, htotal, h⟩ := bind_eq_ok.mp h
  obtain ⟨count, hcounted, h⟩ := bind_eq_ok.mp h
  obtain ⟨_, htable, h⟩ := bind_eq_ok.mp h
  obtain rfl := Except.ok.inj h
  have hversion := viewGet_eq_ok.mp hversion
  obtain rfl : version = 1 := not_not.mp (rejectIf_eq_ok.mp hversion')
  have hmagic := not_not.mp (rejectIf_eq_ok.mp hmagic)
  have hlong : ¬ c.length < 65 := rejectIf_eq_ok.mp hlong
  have htable := rejectIf_eq_ok.mp htable
  have hfixed : Format.fixedLen = 65 := rfl
  refine ⟨size, subarray c 29 61, ⟨?_, hmagic, hversion, viewGet_eq_ok.mp hchunks,
    rejectIf_eq_ok.mp hpositive, viewGet_eq_ok.mp htotal,
    slice?_eq_subarray (by omega) (by omega), viewGet_eq_ok.mp hcounted⟩, rfl, rfl, rfl, rfl⟩
  dsimp only
  omega

theorem decryptChunk_eq_ok {nonce sealedChunk aad piece : Bytes} :
    decryptChunk P key nonce aad sealedChunk = .ok piece ↔
      ∃ n, asNonce nonce = some n ∧ P.aead.decrypt key n aad sealedChunk = some piece := by
  unfold decryptChunk
  constructor
  · intro h
    obtain ⟨n, hn, h⟩ := bind_eq_ok.mp h
    exact ⟨n, okOr_eq_ok.mp hn, okOr_eq_ok.mp h⟩
  · rintro ⟨n, hn, hopen⟩
    rw [hn, okOr_some, ok_bind, hopen, okOr_some]

theorem opened_of_decryptAttempts {i : Nat} {nonce sealedChunk piece : Bytes}
    (h : decryptAttempts P key fileObjectId i nonce sealedChunk = .ok piece) :
    ∃ n, asNonce nonce = some n ∧ Format.opened P key fileObjectId i n sealedChunk = some piece := by
  unfold decryptAttempts at h
  unfold Format.opened
  split at h
  · rename_i plaintext hplain
    obtain rfl := Except.ok.inj h
    rw [chunkAad_eq, ok_bind] at hplain
    obtain ⟨n, hn, hopen⟩ := decryptChunk_eq_ok.mp hplain
    exact ⟨n, hn, by rw [hopen]; rfl⟩
  · rename_i e hfails
    split at h
    · rename_i plaintext hplain
      obtain rfl := Except.ok.inj h
      rw [legacyChunkAad, chunkAadWithSeparator_eq, ok_bind] at hplain
      obtain ⟨n, hn, hopen⟩ := decryptChunk_eq_ok.mp hplain
      refine ⟨n, hn, ?_⟩
      cases hfirst : P.aead.decrypt key n (Format.aad fileObjectId i) sealedChunk with
      | none => exact hopen
      | some other =>
        rw [chunkAad_eq, ok_bind, decryptChunk_eq_ok.mpr ⟨n, hn, hfirst⟩] at hfails
        cases hfails
    · cases h

theorem chunkPlaintextLengthAt_eq {chunkSize size i : Nat} (hsize : size < 2 ^ 53) :
    chunkPlaintextLengthAt chunkSize size i = Format.chunkLen chunkSize size i :=
  Format.roundedLen_eq hsize

/-- The end of the last chunk. -/
def lastChunkEnd (header : EncryptionHeader) : Nat :=
  header.headerLength + ((List.range header.chunkCount).map fun i =>
    chunkPlaintextLengthAt header.chunkSize header.plaintextByteSize i + tagLength).sum

theorem lastChunkEnd_eq {header : EncryptionHeader} (hsize : header.plaintextByteSize < 2 ^ 53) :
    lastChunkEnd header = header.headerLength
      + Format.chunkOffset header.chunkSize header.plaintextByteSize header.chunkCount := by
  unfold lastChunkEnd
  congr 1
  induction header.chunkCount with
  | zero => rw [Format.chunkOffset_zero]; rfl
  | succ k ih =>
    rw [List.range_succ, List.map_append, List.sum_append, ih, Format.chunkOffset_succ,
      List.map_singleton, List.sum_singleton, chunkPlaintextLengthAt_eq hsize, tagLength]

theorem opens_of_decryptStep {header : EncryptionHeader} {i offset : Nat} {next : Bytes × Nat}
    (hnonces : header.nonces
      = subarray c Format.fixedLen (Format.fixedLen + header.chunkCount * 12))
    (htable : Format.fixedLen + header.chunkCount * 12 ≤ c.length)
    (hi : i < header.chunkCount)
    (h : decryptStep P key fileObjectId c header i offset = .ok next) :
    Format.OpensAt P key fileObjectId c
      (chunkPlaintextLengthAt header.chunkSize header.plaintextByteSize i) i offset next := by
  unfold decryptStep at h
  dsimp only at h
  obtain ⟨piece, hpiece, h⟩ := bind_eq_ok.mp h
  obtain rfl := Except.ok.inj h
  obtain ⟨nonce, hnonce, hopened⟩ := opened_of_decryptAttempts hpiece
  refine ⟨nonce, _, by rw [← Nat.add_assoc]; rfl, ?_, hopened, rfl⟩
  rw [slice?_eq_subarray (by omega) (by omega), ← val_of_asNonce hnonce, hnonces, nonceLength_eq,
    subarray_subarray (by rw [Nat.succ_mul]; omega), Nat.succ_mul, ← Nat.add_assoc]

/-- What the browser returns. -/
theorem accepted {out : Bytes} (hsized : P.aead.Sized) (hc : c.length < 2 ^ 53)
    (h : decryptFile P key.val fileObjectId c = .ok out) :
    ∃ header rawSize sha, parseEncryptionHeader c = .ok header
      ∧ Format.Raw c header.chunkSize rawSize header.chunkCount sha
      ∧ header.headerLength = Format.fixedLen + header.chunkCount * 12
      ∧ header.plaintextByteSize = toNumber rawSize
      ∧ P.sha.hash out = sha ∧ out.length ≤ c.length
      ∧ (Format.Whole c header.chunkSize header.plaintextByteSize header.chunkCount →
          ∃ piece : Nat → Bytes, (∀ i, i < header.chunkCount →
              Format.Opens P key fileObjectId c header.chunkSize header.plaintextByteSize
                header.chunkCount i (piece i)) ∧
            out = (List.range header.chunkCount).flatMap piece) := by
  unfold decryptFile at h
  obtain ⟨header, hparse, h⟩ := bind_eq_ok.mp h
  rw [importAesGcmKey_val, ok_bind] at h
  obtain ⟨⟨plaintext, offset⟩, hloop, h⟩ := bind_eq_ok.mp h
  obtain ⟨_, hverify, h⟩ := bind_eq_ok.mp h
  obtain rfl := Except.ok.inj h
  obtain ⟨rawSize, sha, raw, hnumber, hdigest, hlength, hnonces⟩ := parseEncryptionHeader_raw hparse
  have hsha := not_not.mp (rejectIf_eq_ok.mp hverify)
  rw [hdigest, hexEncode_inj] at hsha
  rw [hlength] at hloop
  have hstep := fun i offset next (hi : i < header.chunkCount) hnext =>
    @opens_of_decryptStep P key fileObjectId c header i offset next hnonces raw.table hi hnext
  refine ⟨header, rawSize, sha, hparse, raw, hlength, hnumber, hsha,
    Format.loop_length_le hsized raw.table hstep hloop, fun whole => ?_⟩
  have hsize : header.plaintextByteSize < 2 ^ 53 := by
    have := whole.ends
    omega
  exact Format.loop_pieces raw.positive whole (fun i => chunkPlaintextLengthAt_eq hsize) hstep hloop

end Browser

/-! ## The four decoders -/

/-- The sizes in the header are those of the plaintext that is returned, with the file ending behind the
last chunk, exactly for the whole files, and these are the files that the command-line client opens
as well. -/
theorem decoders_accept_whole_files (P : Prims) (hsized : P.aead.Sized) (key : Key)
    (fileObjectId : Int) (c : Bytes) :
    (∀ out, Server.decryptCiphertextFull P key fileObjectId c = .ok out →
      ∃ header body, Server.parseHeader c = .ok (header, body)
        ∧ (SizesHold c out header.chunkSize header.plaintextByteSize header.chunkCount
              (Server.fileHeaderFixedLen + header.chunkCount * Server.nonceLen
                + Server.bodyOffsetForChunk header header.chunkCount)
            ↔ Format.Whole c header.chunkSize header.plaintextByteSize header.chunkCount)
        ∧ (header.chunkSize = Format.chunkSize →
            (ClientAccepts P key fileObjectId c out header.plaintextByteSize
              ↔ Format.Whole c header.chunkSize header.plaintextByteSize header.chunkCount
                ∧ 1 ≤ fileObjectId)))
    ∧ (∀ out, c.length < 2 ^ 53 → Desktop.decryptFile P key fileObjectId c = .ok out →
      ∃ header, Desktop.parseEncryptionHeader c = .ok header
        ∧ (SizesHold c out header.chunkSize header.plaintextByteSize header.chunkCount
              (Desktop.lastChunkEnd header)
            ↔ Format.Whole c header.chunkSize header.plaintextByteSize header.chunkCount)
        ∧ (header.chunkSize = Format.chunkSize →
            (ClientAccepts P key fileObjectId c out header.plaintextByteSize
              ↔ Format.Whole c header.chunkSize header.plaintextByteSize header.chunkCount
                ∧ 1 ≤ fileObjectId)))
    ∧ (∀ out, c.length < 2 ^ 53 → Browser.decryptFile P key.val fileObjectId c = .ok out →
      ∃ header, Browser.parseEncryptionHeader c = .ok header
        ∧ (SizesHold c out header.chunkSize header.plaintextByteSize header.chunkCount
              (Browser.lastChunkEnd header)
            ↔ Format.Whole c header.chunkSize header.plaintextByteSize header.chunkCount)
        ∧ (header.chunkSize = Format.chunkSize →
            (ClientAccepts P key fileObjectId c out header.plaintextByteSize
              ↔ Format.Whole c header.chunkSize header.plaintextByteSize header.chunkCount
                ∧ 1 ≤ fileObjectId))) := by
  refine ⟨?_, ?_, ?_⟩
  · intro out h
    obtain ⟨header, body, piece, hparse, hopens, rfl, hsha⟩ := Server.pieces_of_decrypted h
    obtain ⟨raw, _⟩ := Server.parseHeader_raw hparse
    have hpieces : ∃ pieces : Nat → Bytes, (∀ i, i < header.chunkCount →
        Format.Opens P key fileObjectId c header.chunkSize header.plaintextByteSize header.chunkCount i
          (pieces i)) ∧ (List.range header.chunkCount).flatMap piece
        = (List.range header.chunkCount).flatMap pieces := ⟨piece, hopens, rfl⟩
    refine ⟨header, body, hparse, ?_, fun hchunk => ?_⟩
    · refine sizesHold_iff hsized raw (Format.pieces_length_le hsized hopens) (fun _ => ?_)
        fun _ => hpieces
      rw [Server.bodyOffsetForChunk_offset]
      rfl
    · exact clientAccepts_iff hsized raw hchunk (fun _ => rfl) hsha fun _ => hpieces
  · intro out hc h
    obtain ⟨header, rawSize, sha, hparse, raw, hlength, hnumber, hsha, hout, hpieces⟩ :=
      Desktop.accepted hsized hc h
    refine ⟨header, hparse, ?_, fun hchunk => ?_⟩
    · refine sizesHold_iff hsized raw hout (fun hsize => ?_) hpieces
      rw [Desktop.lastChunkEnd_eq (by omega), hlength]
    · exact clientAccepts_iff hsized raw hchunk (fun hsize => (exact_of_toNumber hnumber (by omega)))
        hsha hpieces
  · intro out hc h
    obtain ⟨header, rawSize, sha, hparse, raw, hlength, hnumber, hsha, hout, hpieces⟩ :=
      Browser.accepted hsized hc h
    refine ⟨header, hparse, ?_, fun hchunk => ?_⟩
    · refine sizesHold_iff hsized raw hout (fun hsize => ?_) hpieces
      rw [Browser.lastChunkEnd_eq (by omega), hlength]
    · exact clientAccepts_iff hsized raw hchunk (fun hsize => (exact_of_toNumber hnumber (by omega)))
        hsha hpieces

/-- A cipher whose tag is sixteen zero bytes, and a constant digest. -/
def taggedPrims : Prims := ⟨Aead.tagged, Digest.const⟩

/-- The file of two bytes. -/
def twoBytes : Bytes := Format.encoded taggedPrims (.fill 32 0) 7 (fun _ => .fill 12 0) [104, 105]

theorem decoders_accept_whole_files_two_bytes :
    ∃ header body, Server.parseHeader twoBytes = .ok (header, body)
      ∧ (SizesHold twoBytes [104, 105] header.chunkSize header.plaintextByteSize header.chunkCount
            (Server.fileHeaderFixedLen + header.chunkCount * Server.nonceLen
              + Server.bodyOffsetForChunk header header.chunkCount)
          ↔ Format.Whole twoBytes header.chunkSize header.plaintextByteSize header.chunkCount) := by
  obtain ⟨header, body, hparse, hsizes, _⟩ := (decoders_accept_whole_files taggedPrims
    Aead.tagged_sized (.fill 32 0) 7 twoBytes).1 [104, 105]
      (Server.decryptCiphertextFull_encoded (by decide))
  exact ⟨header, body, hparse, hsizes⟩

/-- A byte behind the last chunk is not noticed, but by the command-line client. -/
theorem trailing_byte_accepted :
    (Server.decryptCiphertextFull taggedPrims (.fill 32 0) 7 (twoBytes ++ [0]) = .ok [104, 105]
      ∧ ∃ header body, Server.parseHeader (twoBytes ++ [0]) = .ok (header, body)
        ∧ ¬ SizesHold (twoBytes ++ [0]) [104, 105] header.chunkSize header.plaintextByteSize
          header.chunkCount (Server.fileHeaderFixedLen + header.chunkCount * Server.nonceLen
            + Server.bodyOffsetForChunk header header.chunkCount))
    ∧ Desktop.decryptFile taggedPrims (.fill 32 0) 7 (twoBytes ++ [0]) = .ok [104, 105]
    ∧ Browser.decryptFile taggedPrims (zeros 32) 7 (twoBytes ++ [0]) = .ok [104, 105]
    ∧ Cli.decryptFile taggedPrims (twoBytes ++ [0]) 7 (.fill 32 0) 2 ""
        = .error Cli.invalidEncryptedFile := by
  refine ⟨⟨by decide +kernel, ?_⟩, by decide +kernel, by decide +kernel, by decide +kernel⟩
  obtain ⟨parsed, hparsed⟩ : ∃ parsed, Server.parseHeader (twoBytes ++ [0]) = .ok parsed :=
    ⟨_, rfl⟩
  refine ⟨parsed.1, parsed.2, hparsed, ?_⟩
  rintro ⟨_, _, hends⟩
  have hlast : (Server.parseHeader (twoBytes ++ [0])).map (fun read => Server.fileHeaderFixedLen
      + read.1.chunkCount * Server.nonceLen
      + Server.bodyOffsetForChunk read.1 read.1.chunkCount) = .ok 95 := by decide +kernel
  have hlong : (twoBytes ++ [0]).length = 96 := by decide +kernel
  rw [hparsed] at hlast
  have hlast := Except.ok.inj hlast
  dsimp only at hlast
  omega

end FileCrypto
end Yuance
