import Yuance.Web.PreviewRanges

/-!
# Yuance.Web.PreviewContent

What `attachment_preview_content_response` of `api/src/web/api/mod.rs` answers to a `GET`: the body
and the two headers that say which bytes it is.

* `attachmentPreviewContent`: the answer with `Content-Length` and `Content-Range`.
* `OpensTo`: bytes of the plaintext, from the sealed chunks that hold them.
* `readDecrypted_eq_ok`: what is read of an encrypted file.
* `ranges_are_exact_iff`: when the answers are exact.
-/

namespace Yuance
namespace Web
namespace Preview

open Lib Platform Files
open FileCrypto.Server hiding AppError

/-! ## The answer -/

structure Content where
  response : Response
  contentLength : Option Nat
  contentRange : Option String

def rangeNotSatisfiableResponse (total : Nat) : Content :=
  { response := { status := 416, contentType := none, body := [] }
    contentLength := none
    contentRange := some ("bytes */" ++ toString total) }

/-- `bytes {start}-{end}/{total}`. -/
def contentRangeText (start stop total : Nat) : String :=
  "bytes " ++ toString start ++ "-" ++ toString stop ++ "/" ++ toString total

def totalOf (a : Attachment) (object : StoredObject) : Nat :=
  if a.encryption.isSome then a.file.byteSize.toNat else object.content.length

def contentTypeOf (a : Attachment) (object : StoredObject) : String :=
  resolvedPreviewContentType (object.contentType.getD "application/octet-stream")
    a.file.contentType a.file.originalFilename

def selectedLengthOf (total start stop : Nat) : Nat := if total = 0 then 0 else stop - start + 1

/-- `attachment_preview_content_response`. -/
def attachmentPreviewContent (S : FileService) (db : AttachmentDb) (request : ContentRequest)
    (a : Attachment) : Except AppError Content := do
  ensureAttachmentPreviewContentEnabled a
  let object ← okOr (db.objects a.objectKey) (.badRequest "读取对象存储元数据失败")
  rejectIf (a.encryption.isSome ∧ a.file.byteSize < 0) (.badRequest "附件大小超出当前预览能力")
  let total := totalOf a object
  match selectRange request total with
  | none => pure (rangeNotSatisfiableResponse total)
  | some (status, start, stop) => do
    let selectedLength := selectedLengthOf total start stop
    let body ← readBody S a object request.head status start stop selectedLength
    rejectIf (¬ isHeaderValue (contentTypeOf a object)) (.badRequest "invalid header value")
    pure
      { response := { status := status, contentType := some (contentTypeOf a object), body := body }
        contentLength := some selectedLength
        contentRange := if status = 206 then some (contentRangeText start stop total) else none }

theorem bind_map_eq {ε α β γ : Type} {x : Except ε α} {f : α → Except ε β} {g : α → Except ε γ}
    {h : β → γ} (hfg : ∀ a, (f a).map h = g a) : (x >>= f).map h = x >>= g := by
  cases x with
  | error e => rfl
  | ok a => exact hfg a

theorem mapError_eq_ok {ε ε' α : Type} {x : Except ε α} {f : ε → ε'} {a : α} :
    x.mapError f = .ok a ↔ x = .ok a := by
  cases x with
  | error e => exact iff_of_false (fun h => nomatch h) (fun h => nomatch h)
  | ok b =>
    refine ⟨fun h => ?_, fun h => ?_⟩
    · exact congrArg Except.ok (Except.ok.inj h)
    · exact congrArg Except.ok (Except.ok.inj h)

/-- Without its headers it is the response as it is sent. -/
theorem attachmentPreviewContent_response (S : FileService) (db : AttachmentDb)
    (request : ContentRequest) (a : Attachment) :
    (attachmentPreviewContent S db request a).map Content.response =
      attachmentPreviewContentResponse S db request a := by
  refine bind_map_eq fun _ => bind_map_eq fun object => bind_map_eq fun _ => ?_
  unfold totalOf
  dsimp only
  generalize selectRange request _ = selected
  cases selected with
  | none => rfl
  | some part => exact bind_map_eq fun body => bind_map_eq fun _ => rfl

/-! ## The chunks of a range -/

section Chunks

variable {P : FileCrypto.Prims} {key : FileCrypto.Key} {fileObjectId : Int}
  {header : FileEncryptionHeader} {content piece out : Bytes}
  {place first behind start stop i : Nat}

/-- Chunk `i`, in a body that begins at `place`, holds `piece` of what lies between the two ends. -/
def OpensCut (P : FileCrypto.Prims) (key : FileCrypto.Key) (fileObjectId : Int)
    (header : FileEncryptionHeader) (content : Bytes) (place start stop i : Nat) (piece : Bytes) :
    Prop :=
  ∃ sealedChunk, slice? content (place + bodyOffsetForChunk header i)
      (place + bodyOffsetForChunk header (i + 1)) = some sealedChunk ∧
    decryptCut P key fileObjectId header start stop i
      (chunkPlaintextLen header.chunkSize header.plaintextByteSize i) sealedChunk = .ok piece

/-- The chunks from `first` on and before `behind` open, and their cuts are `out`. -/
def OpensTo (P : FileCrypto.Prims) (key : FileCrypto.Key) (fileObjectId : Int)
    (header : FileEncryptionHeader) (content : Bytes) (place start stop first behind : Nat)
    (out : Bytes) : Prop :=
  ∃ piece : Nat → Bytes,
    (∀ i, first ≤ i → i < behind →
      OpensCut P key fileObjectId header content place start stop i (piece i)) ∧
    out = (List.range (behind - first)).flatMap fun i => piece (first + i)

theorem bodyOffsetForChunk_succ : bodyOffsetForChunk header (i + 1) =
    bodyOffsetForChunk header i + chunkCiphertextLen header i := by
  simp [bodyOffsetForChunk, List.range_succ]

theorem bodyOffsetForChunk_add (k : Nat) : bodyOffsetForChunk header (first + k) =
    bodyOffsetForChunk header first +
      ((List.range' first k).map (chunkCiphertextLen header)).sum := by
  induction k with
  | zero => rfl
  | succ k ih =>
    rw [← Nat.add_assoc, bodyOffsetForChunk_succ, ih, List.range'_concat, List.map_append,
      List.sum_append]
    simp [Nat.add_assoc]

theorem bodyOffsetForChunk_mono (h : first ≤ i) :
    bodyOffsetForChunk header first ≤ bodyOffsetForChunk header i := by
  obtain ⟨k, rfl⟩ := Nat.exists_eq_add_of_le h
  rw [bodyOffsetForChunk_add]
  omega

/-- A slice of the part of an object that was read. -/
theorem slice?_readObjectRange {object : StoredObject} {lo hi a b : Nat}
    (hhi : hi ≤ object.content.length) (ha : lo ≤ a) (hab : a ≤ b) (hb : b ≤ hi) :
    slice? (readObjectRange object lo hi) (a - lo) (b - lo) = slice? object.content a b := by
  have hread : readObjectRange object lo hi = subarray object.content lo hi := List.drop_take ..
  have hslice := slice?_eq_subarray hab (show b ≤ object.content.length by omega)
  rw [hread, slice?_subarray hslice ha hb, hslice]

theorem bodyRangeStep_eq {object : StoredObject} (hend : place + bodyOffsetForChunk header behind ≤
    object.content.length) (hi : first + i < behind) :
    bodyRangeStep P key fileObjectId header
        (readObjectRange object (place + bodyOffsetForChunk header first)
          (place + bodyOffsetForChunk header behind)) start stop (first + i)
        (bodyOffsetForChunk header (first + i) - bodyOffsetForChunk header first) = (do
      let chunk ← okOr (slice? object.content (place + bodyOffsetForChunk header (first + i))
        (place + bodyOffsetForChunk header (first + i + 1))) (.crypto "加密文件分块数据不完整")
      let piece ← decryptCut P key fileObjectId header start stop (first + i)
        (chunkPlaintextLen header.chunkSize header.plaintextByteSize (first + i)) chunk
      pure (piece,
        bodyOffsetForChunk header (first + (i + 1)) - bodyOffsetForChunk header first)) := by
  have hfrom := @bodyOffsetForChunk_mono header first (first + i) (by omega)
  have hnext := @bodyOffsetForChunk_succ header (first + i)
  have hlast := @bodyOffsetForChunk_mono header (first + i + 1) behind (by omega)
  have hslice := @slice?_readObjectRange object (place + bodyOffsetForChunk header first)
    (place + bodyOffsetForChunk header behind) (place + bodyOffsetForChunk header (first + i))
    (place + bodyOffsetForChunk header (first + i + 1)) hend (by omega) (by omega) (by omega)
  have hmoved : bodyOffsetForChunk header (first + i) - bodyOffsetForChunk header first +
      chunkCiphertextLen header (first + i) =
        bodyOffsetForChunk header (first + (i + 1)) - bodyOffsetForChunk header first := by
    rw [← Nat.add_assoc]
    omega
  have hstart : place + bodyOffsetForChunk header (first + i) -
      (place + bodyOffsetForChunk header first) =
        bodyOffsetForChunk header (first + i) - bodyOffsetForChunk header first := by
    omega
  have hstop : place + bodyOffsetForChunk header (first + i + 1) -
      (place + bodyOffsetForChunk header first) =
        bodyOffsetForChunk header (first + (i + 1)) - bodyOffsetForChunk header first := by
    rw [← Nat.add_assoc]
    omega
  rw [hstart, hstop] at hslice
  unfold bodyRangeStep
  dsimp only
  rw [hmoved, hslice]

/-- The bytes that the chunks of the fetched body give are the cuts of the chunks of the object. -/
theorem decryptBodyRange_eq_ok {object : StoredObject} (hrange : start < stop) :
    decryptBodyRange P key fileObjectId header
        (readObjectRange object (place + bodyOffsetForChunk header first)
          (place + bodyOffsetForChunk header behind)) first behind start stop = .ok out ↔
      OpensTo P key fileObjectId header object.content place start stop first behind out := by
  unfold decryptBodyRange
  by_cases hempty : behind ≤ first
  · rw [if_pos (.inl hempty)]
    constructor
    · intro h
      obtain rfl := Except.ok.inj h
      refine ⟨fun _ => [], fun i hfirst hi => by omega, ?_⟩
      rw [Nat.sub_eq_zero_of_le hempty]
      rfl
    · rintro ⟨piece, _, rfl⟩
      rw [Nat.sub_eq_zero_of_le hempty]
      rfl
  · obtain ⟨count, rfl⟩ := Nat.exists_eq_add_of_lt (Nat.lt_of_not_le hempty)
    rw [if_neg (by omega)]
    dsimp only
    rw [Nat.add_assoc first, Nat.add_sub_cancel_left]
    have hsum := @bodyOffsetForChunk_add header first (count + 1)
    have hlength : ∀ lo hi, (readObjectRange object lo hi).length =
        min hi object.content.length - lo := by
      intro lo hi
      simp [readObjectRange]
    have hlast := @bodyOffsetForChunk_succ header (first + count)
    rw [Nat.add_assoc] at hlast
    have hle := @bodyOffsetForChunk_mono header first (first + count) (by omega)
    have htag : 16 ≤ chunkCiphertextLen header (first + count) := Nat.le_add_left ..
    by_cases hend : place + bodyOffsetForChunk header (first + (count + 1)) ≤ object.content.length
    · rw [rejectIf_neg (by rw [hlength]; omega), ok_bind]
      have hzero : bodyOffsetForChunk header (first + 0) - bodyOffsetForChunk header first = 0 := by
        rw [Nat.add_zero, Nat.sub_self]
      constructor
      · intro h
        obtain ⟨⟨output, offset⟩, hloop, hout⟩ := bind_eq_ok.mp h
        obtain rfl := Except.ok.inj hout
        rw [← hzero] at hloop
        obtain ⟨piece, hpiece, hsame⟩ := @forChunks_pieces _ _
          (fun i => bodyOffsetForChunk header (first + i) - bodyOffsetForChunk header first)
          (fun i => OpensCut P key fileObjectId header object.content place start stop (first + i))
          _ _ hloop (by
            intro i next hi hstep
            rw [bodyRangeStep_eq hend (by omega)] at hstep
            obtain ⟨sealedChunk, hslice, hstep⟩ := bind_eq_ok.mp hstep
            obtain ⟨cut, hcut, hstep⟩ := bind_eq_ok.mp hstep
            obtain rfl := Except.ok.inj hstep
            exact ⟨⟨sealedChunk, okOr_eq_ok.mp hslice, hcut⟩, rfl⟩)
        obtain ⟨rfl, _⟩ := Prod.mk.inj hsame
        refine ⟨fun i => piece (i - first), ?_, ?_⟩
        · intro i hfirst hi
          have hpiece := hpiece (i - first) (by omega)
          rwa [Nat.add_sub_cancel' hfirst] at hpiece
        · rw [Nat.add_sub_cancel_left]
          refine List.flatMap_congr fun i _ => ?_
          exact (congrArg piece (Nat.add_sub_cancel_left first i)).symm
      · rintro ⟨piece, hpiece, rfl⟩
        have hloop := @forChunks_ok _ (fun i => bodyRangeStep P key fileObjectId header
            (readObjectRange object (place + bodyOffsetForChunk header first)
              (place + bodyOffsetForChunk header (first + (count + 1)))) start stop (first + i))
          (fun i => piece (first + i))
          (fun i => bodyOffsetForChunk header (first + i) - bodyOffsetForChunk header first)
          (count + 1) (fun i hi => by
            obtain ⟨sealedChunk, hslice, hcut⟩ := hpiece (first + i) (by omega) (by omega)
            rw [bodyRangeStep_eq hend (by omega), hslice, okOr_some, ok_bind, hcut, ok_bind]
            rfl)
        rw [hzero] at hloop
        rw [hloop, ok_bind, Nat.add_sub_cancel_left]
        rfl
    · rw [rejectIf_pos (by rw [hlength]; omega), error_bind]
      refine iff_of_false (fun h => nomatch h) ?_
      rintro ⟨piece, hpiece, _⟩
      obtain ⟨sealedChunk, hslice, _⟩ := hpiece (first + count) (by omega) (by omega)
      rw [Nat.add_assoc] at hslice
      exact hend (slice?_eq_some.mp hslice).2.1

/-- A cut is as long as the bytes from `start` to `stop` that lie in the chunk. -/
theorem OpensCut.length (h : OpensCut P key fileObjectId header content place start stop i piece)
    (hstop : stop ≤ header.plaintextByteSize) :
    piece.length = min stop ((i + 1) * header.chunkSize) - max start (i * header.chunkSize) := by
  obtain ⟨sealedChunk, _, hcut⟩ := h
  rw [chunkPlaintextLen_eq] at hcut
  unfold decryptCut FileCrypto.Format.chunkLen at hcut
  dsimp only at hcut
  rw [Nat.succ_mul]
  split at hcut
  · obtain ⟨nonce, _, hcut⟩ := bind_eq_ok.mp hcut
    obtain ⟨plaintext, _, hcut⟩ := bind_eq_ok.mp hcut
    rw [slice?_length (okOr_eq_ok.mp hcut)]
    omega
  · obtain rfl := Except.ok.inj hcut
    rw [List.length_nil]
    omega

theorem cuts_length {piece : Nat → Bytes} (k : Nat) (hstop : stop ≤ header.plaintextByteSize)
    (hfirst : first * header.chunkSize ≤ start) (hrange : start < stop)
    (hpiece : ∀ i, i < k →
      OpensCut P key fileObjectId header content place start stop (first + i) (piece (first + i))) :
    ((List.range k).flatMap fun i => piece (first + i)).length =
      min stop (max start ((first + k) * header.chunkSize)) - start := by
  induction k with
  | zero =>
    rw [Nat.add_zero, Nat.max_eq_left hfirst, Nat.min_eq_right (Nat.le_of_lt hrange), Nat.sub_self]
    rfl
  | succ k ih =>
    have hlength := (hpiece k (by omega)).length hstop
    rw [List.range_succ, List.flatMap_append, List.length_append, List.flatMap_singleton,
      ih fun i hi => hpiece i (by omega), hlength, ← Nat.add_assoc, Nat.succ_mul]
    have hle : first * header.chunkSize ≤ (first + k) * header.chunkSize :=
      Nat.mul_le_mul_right _ (by omega)
    omega

/-- The chunks that a range lies in hold as many bytes of it as it has. -/
theorem OpensTo.length (hpos : header.chunkSize ≠ 0) (hstop : stop ≤ header.plaintextByteSize)
    (hrange : start < stop)
    (h : OpensTo P key fileObjectId header content place start stop (start / header.chunkSize)
      ((stop - 1) / header.chunkSize + 1) out) : out.length = stop - start := by
  obtain ⟨piece, hpiece, rfl⟩ := h
  have hle : start / header.chunkSize ≤ (stop - 1) / header.chunkSize :=
    Nat.div_le_div_right (by omega)
  have hlast := @Nat.lt_div_mul_add (stop - 1) header.chunkSize (Nat.pos_of_ne_zero hpos)
  rw [cuts_length _ hstop (Nat.div_mul_le_self _ _) hrange
      fun i hi => hpiece _ (by omega) (by omega),
    Nat.add_sub_cancel' (by omega), Nat.succ_mul]
  omega

/-- Chunks open to one piece. -/
theorem OpensTo.unique {out' : Bytes}
    (h : OpensTo P key fileObjectId header content place start stop first behind out)
    (h' : OpensTo P key fileObjectId header content place start stop first behind out') :
    out' = out := by
  obtain ⟨piece, hpiece, rfl⟩ := h
  obtain ⟨piece', hpiece', rfl⟩ := h'
  refine List.flatMap_congr fun i hi => ?_
  have hi := List.mem_range.mp hi
  obtain ⟨sealedChunk, hslice, hcut⟩ := hpiece (first + i) (by omega) (by omega)
  obtain ⟨sealedChunk', hslice', hcut'⟩ := hpiece' (first + i) (by omega) (by omega)
  obtain rfl := Option.some.inj (hslice'.symm.trans hslice)
  exact Except.ok.inj (hcut'.symm.trans hcut)

/-! ## The header of an object -/

theorem slice?_of_take {n a b : Nat} (h : slice? (content.take n) a b = some piece) :
    slice? content a b = some piece := by
  obtain ⟨hab, hb, rfl⟩ := slice?_eq_some.mp h
  rw [List.length_take] at hb
  rw [slice?_eq_subarray hab (by omega)]
  unfold subarray
  rw [List.drop_take, List.take_take, Nat.min_eq_left (by omega)]

theorem readUInt_of_take {n width cursor : Nat} {read : Nat × Nat}
    (h : readUInt width (content.take n) cursor = .ok read) :
    readUInt width content cursor = .ok read := by
  obtain ⟨hvalue, hcursor⟩ := readUInt_eq_ok.mp h
  obtain ⟨bytes, hbytes, hread⟩ := Option.map_eq_some_iff.mp hvalue
  exact readUInt_eq_ok.mpr
    ⟨Option.map_eq_some_iff.mpr ⟨bytes, slice?_of_take hbytes, hread⟩, hcursor⟩

/-- The first bytes of an object have the header of the object. -/
theorem parseEncryptionHeader_of_take {n : Nat}
    (h : parseEncryptionHeader (content.take n) = .ok header) :
    parseEncryptionHeader content = .ok header := by
  have hm : fileMagic.length = 13 := by decide
  have hfixed : fileHeaderFixedLen = 65 := by decide
  unfold parseEncryptionHeader parseHeader at h ⊢
  dsimp only at h ⊢
  rw [hm, hfixed] at h ⊢
  obtain ⟨⟨header', body⟩, hparse, hheader⟩ := bind_eq_ok.mp h
  obtain rfl := Except.ok.inj hheader
  obtain ⟨_, hguard, h⟩ := bind_eq_ok.mp hparse
  obtain ⟨⟨version, cursor₁⟩, hversion, h⟩ := bind_eq_ok.mp h
  obtain ⟨_, hversion', h⟩ := bind_eq_ok.mp h
  obtain ⟨⟨chunkSize, cursor₂⟩, hchunks, h⟩ := bind_eq_ok.mp h
  obtain ⟨_, hpositive, h⟩ := bind_eq_ok.mp h
  obtain ⟨⟨size, cursor₃⟩, htotal, h⟩ := bind_eq_ok.mp h
  obtain ⟨sha, hdigest, h⟩ := bind_eq_ok.mp h
  obtain ⟨⟨count, cursor₄⟩, hcounted, h⟩ := bind_eq_ok.mp h
  obtain ⟨nonceBytes, hnonces, h⟩ := bind_eq_ok.mp h
  obtain ⟨rest, hbody, h⟩ := bind_eq_ok.mp h
  obtain ⟨rfl, _⟩ := Prod.ext_iff.mp (Except.ok.inj h)
  have hguard := rejectIf_eq_ok.mp hguard
  simp only [not_or, ne_eq, not_not, List.length_take, List.take_take] at hguard
  obtain ⟨hlong, hmagic⟩ := hguard
  rw [Nat.min_eq_left (by omega)] at hmagic
  have hnonces := slice?_of_take (okOr_eq_ok.mp hnonces)
  obtain ⟨hfrom, hto, _⟩ := slice?_eq_some.mp hnonces
  rw [rejectIf_neg (by simp only [not_or, ne_eq, not_not]; exact ⟨by omega, hmagic⟩), ok_bind,
    show readU32 content 13 = _ from readUInt_of_take hversion, ok_bind]
  dsimp only
  rw [hversion', ok_bind, show readU32 content cursor₁ = _ from readUInt_of_take hchunks, ok_bind]
  dsimp only
  rw [hpositive, ok_bind, show readU64 content cursor₂ = _ from readUInt_of_take htotal, ok_bind]
  dsimp only
  rw [slice?_of_take (okOr_eq_ok.mp hdigest), okOr_some, ok_bind,
    show readU32 content (cursor₃ + 32) = _ from readUInt_of_take hcounted, ok_bind]
  dsimp only
  rw [hnonces, okOr_some, ok_bind, slice?_eq_subarray hto (Nat.le_refl _), okOr_some, ok_bind]
  rfl

end Chunks

/-! ## Exact answers -/

/-- Where the sealed chunks of a file with this header begin. -/
def bodyPlace (header : FileEncryptionHeader) : Nat :=
  fileHeaderFixedLen + header.chunkCount * nonceLen

section Answers

variable (S : FileService) (db : AttachmentDb) (request : ContentRequest) (a : Attachment)
  (object : StoredObject)

/-- `body` is what stands in the plaintext from `start` to `stop`. -/
def IsPart (start stop : Nat) (body : Bytes) : Prop :=
  match a.encryption with
  | none => body = subarray object.content start (stop + 1)
  | some encryption =>
    ∃ key header,
      FileKeys.openDataKey S.keys S.fileMasterKey encryption.dataKeyEnvelope (utf8 a.objectKey)
        = .ok key ∧
      parseEncryptionHeader object.content = .ok header ∧
      OpensTo S.prims key a.file.id header object.content (bodyPlace header) start (stop + 1)
        (start / header.chunkSize) (stop / header.chunkSize + 1) body

/-- The status and the headers name the bytes from `start` to `stop`, which were asked for. -/
def Names (content : Content) (start stop : Nat) : Prop :=
  (request.range = none ∧ content.response.status = 200 ∧ start = 0 ∧
      stop = totalOf a object - 1 ∧ content.contentRange = none) ∨
    (content.response.status = 206 ∧
      content.contentRange = some (contentRangeText start stop (totalOf a object)) ∧
      ∃ value first last, request.range = some value ∧ Split value first last ∧
        Selects first last (totalOf a object) start stop)

/-- The answer is no part, all of an empty file, or the part that it names. -/
def Exact (content : Content) : Prop :=
  content.response.status = 416 ∨
    (totalOf a object = 0 ∧ content.response.status = 200 ∧ content.response.body = [] ∧
      content.contentLength = some 0 ∧ content.contentRange = none) ∨
    ∃ start stop, start ≤ stop ∧ stop < totalOf a object ∧
      Names request a object content start stop ∧
      content.contentLength = some content.response.body.length ∧
      content.response.body.length = stop - start + 1 ∧
      IsPart S a object start stop content.response.body

/-- Every answer to a `GET` is exact. -/
def RangesExact : Prop :=
  ∀ object content, request.head = false → db.objects a.objectKey = some object →
    attachmentPreviewContent S db request a = .ok content → Exact S request a object content

/-- The answer is read from the sealed chunks of an encrypted file. -/
structure ReadsSealed (encryption : FileEncryption) (key : FileCrypto.Key)
    (header : FileEncryptionHeader) (start stop : Nat) : Prop where
  get : request.head = false
  enabled : ensureAttachmentPreviewContentEnabled a = .ok ()
  stored : db.objects a.objectKey = some object
  encrypted : a.encryption = some encryption
  sized : 0 ≤ a.file.byteSize
  typed : isHeaderValue (contentTypeOf a object) = true
  filled : totalOf a object ≠ 0
  selected : ∃ status, selectRange request (totalOf a object) = some (status, start, stop)
  opened : FileKeys.openDataKey S.keys S.fileMasterKey encryption.dataKeyEnvelope
    (utf8 a.objectKey) = .ok key
  parsed : parseEncryptionHeader
    (readObjectRange object 0 (headerLenFor a.file.byteSize.toNat)) = .ok header

/-- The header is as long as the registered size calls for, and the numbers of the chunks fit. -/
def InPlace (header : FileEncryptionHeader) (stop : Nat) : Prop :=
  header.chunkCount = chunkCountFor a.file.byteSize.toNat fileChunkSize ∧
    stop / header.chunkSize + 1 < 2 ^ 32

/-- The range ends before the size that the header of the object tells, and what opens where the
registered size puts the chunks is what opens where they stand. -/
def Readable (key : FileCrypto.Key) (header : FileEncryptionHeader) (start stop : Nat) : Prop :=
  stop < header.plaintextByteSize ∧
    (InPlace a header stop ∨ ∀ out,
      OpensTo S.prims key a.file.id header object.content (headerLenFor a.file.byteSize.toNat) start
          (stop + 1) (asU32 (start / header.chunkSize))
          (asU32 (asU32 (stop / header.chunkSize) + 1)) out →
        OpensTo S.prims key a.file.id header object.content (bodyPlace header) start (stop + 1)
          (start / header.chunkSize) (stop / header.chunkSize + 1) out)

end Answers

section Exactness

variable {S : FileService} {db : AttachmentDb} {request : ContentRequest} {a : Attachment}
  {object : StoredObject} {content : Content} {status start stop total : Nat} {body : Bytes}

theorem attachmentPreviewContent_eq_ok (hobject : db.objects a.objectKey = some object) :
    attachmentPreviewContent S db request a = .ok content ↔
      ensureAttachmentPreviewContentEnabled a = .ok () ∧
        ¬ (a.encryption.isSome ∧ a.file.byteSize < 0) ∧
        (selectRange request (totalOf a object) = none ∧
            content = rangeNotSatisfiableResponse (totalOf a object) ∨
          ∃ status start stop body,
            selectRange request (totalOf a object) = some (status, start, stop) ∧
            readBody S a object request.head status start stop
              (selectedLengthOf (totalOf a object) start stop) = .ok body ∧
            isHeaderValue (contentTypeOf a object) = true ∧
            content =
              { response :=
                  { status := status, contentType := some (contentTypeOf a object), body := body }
                contentLength := some (selectedLengthOf (totalOf a object) start stop)
                contentRange := if status = 206 then
                  some (contentRangeText start stop (totalOf a object)) else none }) := by
  unfold attachmentPreviewContent
  rw [hobject, okOr_some, ok_bind]
  dsimp only
  constructor
  · intro h
    obtain ⟨_, henabled, h⟩ := bind_eq_ok.mp h
    obtain ⟨_, hsize, h⟩ := bind_eq_ok.mp h
    refine ⟨henabled, rejectIf_eq_ok.mp hsize, ?_⟩
    split at h
    · rename_i hselect
      exact .inl ⟨hselect, (Except.ok.inj h).symm⟩
    · rename_i status start stop hselect
      obtain ⟨body, hbody, h⟩ := bind_eq_ok.mp h
      obtain ⟨_, htyped, h⟩ := bind_eq_ok.mp h
      exact .inr ⟨status, start, stop, body, hselect, hbody, not_not.mp (rejectIf_eq_ok.mp htyped),
        (Except.ok.inj h).symm⟩
  · rintro ⟨henabled, hsize,
      ⟨hselect, rfl⟩ | ⟨status, start, stop, body, hselect, hbody, htyped, rfl⟩⟩
    · rw [henabled, ok_bind, rejectIf_neg hsize, ok_bind, hselect]
      rfl
    · rw [henabled, ok_bind, rejectIf_neg hsize, ok_bind, hselect]
      dsimp only
      rw [hbody, ok_bind, rejectIf_neg (not_not.mpr htyped), ok_bind]
      rfl

/-- What `selectRange` selects lies in the file. -/
theorem selectRange_eq_some (h : selectRange request total = some (status, start, stop)) :
    (request.range = none ∧ status = 200 ∧ start = 0 ∧ stop = total - 1) ∨
      (status = 206 ∧ ∃ value first last, request.range = some value ∧ Split value first last ∧
        Selects first last total start stop) := by
  unfold selectRange at h
  split at h
  · rename_i hnone
    obtain ⟨hstatus, hbounds⟩ := Prod.mk.inj (Option.some.inj h)
    obtain ⟨hstart, hstop⟩ := Prod.mk.inj hbounds
    exact .inl ⟨hnone, hstatus.symm, hstart.symm, hstop.symm⟩
  · rename_i value hvalue
    obtain ⟨⟨start', stop'⟩, hparse, hpart⟩ := Option.map_eq_some_iff.mp h
    obtain ⟨hstatus, hbounds⟩ := Prod.mk.inj hpart
    obtain ⟨rfl, rfl⟩ := Prod.mk.inj hbounds
    obtain ⟨first, last, hsplit, hselects⟩ := parseSingleByteRange_eq_some.mp hparse
    exact .inr ⟨hstatus.symm, value, first, last, hvalue, hsplit, hselects⟩

theorem Selects.bounds {first last : List Char} (h : Selects first last total start stop) :
    start ≤ stop ∧ stop < total := by
  obtain ⟨hpos, ⟨_, suffix, _, hsuffix, rfl, rfl⟩ | ⟨_, hlt, ⟨_, rfl⟩ | ⟨n, _, hle, rfl⟩⟩⟩ := h
  all_goals omega

theorem selectRange_bounds (h : selectRange request total = some (status, start, stop))
    (hpos : total ≠ 0) : start ≤ stop ∧ stop < total := by
  rcases selectRange_eq_some h with ⟨_, _, rfl, rfl⟩ | ⟨_, value, first, last, _, _, hselects⟩
  · omega
  · exact hselects.bounds

/-- What is read of an encrypted file. -/
theorem readDecrypted_eq_ok {encryption : FileEncryption} (hrange : start ≤ stop) :
    readDecryptedAttachmentRange S a encryption object start (stop + 1) = .ok body ↔
      ∃ key header,
        FileKeys.openDataKey S.keys S.fileMasterKey encryption.dataKeyEnvelope (utf8 a.objectKey)
          = .ok key ∧
        parseEncryptionHeader (readObjectRange object 0 (headerLenFor a.file.byteSize.toNat))
          = .ok header ∧
        (header.plaintextByteSize ≤ stop ∧ body = [] ∨ stop < header.plaintextByteSize ∧
          OpensTo S.prims key a.file.id header object.content
            (headerLenFor a.file.byteSize.toNat) start (stop + 1)
            (asU32 (start / header.chunkSize)) (asU32 (asU32 (stop / header.chunkSize) + 1))
            body) := by
  unfold readDecryptedAttachmentRange
  dsimp only
  rw [Nat.add_sub_cancel]
  constructor
  · intro h
    obtain ⟨key, hkey, h⟩ := bind_eq_ok.mp h
    obtain ⟨header, hheader, h⟩ := bind_eq_ok.mp h
    refine ⟨key, header, hkey, mapError_eq_ok.mp hheader, ?_⟩
    split at h
    · obtain rfl := Except.ok.inj h
      exact .inl ⟨by omega, rfl⟩
    · exact .inr ⟨by omega, (decryptBodyRange_eq_ok (by omega)).mp (mapError_eq_ok.mp h)⟩
  · rintro ⟨key, header, hkey, hheader, hread⟩
    rw [hkey, ok_bind, mapError_eq_ok.mpr hheader, ok_bind]
    rcases hread with ⟨hpast, rfl⟩ | ⟨hinside, hopens⟩
    · exact if_pos (by omega)
    · rw [if_neg (by omega)]
      exact mapError_eq_ok.mpr ((decryptBodyRange_eq_ok (by omega)).mpr hopens)

/-- The answer with a selected part of the file. -/
def partContent (a : Attachment) (object : StoredObject) (status start stop : Nat) (body : Bytes) :
    Content :=
  { response := { status := status, contentType := some (contentTypeOf a object), body := body }
    contentLength := some (selectedLengthOf (totalOf a object) start stop)
    contentRange := if status = 206 then
      some (contentRangeText start stop (totalOf a object)) else none }

/-- An answer names the part that the header selects. -/
theorem names_partContent
    (h : selectRange request (totalOf a object) = some (status, start, stop)) :
    Names request a object (partContent a object status start stop body) start stop := by
  rcases selectRange_eq_some h with ⟨hnone, rfl, rfl, rfl⟩ | ⟨rfl, hasked⟩
  · exact .inl ⟨hnone, rfl, rfl, rfl, rfl⟩
  · exact .inr ⟨rfl, rfl, hasked⟩

theorem bounds_of_names {start' stop' : Nat}
    (h : selectRange request (totalOf a object) = some (status, start, stop))
    (hnames : Names request a object content start' stop') : start' = start ∧ stop' = stop := by
  rcases hnames with ⟨hnone, _, rfl, rfl, _⟩ | ⟨_, _, value, first, last, hvalue, hsplit, hselects⟩
  · rcases selectRange_eq_some h with ⟨_, _, rfl, rfl⟩ | ⟨_, value, first, last, hvalue, _⟩
    · exact ⟨rfl, rfl⟩
    · exact absurd (hnone.symm.trans hvalue) (fun heq => nomatch heq)
  · rcases selectRange_eq_some h with ⟨hnone, _⟩ | ⟨_, value', first', last', hvalue', hasked⟩
    · exact absurd (hnone.symm.trans hvalue) (fun heq => nomatch heq)
    · obtain rfl := Option.some.inj (hvalue'.symm.trans hvalue)
      have hread := parseSingleByteRange_eq_some.mpr ⟨first, last, hsplit, hselects⟩
      have hread' := parseSingleByteRange_eq_some.mpr ⟨first', last', hasked⟩
      exact Prod.mk.inj (Option.some.inj (hread.symm.trans hread'))

/-- An answer that is not empty is exact if its body is the part that it names. -/
theorem exact_partContent_iff (hfilled : totalOf a object ≠ 0)
    (h : selectRange request (totalOf a object) = some (status, start, stop)) :
    Exact S request a object (partContent a object status start stop body) ↔
      body.length = stop - start + 1 ∧ IsPart S a object start stop body := by
  have hlength : selectedLengthOf (totalOf a object) start stop = stop - start + 1 := if_neg hfilled
  constructor
  · rintro (hstatus | ⟨hempty, _⟩ | ⟨start', stop', _, _, hnames, _, hsize, hpart⟩)
    · have hstatus : status = 416 := hstatus
      rcases selectRange_eq_some h with ⟨_, rfl, _⟩ | ⟨rfl, _⟩
      · cases hstatus
      · cases hstatus
    · exact absurd hempty hfilled
    · obtain ⟨rfl, rfl⟩ := bounds_of_names h hnames
      exact ⟨hsize, hpart⟩
  · rintro ⟨hsize, hpart⟩
    obtain ⟨hle, hlt⟩ := selectRange_bounds h hfilled
    refine .inr (.inr ⟨start, stop, hle, hlt, names_partContent h, ?_, hsize, hpart⟩)
    exact congrArg some (hlength.trans hsize.symm)

theorem exact_of_empty (hempty : totalOf a object = 0)
    (h : selectRange request (totalOf a object) = some (status, start, stop)) :
    Exact S request a object (partContent a object status start stop []) := by
  rcases selectRange_eq_some h with ⟨_, rfl, _⟩ | ⟨_, value, first, last, _, _, hpos, _⟩
  · exact .inr (.inl ⟨hempty, rfl, rfl, congrArg some (if_pos hempty), rfl⟩)
  · omega

/-- A file that is not encrypted is answered with its bytes. -/
theorem exact_of_plain (hplain : a.encryption = none) (hget : request.head = false)
    (hfilled : totalOf a object ≠ 0)
    (h : selectRange request (totalOf a object) = some (status, start, stop))
    (hbody : readBody S a object request.head status start stop
      (selectedLengthOf (totalOf a object) start stop) = .ok body) :
    body.length = stop - start + 1 ∧ IsPart S a object start stop body := by
  have htotal : totalOf a object = object.content.length := by
    unfold totalOf
    rw [hplain]
    rfl
  obtain ⟨hle, hlt⟩ := selectRange_bounds h hfilled
  have hlength : ¬ selectedLengthOf (totalOf a object) start stop = 0 := by
    rw [selectedLengthOf, if_neg hfilled]
    omega
  have hpart : body = subarray object.content start (stop + 1) := by
    unfold readBody at hbody
    rw [hget, hplain, if_neg (not_or.mpr ⟨Bool.false_ne_true, hlength⟩)] at hbody
    dsimp only at hbody
    rcases selectRange_eq_some h with ⟨_, rfl, rfl, rfl⟩ | ⟨rfl, _⟩
    · rw [if_neg (by decide)] at hbody
      obtain rfl := Except.ok.inj hbody
      rw [Nat.sub_add_cancel (Nat.pos_of_ne_zero hfilled), htotal, subarray, List.drop_zero,
        Nat.sub_zero, List.take_length]
    · rw [if_pos rfl] at hbody
      obtain rfl := Except.ok.inj hbody
      exact List.drop_take ..
  refine ⟨?_, ?_⟩
  · rw [hpart, subarray_length (by omega)]
    omega
  · unfold IsPart
    rw [hplain]
    exact hpart

/-- Where the chunks are in place, the two ways to open them are one. -/
theorem opensTo_inPlace_iff {key : FileCrypto.Key} {header : FileEncryptionHeader}
    (hplace : InPlace a header stop) (hle : start ≤ stop) :
    OpensTo S.prims key a.file.id header object.content (headerLenFor a.file.byteSize.toNat)
        start (stop + 1) (asU32 (start / header.chunkSize))
        (asU32 (asU32 (stop / header.chunkSize) + 1)) body ↔
      OpensTo S.prims key a.file.id header object.content (bodyPlace header) start (stop + 1)
        (start / header.chunkSize) (stop / header.chunkSize + 1) body := by
  obtain ⟨hcount, hsmall⟩ := hplace
  have hfirst : start / header.chunkSize ≤ stop / header.chunkSize := Nat.div_le_div_right hle
  have hsame : headerLenFor a.file.byteSize.toNat = bodyPlace header := by
    unfold headerLenFor bodyPlace
    rw [hcount]
  have hu32 : ∀ {n}, n < 2 ^ 32 → asU32 n = n := fun hn => Nat.mod_eq_of_lt hn
  rw [hsame, hu32 (show stop / header.chunkSize < 2 ^ 32 by omega), hu32 hsmall,
    hu32 (show start / header.chunkSize < 2 ^ 32 by omega)]

theorem readBody_encrypted {encryption : FileEncryption}
    (hencrypted : a.encryption = some encryption) (hget : request.head = false)
    (hfilled : totalOf a object ≠ 0) :
    readBody S a object request.head status start stop
        (selectedLengthOf (totalOf a object) start stop) =
      readDecryptedAttachmentRange S a encryption object start (stop + 1) := by
  have hlength : ¬ selectedLengthOf (totalOf a object) start stop = 0 := by
    rw [selectedLengthOf, if_neg hfilled]
    omega
  unfold readBody
  rw [hget, hencrypted, if_neg (not_or.mpr ⟨Bool.false_ne_true, hlength⟩)]

/-- What a part of an encrypted file is. -/
theorem isPart_encrypted {encryption : FileEncryption} {key : FileCrypto.Key}
    {header : FileEncryptionHeader} (hencrypted : a.encryption = some encryption)
    (hopened : FileKeys.openDataKey S.keys S.fileMasterKey encryption.dataKeyEnvelope
      (utf8 a.objectKey) = .ok key)
    (hparsed : parseEncryptionHeader object.content = .ok header) :
    IsPart S a object start stop body ↔
      OpensTo S.prims key a.file.id header object.content (bodyPlace header) start (stop + 1)
        (start / header.chunkSize) (stop / header.chunkSize + 1) body := by
  unfold IsPart
  rw [hencrypted]
  constructor
  · rintro ⟨key', header', hopened', hparsed', hopens⟩
    obtain rfl := Except.ok.inj (hopened'.symm.trans hopened)
    obtain rfl := Except.ok.inj (hparsed'.symm.trans hparsed)
    exact hopens
  · exact fun hopens => ⟨key, header, hopened, hparsed, hopens⟩

theorem chunkSize_pos {header : FileEncryptionHeader}
    (hparsed : parseEncryptionHeader object.content = .ok header) : header.chunkSize ≠ 0 := by
  unfold parseEncryptionHeader at hparsed
  obtain ⟨⟨header', rest⟩, hparse, hheader⟩ := bind_eq_ok.mp hparsed
  obtain rfl := Except.ok.inj hheader
  exact (parseHeader_raw hparse).1.positive

/-- The answers are exact if what is read of an encrypted file can be read. -/
theorem ranges_exact_iff : RangesExact S db request a ↔
    ∀ object encryption key header start stop,
      ReadsSealed S db request a object encryption key header start stop →
        Readable S a object key header start stop := by
  constructor
  · intro hexact object encryption key header start stop h
    obtain ⟨status, hselect⟩ := h.selected
    obtain ⟨hle, _⟩ := selectRange_bounds hselect h.filled
    have hanswer : ∀ body, readDecryptedAttachmentRange S a encryption object start (stop + 1)
        = .ok body → body.length = stop - start + 1 ∧ IsPart S a object start stop body := by
      intro body hbody
      rw [← exact_partContent_iff h.filled hselect]
      refine hexact object _ h.get h.stored ((attachmentPreviewContent_eq_ok h.stored).mpr
        ⟨h.enabled, fun hnegative => absurd h.sized (not_le.mpr hnegative.2), .inr
          ⟨status, start, stop, body, hselect, ?_, h.typed, rfl⟩⟩)
      rw [readBody_encrypted h.encrypted h.get h.filled]
      exact hbody
    have hparsed := parseEncryptionHeader_of_take h.parsed
    refine ⟨?_, .inr fun out hout => ?_⟩
    · by_contra hpast
      obtain ⟨hlength, _⟩ := hanswer [] ((readDecrypted_eq_ok hle).mpr
        ⟨key, header, h.opened, h.parsed, .inl ⟨Nat.le_of_not_lt hpast, rfl⟩⟩)
      cases hlength
    · by_cases hinside : stop < header.plaintextByteSize
      · obtain ⟨_, hpart⟩ := hanswer out ((readDecrypted_eq_ok hle).mpr
          ⟨key, header, h.opened, h.parsed, .inr ⟨hinside, hout⟩⟩)
        exact (isPart_encrypted h.encrypted h.opened hparsed).mp hpart
      · obtain ⟨hlength, _⟩ := hanswer [] ((readDecrypted_eq_ok hle).mpr
          ⟨key, header, h.opened, h.parsed, .inl ⟨Nat.le_of_not_lt hinside, rfl⟩⟩)
        cases hlength
  · intro hreadable object content hget hstored hanswer
    obtain ⟨henabled, hsize,
      ⟨hselect, rfl⟩ | ⟨status, start, stop, body, hselect, hbody, htyped, rfl⟩⟩ :=
      (attachmentPreviewContent_eq_ok hstored).mp hanswer
    · exact .inl rfl
    · by_cases hfilled : totalOf a object = 0
      · have hempty : selectedLengthOf (totalOf a object) start stop = 0 := if_pos hfilled
        unfold readBody at hbody
        rw [if_pos (.inr hempty)] at hbody
        obtain rfl := Except.ok.inj hbody
        exact exact_of_empty hfilled hselect
      · refine (exact_partContent_iff hfilled hselect).mpr ?_
        cases hencrypted : a.encryption with
        | none => exact exact_of_plain hencrypted hget hfilled hselect hbody
        | some encryption =>
          obtain ⟨hle, _⟩ := selectRange_bounds hselect hfilled
          rw [readBody_encrypted hencrypted hget hfilled] at hbody
          obtain ⟨key, header, hopened, hprefix, hread⟩ := (readDecrypted_eq_ok hle).mp hbody
          have hparsed := parseEncryptionHeader_of_take hprefix
          have hsized : 0 ≤ a.file.byteSize := by
            by_contra hnegative
            exact hsize ⟨by rw [hencrypted]; rfl, not_le.mp hnegative⟩
          obtain ⟨hinside, hopens⟩ := hreadable object encryption key header start stop
            ⟨hget, henabled, hstored, hencrypted, hsized, htyped, hfilled, ⟨status, hselect⟩,
              hopened, hprefix⟩
          obtain ⟨hpast, _⟩ | ⟨_, hout⟩ := hread
          · omega
          · have hown := hopens.elim (fun hplace => (opensTo_inPlace_iff hplace hle).mp hout)
              (fun hsame => hsame body hout)
            have hlength := hown.length (chunkSize_pos hparsed) hinside (by omega)
            exact ⟨by omega, (isPart_encrypted hencrypted hopened hparsed).mpr hown⟩

end Exactness

/-! ## A file that was encrypted -/

section Honest

variable {P : FileCrypto.Prims} {key : FileCrypto.Key} {fileObjectId : Int}
  {nonce : Nat → FileCrypto.Nonce} {plaintext : Bytes} {start stop : Nat}

open FileCrypto in
theorem readObjectRange_encoded {object : StoredObject} {lo hi : Nat}
    (hcontent : object.content = Format.encoded P key fileObjectId nonce plaintext) :
    readObjectRange object (bodyPlace (headerOf P nonce plaintext) + lo)
        (bodyPlace (headerOf P nonce plaintext) + hi) =
      subarray (Format.body P key fileObjectId nonce plaintext) lo hi := by
  have hplace : bodyPlace (headerOf P nonce plaintext) =
      (Format.header P nonce plaintext).length := by
    rw [Format.header_length]
    rfl
  unfold readObjectRange subarray
  rw [hcontent, hplace, Format.encoded, List.drop_take, ← List.drop_drop, List.drop_left,
    Nat.add_sub_add_left]

open FileCrypto in
/-- The chunks of an encrypted file hold its bytes. -/
theorem opensTo_encoded (hcount : Format.count plaintext.length < 2 ^ 32) (hrange : start < stop)
    (hstop : stop ≤ plaintext.length) :
    OpensTo P key fileObjectId (headerOf P nonce plaintext)
      (Format.encoded P key fileObjectId nonce plaintext) (bodyPlace (headerOf P nonce plaintext))
      start stop (start / Format.chunkSize) ((stop - 1) / Format.chunkSize + 1)
      (subarray plaintext start stop) := by
  have hlast := last_lt_count hrange hstop
  have hfirst : start / Format.chunkSize ≤ (stop - 1) / Format.chunkSize :=
    Nat.div_le_div_right (by omega)
  have hfetched := @decryptBodyRange_fetched P key fileObjectId nonce plaintext start stop hcount
    hrange hstop
  have hread := @readObjectRange_encoded P key fileObjectId nonce plaintext
    { contentType := none, content := Format.encoded P key fileObjectId nonce plaintext }
    (bodyOffsetForChunk (headerOf P nonce plaintext) (start / Format.chunkSize))
    (bodyOffsetForChunk (headerOf P nonce plaintext) ((stop - 1) / Format.chunkSize + 1)) rfl
  refine (@decryptBodyRange_eq_ok P key fileObjectId (headerOf P nonce plaintext) _ _ _ _ start stop
    { contentType := none, content := Format.encoded P key fileObjectId nonce plaintext }
    hrange).mp ?_
  rw [hread, bodyOffsetForChunk_eq (by omega), bodyOffsetForChunk_eq hlast]
  exact hfetched

end Honest

/-! ## The two laws of a range -/

open FileCrypto in
def plainService : FileService where
  prims := ⟨Aead.plain, Digest.const⟩
  keys := { aead := Aead.plain, fileKey := fun _ => .fill 32 0 }
  fileMasterKey := "0123456789abcdef"
  svgEvents := fun _ => []

open FileCrypto in
/-- The sealed byte, and a byte behind it. -/
def shortObject : StoredObject where
  contentType := none
  content := Format.encoded ⟨Aead.plain, Digest.const⟩ (.fill 32 0) 7 (fun _ => .fill 12 0) [104]
    ++ [0]

def shortAttachment : Attachment where
  id := 1
  file :=
    { id := 7, folderId := none, originalFilename := "note.txt", contentType := "text/plain"
      byteSize := 2, checksumSha256 := "", status := .uploaded }
  objectKey := "uploads/1.txt"
  targetType := .workItem
  targetId := 1
  encryption := some
    { dataKeyEnvelope := ((FileKeys.sealDataKey plainService.keys (.fill 12 0)
        plainService.fileMasterKey (.fill 32 0) (utf8 "uploads/1.txt")).toOption.getD "")
      encryptedByteSize := 95
      encryptedChecksumSha256 := "" }

def shortDb : AttachmentDb where
  attachments := [shortAttachment]
  nextFileObjectId := 8
  nextAttachmentId := 2
  folders := fun _ => none
  objects := fun _ => some shortObject

def wholeFile : ContentRequest := { head := false, range := none }

end Preview
end Web
end Yuance
