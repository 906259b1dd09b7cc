import Yuance.FileCrypto.Browser
import Yuance.Lib.Json
import Yuance.Network.ResponseContract
import Yuance.Web.PreviewContent

/-!
# Yuance.Web.PreviewFetch

`fetchPreviewBytes` of `api/static/document-preview-crypto.mjs` against the handlers of
`api/src/web/api/mod.rs` that serve a preview. The page tells a key envelope from the bytes of a
file by the type of the answer. It decrypts as `web/src/platform/browser/file-crypto.js` does.

* `previewContent`: the envelope of an encrypted file, or the bytes of another.
* `fetchPreviewBytes`: the result, and the URLs that are requested.
* `preview_exact_iff`: the bytes of the file come back unless their type reads as an envelope.
-/

namespace Yuance
namespace Web
namespace Preview

open Lib Platform Files
open Network.Rest (JsonValue)

/-! ## The page -/

/-- `Number(value)`. -/
inductive JsNumber where
  | nan
  | infinite (negative : Bool)
  | finite (q : Rat)

/-- What the page calls: `JSON.parse` of the decoded text, conversions, `atob`, `new URL` against
the address of the page, the query that asks for an envelope, and WebCrypto. -/
structure Page where
  parseJson : Bytes → Option JsonValue
  numberOf : JsonValue → JsNumber
  stringOf : JsonValue → String
  atob : String → Option Bytes
  resolve : String → Option String
  ensureClientDecryptQuery : String → String
  prims : FileCrypto.Prims

structure Answer where
  status : Nat
  contentType : Option String
  body : Bytes
  deriving DecidableEq

def Answer.isOk (answer : Answer) : Bool := 200 ≤ answer.status && answer.status ≤ 299

inductive PreviewError where
  | message (text : String)
  /-- `附件读取失败（HTTP …）`, with the beginning of the body. -/
  | status (status : Nat) (body : Bytes)
  /-- `new URL` fails. -/
  | url
  /-- `fetch` fails, or times out. -/
  | network
  | crypto (error : FileCrypto.Browser.Error)
  deriving DecidableEq

def isTruthy : JsonValue → Bool
  | .null => false
  | .bool b => b
  | .num q => q ≠ 0
  | .str s => s ≠ ""
  | .arr _ => true
  | .obj _ => true

/-- The text of a property, if it is a text. -/
def textOf (value : JsonValue) (key : String) : Option String :=
  match value.get? key with
  | some (.str s) => some s
  | _ => none

/-- What the envelope holds: the URL, and the encryption with its key. -/
structure Envelope where
  url : String
  encryption : JsonValue
  key : String
  fileObjectId : JsonValue

def readEnvelope (payload : JsonValue) : Option Envelope := do
  let url ← textOf payload "url"
  let encryption ← payload.get? "encryption"
  let key ← textOf encryption "key"
  let fileObjectId ← encryption.get? "file_object_id"
  if url ≠ "" && isTruthy encryption && isTruthy fileObjectId then
    some { url, encryption, key, fileObjectId }
  else none

/-- `/^[0-9a-f]{64}$/u`. -/
def isSha256 (value : String) : Bool :=
  value.toList.length = 64 && value.toList.all isLowerHex

/-- `Number(encryption.encrypted_byte_size) > 0` and the length is another. -/
def wrongSize (P : Page) (encryption : JsonValue) (length : Nat) : Bool :=
  match encryption.get? "encrypted_byte_size" with
  | none => false
  | some value =>
    match P.numberOf value with
    | .nan => false
    | .infinite negative => !negative
    | .finite q => 0 < q && (length : Rat) ≠ q

def checkChecksum (P : Page) (encryption : JsonValue) (ciphertext : Bytes) :
    Except PreviewError Unit :=
  match encryption.get? "encrypted_checksum_sha256" with
  | none => .ok ()
  | some value =>
    if isTruthy value then do
      rejectIf (isSha256 (P.stringOf value) = false) (.message "附件加密 SHA-256 校验值无效。")
      rejectIf (hexEncode (P.prims.sha.hash ciphertext) ≠ P.stringOf value)
        (.message "加密文件校验值不匹配。")
    else .ok ()

/-- `decryptFile` with a number as the id: what is no integer fails at the first chunk. -/
def decryptFileAs (P : Page) (dataKey : Bytes) (fileObjectId : JsNumber) (ciphertext : Bytes) :
    Except FileCrypto.Browser.Error Bytes :=
  match fileObjectId with
  | .finite q =>
    if q.den = 1 then FileCrypto.Browser.decryptFile P.prims dataKey q.num ciphertext
    else noInteger
  | _ => noInteger
where
  noInteger : Except FileCrypto.Browser.Error Bytes := do
    let header ← FileCrypto.Browser.parseEncryptionHeader ciphertext
    let _ ← FileCrypto.Browser.importAesGcmKey dataKey
    rejectIf (header.chunkCount ≠ 0) (.error "加密文件分块解密失败或数据被篡改")
    FileCrypto.Browser.decryptFile P.prims dataKey 0 ciphertext

/-- `decryptEncryptedPreviewPayload` behind the request for the ciphertext. -/
def openCiphertext (P : Page) (envelope : Envelope) (answer : Answer) :
    Except PreviewError Bytes := do
  rejectIf (answer.isOk = false)
    (.message ("加密附件读取失败（HTTP " ++ toString answer.status ++ "）。"))
  rejectIf (answer.body = []) (.message "加密附件内容为空，当前无法预览。")
  rejectIf (wrongSize P envelope.encryption answer.body.length = true)
    (.message "加密文件大小与登记不一致。")
  checkChecksum P envelope.encryption answer.body
  let key ← okOr (P.atob envelope.key) (.message "附件加密密钥格式无效。")
  (decryptFileAs P key (P.numberOf envelope.fileObjectId) answer.body).mapError .crypto

/-- The result, and the URLs that are requested. -/
abbrev Fetched := Except PreviewError Bytes × List String

def decryptEncryptedPreviewPayload (P : Page) (fetch : String → Option Answer)
    (payload : JsonValue) : Fetched :=
  match readEnvelope payload with
  | none => (.error (.message "附件加密预览信息不完整。"), [])
  | some envelope =>
    match P.resolve envelope.url with
    | none => (.error .url, [])
    | some target =>
      match fetch target with
      | none => (.error .network, [target])
      | some answer => (openCiphertext P envelope answer, [target])

/-- `contentType.includes("application/json")`. -/
def readsAsEnvelope (contentType : String) : Bool := hasText "application/json" contentType.toList

def fetchPreviewBytes (P : Page) (fetch : String → Option Answer) (sourceUrl : String) : Fetched :=
  let url := P.ensureClientDecryptQuery sourceUrl
  match fetch url with
  | none => (.error .network, [url])
  | some answer =>
    if answer.isOk = false then (.error (.status answer.status answer.body), [url])
    else if readsAsEnvelope (answer.contentType.getD "") then
      match P.parseJson answer.body with
      | none => (.error (.message "附件加密预览信息格式无效。"), [url])
      | some payload =>
        let opened := decryptEncryptedPreviewPayload P fetch payload
        (opened.1, url :: opened.2)
    else if answer.body = [] then (.error (.message "附件内容为空，当前无法预览。"), [url])
    else (.ok answer.body, [url])

/-! ## The handlers -/

/-- `EncryptedPreviewContentPayload`. -/
def encryptedPayload (a : Attachment) (encryption : FileEncryption) (url : String)
    (dataKey : Bytes) : Json :=
  .obj [("url", .str url),
    ("encryption", .obj [("algorithm", .str "AES-256-GCM"), ("format", .str "YUANCE-ENC-v1"),
      ("chunk_size", .num FileCrypto.Server.fileChunkSize),
      ("key", .str (Base64.encode Base64.standard dataKey)), ("file_object_id", .num a.file.id),
      ("plaintext_byte_size", .num a.file.byteSize),
      ("plaintext_sha256", .str a.file.checksumSha256),
      ("encrypted_byte_size", .num encryption.encryptedByteSize),
      ("encrypted_checksum_sha256", .str encryption.encryptedChecksumSha256)])]

/-- `encrypted_preview_content_response`. -/
def encryptedPreviewContentResponse (S : FileService) (presign : String → Except AppError String)
    (a : Attachment) : Except AppError Response := do
  ensureAttachmentPreviewContentEnabled a
  let encryption ← okOr a.encryption (.badRequest "附件未启用加密")
  let url ← presign a.objectKey
  let dataKey ← FileKeys.openDataKey S.keys S.fileMasterKey encryption.dataKeyEnvelope
    (utf8 a.objectKey)
  pure { status := 200, contentType := some "application/json"
         body := utf8 (Json.stringify (encryptedPayload a encryption url dataKey.val)) }

/-- The handlers of the preview content, as `fetchPreviewBytes` asks them: with `client_decrypt=1`
and without a range. -/
def previewContent (S : FileService) (db : AttachmentDb) (presign : String → Except AppError String)
    (a : Attachment) : Except AppError Response :=
  if a.encryption.isSome then encryptedPreviewContentResponse S presign a
  else attachmentPreviewContentResponse S db { head := false, range := none } a

/-! ## What the page relies on -/

mutual
/-- The value that `JSON.parse` gives for the text of a value. -/
def ofJson : Json → JsonValue
  | .null => .null
  | .bool b => .bool b
  | .num n => .num n
  | .str s => .str s
  | .arr items => .arr (ofJsonItems items)
  | .obj fields => .obj (ofJsonFields fields)

def ofJsonItems : List Json → List JsonValue
  | [] => []
  | item :: rest => ofJson item :: ofJsonItems rest

def ofJsonFields : List (String × Json) → List (String × JsonValue)
  | [] => []
  | (key, value) :: rest => (key, ofJson value) :: ofJsonFields rest
end

structure Page.Lawful (P : Page) : Prop where
  json : ∀ j, Json.Distinct j → P.parseJson (utf8 (Json.stringify j)) = some (ofJson j)
  number : ∀ n : Int, isSafeInteger n → P.numberOf (.num n) = .finite n
  text : ∀ s, P.stringOf (.str s) = s
  atob : ∀ b, P.atob (Base64.encode Base64.standard b) = some b

/-- The server behind `fetch`, and the object storage behind the signed URL. -/
structure World (P : Page) (S : FileService) (db : AttachmentDb)
    (presign : String → Except AppError String) (fetch : String → Option Answer) (a : Attachment)
    (object : StoredObject) (sourceUrl : String) : Prop where
  prims : P.prims = S.prims
  stored : db.objects a.objectKey = some object
  served : ∀ response, previewContent S db presign a = .ok response →
    fetch (P.ensureClientDecryptQuery sourceUrl)
      = some { status := response.status, contentType := response.contentType
               body := response.body }
  failed : ∀ error, previewContent S db presign a = .error error →
    ∃ answer, fetch (P.ensureClientDecryptQuery sourceUrl) = some answer ∧ answer.isOk = false
  signed : ∃ url target contentType, presign a.objectKey = .ok url ∧ url ≠ "" ∧
    P.resolve url = some target ∧
    fetch target = some { status := 200, contentType := contentType, body := object.content }

/-- An encrypted file as the encoders write it and as it is registered. -/
structure Sealed (S : FileService) (a : Attachment) (object : StoredObject) (plaintext : Bytes) :
    Prop where
  id : 1 ≤ a.file.id ∧ a.file.id ≤ maxSafeInteger
  size : (plaintext.length : Int) ≤ maxAttachmentByteSize
  written : ∃ encryption key nonce, a.encryption = some encryption ∧
    FileKeys.openDataKey S.keys S.fileMasterKey encryption.dataKeyEnvelope (utf8 a.objectKey)
      = .ok key ∧
    object.content = FileCrypto.Format.encoded S.prims key a.file.id nonce plaintext ∧
    encryption.encryptedByteSize = object.content.length ∧
    encryption.encryptedChecksumSha256 = hexEncode (S.prims.sha.hash object.content)

/-- A file that is not encrypted comes back as it is stored, by one request; an encrypted one comes
back decrypted. -/
def PreviewExact (P : Page) (S : FileService) (fetch : String → Option Answer) (a : Attachment)
    (object : StoredObject) (sourceUrl : String) : Prop :=
  (a.encryption = none → fetchPreviewBytes P fetch sourceUrl
    = (.ok object.content, [P.ensureClientDecryptQuery sourceUrl])) ∧
  (∀ plaintext, Sealed S a object plaintext →
    (fetchPreviewBytes P fetch sourceUrl).1 = .ok plaintext)

/-! ## Files that are not encrypted -/

section Preview

variable {P : Page} {S : FileService} {db : AttachmentDb}
  {presign : String → Except AppError String} {fetch : String → Option Answer} {a : Attachment}
  {object : StoredObject} {sourceUrl : String}

theorem previewContent_plain (hstored : db.objects a.objectKey = some object)
    (henabled : ensureAttachmentPreviewContentEnabled a = .ok ()) (hplain : a.encryption = none)
    (hcontent : object.content ≠ []) : previewContent S db presign a
      = rejectIf (¬ isHeaderValue (contentTypeOf a object)) (.badRequest "invalid header value")
        >>= fun _ => .ok { status := 200, contentType := some (contentTypeOf a object)
                           body := object.content } := by
  have hlength : object.content.length ≠ 0 := by
    intro h
    exact hcontent (List.eq_nil_of_length_eq_zero h)
  have hbody : readBody S a object false 200 0 (object.content.length - 1)
      (object.content.length - 1 - 0 + 1) = .ok object.content := by
    unfold readBody
    rw [hplain, if_neg]
    · rfl
    · rintro (h | h)
      · cases h
      · omega
  have hnone : ¬ ((none : Option FileEncryption).isSome = true ∧ a.file.byteSize < 0) :=
    fun h => Bool.false_ne_true h.1
  unfold previewContent attachmentPreviewContentResponse
  rw [hplain, henabled, hstored, ok_bind, okOr_some, ok_bind, rejectIf_neg hnone, ok_bind]
  rw [Option.isSome_none, if_neg Bool.false_ne_true]
  dsimp only [selectRange]
  rw [if_neg Bool.false_ne_true, if_neg hlength, hbody, ok_bind]
  rfl

/-- What comes from an envelope has needed another request. -/
theorem decrypt_requests {payload : JsonValue} {bytes : Bytes}
    (h : (decryptEncryptedPreviewPayload P fetch payload).1 = .ok bytes) :
    (decryptEncryptedPreviewPayload P fetch payload).2 ≠ [] := by
  unfold decryptEncryptedPreviewPayload at h ⊢
  split at h
  · cases h
  · split at h
    · cases h
    · split
      · exact List.cons_ne_nil _ _
      · exact List.cons_ne_nil _ _

theorem not_failed (contentType : Option String) (body : Bytes) :
    ¬ Answer.isOk { status := 200, contentType := contentType, body := body } = false :=
  fun h => nomatch h

/-- The answer is not that of the file, or it is taken for an envelope. -/
theorem fetch_plain_iff (W : World P S db presign fetch a object sourceUrl)
    (henabled : ensureAttachmentPreviewContentEnabled a = .ok ()) (hplain : a.encryption = none)
    (hcontent : object.content ≠ []) :
    fetchPreviewBytes P fetch sourceUrl
        = (.ok object.content, [P.ensureClientDecryptQuery sourceUrl]) ↔
      isHeaderValue (contentTypeOf a object) = true ∧
        readsAsEnvelope (contentTypeOf a object) = false := by
  have hanswer := @previewContent_plain S db presign a object W.stored henabled hplain hcontent
  cases hheader : isHeaderValue (contentTypeOf a object) with
  | false =>
    rw [hheader, rejectIf_pos (by decide), error_bind] at hanswer
    obtain ⟨answer, hfetch, hfails⟩ := W.failed _ hanswer
    refine ⟨fun h => ?_, fun h => nomatch h.1⟩
    unfold fetchPreviewBytes at h
    dsimp only at h
    rw [hfetch] at h
    dsimp only at h
    rw [if_pos hfails] at h
    cases h
  | true =>
    rw [hheader, rejectIf_neg (by decide), ok_bind] at hanswer
    have hfetch := W.served _ hanswer
    unfold fetchPreviewBytes
    dsimp only
    rw [hfetch]
    dsimp only
    rw [if_neg (not_failed _ _), Option.getD_some]
    cases hreads : readsAsEnvelope (contentTypeOf a object) with
    | false =>
      rw [if_neg Bool.false_ne_true, if_neg hcontent]
      exact ⟨fun _ => ⟨rfl, rfl⟩, fun _ => rfl⟩
    | true =>
      rw [if_pos rfl]
      refine ⟨fun h => ?_, fun h => nomatch h.2⟩
      -- what is read as an envelope leads to an error or to another request
      cases hpayload : P.parseJson object.content with
      | none =>
        rw [hpayload] at h
        cases h
      | some payload =>
        rw [hpayload] at h
        obtain ⟨hresult, hrequests⟩ := Prod.mk.inj h
        exact absurd (List.cons.inj hrequests).2 (decrypt_requests hresult)

/-! ## Encrypted files -/

theorem hexChars_length (b : Bytes) : (hexChars b).length = 2 * b.length := by
  unfold hexChars
  rw [List.length_flatMap]
  induction b with
  | nil => rfl
  | cons x b ih =>
    rw [List.map_cons, List.sum_cons, ih, List.length_cons]
    exact (Nat.mul_succ 2 _).symm ▸ Nat.add_comm _ _

theorem hexDigit_isLowerHex {n : Nat} (h : n < 16) : isLowerHex (hexDigit n) = true := by
  have hall : (List.range 16).all (fun n => isLowerHex (hexDigit n)) = true := by decide
  exact List.all_eq_true.mp hall n (List.mem_range.mpr h)

theorem hexEncode_isSha256 {b : Bytes} (h : b.length = 32) : isSha256 (hexEncode b) = true := by
  unfold isSha256 hexEncode
  rw [String.toList_ofList, hexChars_length, h]
  refine (Bool.and_eq_true _ _).mpr ⟨rfl, List.all_eq_true.mpr fun c hc => ?_⟩
  unfold hexChars at hc
  obtain ⟨x, _, hx⟩ := List.mem_flatMap.mp hc
  have hlt : x.toNat < 256 := UInt8.toNat_lt x
  rcases List.mem_cons.mp hx with rfl | hx
  · exact hexDigit_isLowerHex (by omega)
  · rw [List.mem_singleton.mp hx]
    exact hexDigit_isLowerHex (by omega)

/-- Names differ in every object of the envelope. -/
theorem encryptedPayload_distinct (encryption : FileEncryption) (url : String) (dataKey : Bytes) :
    Json.Distinct (encryptedPayload a encryption url dataKey) := by
  have hobject : ∀ (names : List String) (fields : List (String × Json)),
      fields.map Prod.fst = names → names.Nodup → (∀ f ∈ fields, Json.Distinct f.2) →
      Json.Distinct (.obj fields) := by
    rintro names fields rfl hk h
    exact .obj hk h
  unfold encryptedPayload
  refine hobject ["url", "encryption"] _ rfl (by decide) ?_
  intro f hf
  rcases List.mem_cons.mp hf with rfl | hf
  · exact .str _
  · rw [List.mem_singleton.mp hf]
    refine hobject ["algorithm", "format", "chunk_size", "key", "file_object_id",
      "plaintext_byte_size", "plaintext_sha256", "encrypted_byte_size",
      "encrypted_checksum_sha256"] _ rfl (by decide) ?_
    intro g hg
    simp only [List.mem_cons, List.not_mem_nil, or_false] at hg
    rcases hg with rfl | rfl | rfl | rfl | rfl | rfl | rfl | rfl | rfl
    · exact .str _
    · exact .str _
    · exact .num _
    · exact .str _
    · exact .num _
    · exact .num _
    · exact .str _
    · exact .num _
    · exact .str _

/-- The fields of the envelope as the page sees them. -/
def seenEncryption (a : Attachment) (encryption : FileEncryption) (dataKey : Bytes) : JsonValue :=
  .obj [("algorithm", .str "AES-256-GCM"), ("format", .str "YUANCE-ENC-v1"),
    ("chunk_size", .num ((FileCrypto.Server.fileChunkSize : Int) : Rat)),
    ("key", .str (Base64.encode Base64.standard dataKey)),
    ("file_object_id", .num (a.file.id : Rat)),
    ("plaintext_byte_size", .num (a.file.byteSize : Rat)),
    ("plaintext_sha256", .str a.file.checksumSha256),
    ("encrypted_byte_size", .num (encryption.encryptedByteSize : Rat)),
    ("encrypted_checksum_sha256", .str encryption.encryptedChecksumSha256)]

theorem readEnvelope_encryptedPayload {encryption : FileEncryption} {url : String}
    (dataKey : Bytes) (hurl : url ≠ "") (hid : a.file.id ≠ 0) :
    readEnvelope (ofJson (encryptedPayload a encryption url dataKey))
      = some { url := url, encryption := seenEncryption a encryption dataKey
               key := Base64.encode Base64.standard dataKey, fileObjectId := .num a.file.id } := by
  have hnumber : isTruthy (.num (a.file.id : Rat)) = true := by
    refine decide_eq_true ?_
    exact_mod_cast hid
  have htruthy : (decide (url ≠ "") && isTruthy (seenEncryption a encryption dataKey) &&
      isTruthy (.num (a.file.id : Rat))) = true := by
    rw [decide_eq_true hurl, hnumber]
    rfl
  exact if_pos htruthy

theorem decryptFileAs_of_int (dataKey : Bytes) (fileObjectId : Int) (ciphertext : Bytes) :
    decryptFileAs P dataKey (.finite fileObjectId) ciphertext
      = FileCrypto.Browser.decryptFile P.prims dataKey fileObjectId ciphertext := by
  unfold decryptFileAs
  dsimp only
  rw [if_pos (Rat.den_intCast fileObjectId), Rat.num_intCast]

/-- The ciphertext of a file opens, where the figures of its row are right. -/
theorem openCiphertext_sealed (L : P.Lawful) {encryption : FileEncryption} {key : FileCrypto.Key}
    {nonce : Nat → FileCrypto.Nonce} {plaintext content : Bytes} (url : String)
    (contentType : Option String)
    (hid : 1 ≤ a.file.id ∧ a.file.id ≤ maxSafeInteger)
    (hsmall : (plaintext.length : Int) ≤ maxAttachmentByteSize)
    (hcontent : content = FileCrypto.Format.encoded P.prims key a.file.id nonce plaintext)
    (hsize : encryption.encryptedByteSize = content.length)
    (hchecksum : encryption.encryptedChecksumSha256 = hexEncode (P.prims.sha.hash content)) :
    openCiphertext P
        { url := url, encryption := seenEncryption a encryption key.val
          key := Base64.encode Base64.standard key.val, fileObjectId := .num a.file.id }
        { status := 200, contentType := contentType, body := content } = .ok plaintext := by
  have hplaintext : plaintext.length ≤ 1073741824 := by
    unfold maxAttachmentByteSize at hsmall
    omega
  have hcount : FileCrypto.Format.count plaintext.length ≤ 1024 := by
    unfold FileCrypto.Format.count FileCrypto.Format.chunkSize ceilDiv
    split
    · omega
    · omega
  have hlength : content.length = 65 + FileCrypto.Format.count plaintext.length * 12
      + (plaintext.length + FileCrypto.Format.count plaintext.length * 16) := by
    rw [hcontent, FileCrypto.Format.encoded_length]
    rfl
  have hne : ¬ content = [] := by
    intro hnil
    rw [hnil, List.length_nil] at hlength
    omega
  have hsafe : isSafeInteger content.length := by
    unfold isSafeInteger maxSafeInteger
    omega
  have hright : wrongSize P (seenEncryption a encryption key.val) content.length = false := by
    have hnumber : P.numberOf (.num (encryption.encryptedByteSize : Rat))
        = .finite (content.length : Int) := by
      rw [hsize]
      exact L.number _ hsafe
    have hfield : (seenEncryption a encryption key.val).get? "encrypted_byte_size"
        = some (.num (encryption.encryptedByteSize : Rat)) := rfl
    have hequal : ((content.length : Nat) : Rat) = ((content.length : Int) : Rat) := by norm_cast
    unfold wrongSize
    rw [hfield]
    dsimp only
    rw [hnumber]
    dsimp only
    rw [decide_eq_false (not_not_intro hequal), Bool.and_false]
  have hsum : checkChecksum P (seenEncryption a encryption key.val) content = .ok () := by
    have hfield : (seenEncryption a encryption key.val).get? "encrypted_checksum_sha256"
        = some (.str encryption.encryptedChecksumSha256) := rfl
    have hdigest : isSha256 encryption.encryptedChecksumSha256 = true := by
      rw [hchecksum]
      exact hexEncode_isSha256 (P.prims.sha.length_hash content)
    have hne : encryption.encryptedChecksumSha256 ≠ "" := by
      intro hempty
      rw [hempty] at hdigest
      cases hdigest
    unfold checkChecksum
    rw [hfield]
    dsimp only
    have htruthy : isTruthy (.str encryption.encryptedChecksumSha256) = true := decide_eq_true hne
    rw [if_pos htruthy, L.text, hdigest, rejectIf_neg (Ne.symm Bool.false_ne_true), ok_bind,
      rejectIf_neg (not_not_intro hchecksum.symm)]
  have hkey : P.atob (Base64.encode Base64.standard key.val) = some key.val := L.atob _
  have hfile : decryptFileAs P key.val (P.numberOf (.num a.file.id)) content = .ok plaintext := by
    rw [L.number _ ⟨by unfold maxSafeInteger; omega, hid.2⟩, decryptFileAs_of_int, hcontent]
    exact FileCrypto.Browser.decryptFile_encoded (by omega)
  unfold openCiphertext
  rw [rejectIf_neg (not_failed _ _), ok_bind, rejectIf_neg hne, ok_bind,
    rejectIf_neg (by rw [hright]; exact Bool.false_ne_true), ok_bind, hsum, ok_bind, hkey,
    okOr_some, ok_bind, hfile]
  rfl

theorem fetch_sealed (W : World P S db presign fetch a object sourceUrl) (L : P.Lawful)
    (henabled : ensureAttachmentPreviewContentEnabled a = .ok ()) {plaintext : Bytes}
    (hsealed : Sealed S a object plaintext) :
    (fetchPreviewBytes P fetch sourceUrl).1 = .ok plaintext := by
  obtain ⟨hid, hsmall, encryption, key, nonce, hencrypted, hopened, hcontent, hsize, hchecksum⟩ :=
    hsealed
  obtain ⟨url, target, contentType, hpresign, hurl, hresolve, hfetch⟩ := W.signed
  have hresponse : previewContent S db presign a
      = .ok { status := 200, contentType := some "application/json"
              body := utf8 (Json.stringify (encryptedPayload a encryption url key.val)) } := by
    unfold previewContent encryptedPreviewContentResponse
    rw [hencrypted, Option.isSome_some, if_pos rfl, henabled, ok_bind, okOr_some, ok_bind, hpresign,
      ok_bind, hopened, ok_bind]
    rfl
  have hserved := W.served _ hresponse
  have hreads : readsAsEnvelope ((some "application/json").getD "") = true := by decide
  rw [← W.prims] at hcontent hchecksum
  unfold fetchPreviewBytes
  dsimp only
  rw [hserved]
  dsimp only
  rw [if_neg (not_failed _ _), if_pos hreads, L.json _ (encryptedPayload_distinct _ _ _)]
  dsimp only
  unfold decryptEncryptedPreviewPayload
  rw [readEnvelope_encryptedPayload key.val hurl (by omega)]
  dsimp only
  rw [hresolve]
  dsimp only
  rw [hfetch]
  exact openCiphertext_sealed L url contentType hid hsmall hcontent hsize hchecksum

end Preview

/-! ## Samples -/

/-- The answer of the server behind the address of the preview, and the object behind all others. -/
def sampleFetch (S : FileService) (db : AttachmentDb) (presign : String → Except AppError String)
    (a : Attachment) (object : StoredObject) (url : String) : Option Answer :=
  if url = "/preview?client_decrypt=1" then
    match previewContent S db presign a with
    | .ok response => some
        { status := response.status, contentType := response.contentType, body := response.body }
    | .error _ => some { status := 400, contentType := none, body := [] }
  else some { status := 200, contentType := none, body := object.content }

def samplePage : Page where
  parseJson := fun bytes => ((fromUtf8 bytes).bind Json.parse).map ofJson
  numberOf := fun value =>
    match value with
    | .num q => .finite q
    | _ => .nan
  stringOf := fun value =>
    match value with
    | .str s => s
    | _ => ""
  atob := Base64.decode Base64.standard
  resolve := some
  ensureClientDecryptQuery := (· ++ "?client_decrypt=1")
  prims := plainService.prims

theorem samplePage_lawful : samplePage.Lawful where
  json := by
    intro j hj
    have hparse : Json.parse (Json.stringify j ++ "") = some j :=
      Json.parse_stringify hj fun _ hc => nomatch hc
    rw [String.append_empty] at hparse
    unfold samplePage
    dsimp only
    rw [fromUtf8_utf8, Option.bind_some, hparse, Option.map_some]
  number := fun _ _ => rfl
  text := fun _ => rfl
  atob := fun b => Base64.decode_encode Base64.standard_lawful b

def samplePresign : String → Except AppError String := fun _ => .ok "https://store.example/object"

theorem sampleFetch_world {db : AttachmentDb} {a : Attachment} {object : StoredObject}
    (h : db.objects a.objectKey = some object) :
    World samplePage plainService db samplePresign
      (sampleFetch plainService db samplePresign a object) a object "/preview" where
  prims := rfl
  stored := h
  served := by
    intro response hresponse
    unfold sampleFetch
    rw [hresponse]
    exact if_pos rfl
  failed := by
    intro error herror
    refine ⟨{ status := 400, contentType := none, body := [] }, ?_, rfl⟩
    unfold sampleFetch
    rw [herror]
    exact if_pos rfl
  signed := by
    refine ⟨"https://store.example/object", "https://store.example/object", none, rfl, by decide,
      rfl, ?_⟩
    exact if_neg (by decide)

def plainAttachment (filename contentType : String) : Attachment :=
  { shortAttachment with
    encryption := none
    file :=
      { shortAttachment.file with originalFilename := filename, contentType := contentType } }

def storedUnder (object : StoredObject) : AttachmentDb :=
  { shortDb with objects := fun _ => some object }

/-- One line of text, stored with its type. -/
def noteObject : StoredObject where
  contentType := some "text/plain"
  content := utf8 "one line"

/-- An archive that is stored as JSON, with an envelope of its own in it. -/
def disguisedObject : StoredObject where
  contentType := some "application/json"
  content := utf8 (Json.stringify (.obj [("url", .str "https://elsewhere.example/"),
    ("encryption", .obj [("key", .str ""), ("file_object_id", .num 1)])]))

def disguisedAttachment : Attachment := plainAttachment "archive.zip" "application/json"

end Preview
end Web
end Yuance
