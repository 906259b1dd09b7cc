import Yuance.Lib.Runs
import Yuance.Web.AttachmentPreview

/-!
# Yuance.Web.AttachmentUploads

The confirmation of uploads in `api/src/web/api/mod.rs`, for work items, comments, projects and
resources, and what of it is served as SVG.

* `UploadRequest`, `step`: registrations, uploads and confirmations in any order.
* `Checked`: a confirmation that does not pass an unvalidated drawing by.
* `served_svg_validated`: in a run of such confirmations, what is served as SVG was validated.
-/

namespace Yuance
namespace Web

open Lib Platform Files Preview

/-! ## The handlers -/

/-- The handlers that only compare the object with what was registered. `context` is the target, if
the requester may write to it. -/
def confirmUpload (targetType : TargetType) (S : FileService) (context : Except AppError Int)
    (attachmentId : Int) (db : AttachmentDb) : Except AppError AttachmentDb := do
  let targetId ← context
  let attachment ← getAttachmentForTarget db attachmentId targetType targetId
  let actualChecksumSha256 ← verifyUploadedObject S db attachment.objectKey attachment.file.byteSize
    attachment.file.contentType
  markFileUploadedWithChecksum attachment actualChecksumSha256 db

def workItemAttachmentMarkUploaded (S : FileService) (context : Except AppError Int)
    (attachmentId : Int) (db : AttachmentDb) : Except AppError AttachmentDb :=
  confirmUpload .workItem S context attachmentId db

def workItemCommentAttachmentMarkUploaded (S : FileService) (context : Except AppError Int)
    (attachmentId : Int) (db : AttachmentDb) : Except AppError AttachmentDb :=
  confirmUpload .comment S context attachmentId db

def projectAttachmentMarkUploaded (S : FileService) (context : Except AppError Int)
    (attachmentId : Int) (db : AttachmentDb) : Except AppError AttachmentDb :=
  confirmUpload .project S context attachmentId db

def validateSvgAttachmentContent (S : FileService) (db : AttachmentDb) (a : Attachment) :
    Except AppError Unit :=
  if toAsciiLowercase a.file.contentType ≠ "image/svg+xml" then .ok ()
  else do
    rejectIf (a.file.byteSize > 16 * 1024 * 1024) (.badRequest "SVG 文件超过安全大小限制")
    let object ← okOr (db.objects a.objectKey) (.badRequest "读取对象存储元数据失败")
    let content ← plaintextOf S a object.content
    Svg.validateSvgContent S.svgEvents content

/-- The body of a confirmation: nothing, a JSON object with the digest of the ciphertext or without
it, or something else. -/
inductive MarkUploadedBody where
  | empty
  | request (encryptedSha256 : Option String)
  | malformed (error : String)

def parseMarkUploadedRequest : MarkUploadedBody → Except AppError (Option String)
  | .empty => .ok none
  | .request encryptedSha256 => .ok encryptedSha256
  | .malformed error => .error (.badRequest ("上传完成登记参数无效：" ++ error))

def projectResourceAttachmentMarkUploaded (S : FileService) (context : Except AppError Int)
    (attachmentId : Int) (body : MarkUploadedBody) (db : AttachmentDb) :
    Except AppError AttachmentDb := do
  let targetId ← context
  let attachment ← getAttachmentForTarget db attachmentId .projectResource targetId
  if attachment.encryption.isSome then do
    let encryptedSha256 ← parseMarkUploadedRequest body
    let encryptedChecksumSha256 ← okOr encryptedSha256
      (.badRequest "加密附件上传完成登记缺少密文 SHA-256")
    let encryptedByteSize := FileCrypto.Server.encryptedTotalSize attachment.file.byteSize.toNat
    rejectIf (2 ^ 63 ≤ encryptedByteSize) (.badRequest "加密文件大小超出系统支持范围")
    let actualChecksumSha256 ← verifyUploadedObject S db attachment.objectKey encryptedByteSize
      "application/octet-stream"
    rejectIf (actualChecksumSha256 ≠ encryptedChecksumSha256)
      (.badRequest "上传对象 SHA-256 与提交的密文摘要不一致")
    validateSvgAttachmentContent S db attachment
    markAttachmentUploadedEncrypted attachment encryptedByteSize actualChecksumSha256 db
  else do
    let actualChecksumSha256 ← verifyUploadedObject S db attachment.objectKey
      attachment.file.byteSize attachment.file.contentType
    validateSvgAttachmentContent S db attachment
    markFileUploadedWithChecksum attachment actualChecksumSha256 db

/-! ## Runs -/

/-- A request, or an upload to the storage. A registration comes with what is drawn for it. -/
inductive UploadRequest where
  | register (targetType : TargetType) (context : Except AppError Unit)
      (input : CreateAttachmentInput) (checksumSha256 objectKey : String) (drawn : DrawnKey)
  | upload (objectKey : String) (object : StoredObject)
  | markUploaded (targetType : TargetType) (context : Except AppError Int) (attachmentId : Int)
      (body : MarkUploadedBody)

def targetTypeName : TargetType → String
  | .project => "project"
  | .workItem => "work_item"
  | .comment => "comment"
  | .projectResource => "project_resource"

/-- The registration of a target's handler: only resources are encrypted. -/
def register (S : FileService) (targetType : TargetType) (context : Except AppError Unit)
    (input : CreateAttachmentInput) (checksumSha256 objectKey : String) (drawn : DrawnKey)
    (db : AttachmentDb) : Except AppError AttachmentDb := do
  context
  let (db, _) ← createAttachmentInner S objectKey
    (if targetType = .projectResource then some drawn else none)
    { input with targetType := targetTypeName targetType } checksumSha256 db
  pure db

def markUploaded (S : FileService) (targetType : TargetType) (context : Except AppError Int)
    (attachmentId : Int) (body : MarkUploadedBody) (db : AttachmentDb) :
    Except AppError AttachmentDb :=
  match targetType with
  | .workItem => workItemAttachmentMarkUploaded S context attachmentId db
  | .comment => workItemCommentAttachmentMarkUploaded S context attachmentId db
  | .project => projectAttachmentMarkUploaded S context attachmentId db
  | .projectResource => projectResourceAttachmentMarkUploaded S context attachmentId body db

/-- A refused request leaves everything as it is. -/
def answered (db : AttachmentDb) :
    Except AppError AttachmentDb → Option (AttachmentDb × Except AppError Unit)
  | .ok db' => some (db', .ok ())
  | .error e => some (db, .error e)

/-- An object is not replaced once a file that was confirmed is stored in it. -/
def Frozen (db : AttachmentDb) (objectKey : String) : Prop :=
  ∃ a ∈ db.attachments, a.file.status = .uploaded ∧ a.objectKey = objectKey

instance (db : AttachmentDb) (objectKey : String) : Decidable (Frozen db objectKey) :=
  inferInstanceAs (Decidable (∃ a ∈ db.attachments, a.file.status = .uploaded ∧ a.objectKey = objectKey))

def step (S : FileService) (db : AttachmentDb) :
    UploadRequest → Option (AttachmentDb × Except AppError Unit)
  | .register targetType context input checksumSha256 objectKey drawn =>
    answered db (register S targetType context input checksumSha256 objectKey drawn db)
  | .upload objectKey object =>
    if Frozen db objectKey then none
    else some ({ db with objects := Function.update db.objects objectKey (some object) }, .ok ())
  | .markUploaded targetType context attachmentId body =>
    answered db (markUploaded S targetType context attachmentId body db)

def initialDb (folders : Int → Option Int) : AttachmentDb where
  attachments := []
  nextFileObjectId := 1
  nextAttachmentId := 1
  folders := folders
  objects _ := none

/-! ## What is served as SVG -/

/-- The object is served with the type of an SVG file. -/
def ShownAsSvg (a : Attachment) (object : StoredObject) : Prop :=
  normalizedContentType (resolvedPreviewContentType
    (object.contentType.getD "application/octet-stream") a.file.contentType a.file.originalFilename)
    = "image/svg+xml"

/-- The whole plaintext is accepted as SVG. -/
def ValidSvg (S : FileService) (a : Attachment) (object : StoredObject) : Prop :=
  ∃ plaintext, plaintextOf S a object.content = .ok plaintext
    ∧ Svg.validateSvgContent S.svgEvents plaintext = .ok ()

/-- An accepted confirmation of what will be served as SVG is one of a resource that is registered
as SVG, or the file is a valid SVG anyway. -/
def Checked (S : FileService) (db : AttachmentDb) : UploadRequest → Prop
  | .markUploaded targetType context attachmentId body =>
    ∀ db' targetId a object, markUploaded S targetType context attachmentId body db = .ok db' →
      context = .ok targetId → getAttachmentForTarget db attachmentId targetType targetId = .ok a →
      db.objects a.objectKey = some object → ShownAsSvg a object →
        (targetType = .projectResource ∧ toAsciiLowercase a.file.contentType = "image/svg+xml")
          ∨ ValidSvg S a object
  | _ => True

/-- Every confirmed file that is served as SVG is one. -/
structure Sound (S : FileService) (db : AttachmentDb) : Prop where
  svg : ∀ a ∈ db.attachments, a.file.status = .uploaded → ∀ object,
    db.objects a.objectKey = some object → ShownAsSvg a object → ValidSvg S a object
  ids : (db.attachments.map (·.file.id)).Nodup
  bound : ∀ a ∈ db.attachments, a.file.id < db.nextFileObjectId

section Steps

variable {S : FileService} {db db' : AttachmentDb} {a : Attachment}

/-- Two rows of one file are one row. -/
theorem Sound.eq_of_id (h : Sound S db) {a b : Attachment} (ha : a ∈ db.attachments)
    (hb : b ∈ db.attachments) (hid : a.file.id = b.file.id) : a = b :=
  List.inj_on_of_nodup_map h.ids ha hb hid

theorem mem_of_getAttachmentForTarget {attachmentId targetId : Int} {targetType : TargetType}
    (h : getAttachmentForTarget db attachmentId targetType targetId = .ok a) : a ∈ db.attachments := by
  obtain ⟨_, _, h⟩ := bind_eq_ok.mp h
  exact List.mem_of_find?_eq_some (okOr_eq_ok.mp h)

/-- The update of a confirmation: the columns that are served stay. -/
structure Confirms (update : Attachment → Attachment) : Prop where
  file : ∀ a, (update a).file.id = a.file.id
  shown : ∀ a object, ShownAsSvg (update a) object ↔ ShownAsSvg a object
  key : ∀ a, (update a).objectKey = a.objectKey

/-- Confirming a file that is served as SVG only if it is one. -/
theorem Sound.updateFile (h : Sound S db) (ha : a ∈ db.attachments)
    {update : Attachment → Attachment} (hupdate : Confirms update)
    (hplain : ∀ content, plaintextOf S (update a) content = plaintextOf S a content)
    (hsvg : ∀ object, db.objects a.objectKey = some object → ShownAsSvg a object →
      ValidSvg S a object) : Sound S (db.updateFile a.file.id update) := by
  have hids : (db.updateFile a.file.id update).attachments.map (·.file.id)
      = db.attachments.map (·.file.id) := by
    unfold AttachmentDb.updateFile
    rw [List.map_map]
    refine List.map_congr_left fun b _ => ?_
    rw [Function.comp]
    split
    · exact hupdate.file b
    · rfl
  refine ⟨?_, hids ▸ h.ids, ?_⟩
  · intro b hb huploaded object hobject hshown
    obtain ⟨c, hc, rfl⟩ := List.mem_map.mp hb
    by_cases hid : c.file.id = a.file.id
    · obtain rfl := h.eq_of_id hc ha hid
      rw [if_pos rfl] at hobject hshown ⊢
      rw [hupdate.key] at hobject
      obtain ⟨plaintext, hplaintext, hvalid⟩ := hsvg object hobject ((hupdate.shown c object).mp hshown)
      exact ⟨plaintext, (hplain _).trans hplaintext, hvalid⟩
    · rw [if_neg hid] at huploaded hobject hshown ⊢
      exact h.svg c hc huploaded object hobject hshown
  · intro b hb
    obtain ⟨c, hc, rfl⟩ := List.mem_map.mp hb
    have hbound := h.bound c hc
    show (if c.file.id = a.file.id then update c else c).file.id < db.nextFileObjectId
    split
    · rw [hupdate.file]
      exact hbound
    · exact hbound

theorem Sound.markFileUploadedWithChecksum {checksum : String} (h : Sound S db)
    (ha : a ∈ db.attachments)
    (hsvg : ∀ object, db.objects a.objectKey = some object → ShownAsSvg a object →
      ValidSvg S a object)
    (hmark : Files.markFileUploadedWithChecksum a checksum db = .ok db') : Sound S db' := by
  unfold Files.markFileUploadedWithChecksum at hmark
  obtain ⟨_, _, hmark⟩ := bind_eq_ok.mp hmark
  obtain ⟨actual, _, hmark⟩ := bind_eq_ok.mp hmark
  obtain ⟨_, _, hmark⟩ := bind_eq_ok.mp hmark
  split at hmark
  · obtain ⟨_, _, hmark⟩ := bind_eq_ok.mp hmark
    rw [← Except.ok.inj hmark]
    exact h
  · cases hmark
  · obtain ⟨_, _, hmark⟩ := bind_eq_ok.mp hmark
    rw [← Except.ok.inj hmark]
    exact h.updateFile ha ⟨fun _ => rfl, fun _ _ => Iff.rfl, fun _ => rfl⟩ (fun _ => rfl) hsvg

theorem Sound.markAttachmentUploadedEncrypted {size : Int} {checksum : String} (h : Sound S db)
    (ha : a ∈ db.attachments)
    (hsvg : ∀ object, db.objects a.objectKey = some object → ShownAsSvg a object →
      ValidSvg S a object)
    (hmark : Files.markAttachmentUploadedEncrypted a size checksum db = .ok db') : Sound S db' := by
  unfold Files.markAttachmentUploadedEncrypted at hmark
  obtain ⟨encryption, hencryption, hmark⟩ := bind_eq_ok.mp hmark
  obtain ⟨_, _, hmark⟩ := bind_eq_ok.mp hmark
  obtain ⟨_, _, hmark⟩ := bind_eq_ok.mp hmark
  obtain ⟨_, _, hmark⟩ := bind_eq_ok.mp hmark
  split at hmark
  · rw [← Except.ok.inj hmark]
    refine h.updateFile ha ⟨fun _ => rfl, fun _ _ => Iff.rfl, fun _ => rfl⟩ (fun content => ?_) hsvg
    unfold plaintextOf
    rw [okOr_eq_ok.mp hencryption]
  · obtain ⟨_, _, hmark⟩ := bind_eq_ok.mp hmark
    rw [← Except.ok.inj hmark]
    exact h

/-- The validation of a file that is registered as SVG. -/
theorem validSvg_of_validated (htype : toAsciiLowercase a.file.contentType = "image/svg+xml")
    (h : validateSvgAttachmentContent S db a = .ok ()) {object : StoredObject}
    (hobject : db.objects a.objectKey = some object) : ValidSvg S a object := by
  unfold validateSvgAttachmentContent at h
  rw [if_neg fun hne => hne htype] at h
  obtain ⟨_, _, h⟩ := bind_eq_ok.mp h
  obtain ⟨object', hobject', h⟩ := bind_eq_ok.mp h
  obtain ⟨plaintext, hplaintext, h⟩ := bind_eq_ok.mp h
  have hobject' := okOr_eq_ok.mp hobject'
  rw [hobject] at hobject'
  rw [← Option.some.inj hobject'] at hplaintext
  exact ⟨plaintext, hplaintext, h⟩

theorem Sound.confirmUpload {targetType : TargetType} {context : Except AppError Int}
    {attachmentId : Int} (h : Sound S db)
    (hchecked : ∀ targetId a object, context = .ok targetId →
      getAttachmentForTarget db attachmentId targetType targetId = .ok a →
      db.objects a.objectKey = some object → ShownAsSvg a object → ValidSvg S a object)
    (hmark : Web.confirmUpload targetType S context attachmentId db = .ok db') : Sound S db' := by
  unfold Web.confirmUpload at hmark
  obtain ⟨targetId, hcontext, hmark⟩ := bind_eq_ok.mp hmark
  obtain ⟨a, ha, hmark⟩ := bind_eq_ok.mp hmark
  obtain ⟨_, _, hmark⟩ := bind_eq_ok.mp hmark
  exact h.markFileUploadedWithChecksum (mem_of_getAttachmentForTarget ha)
    (fun object => hchecked targetId a object hcontext ha) hmark

theorem Sound.projectResource {context : Except AppError Int} {attachmentId : Int}
    {body : MarkUploadedBody} (h : Sound S db)
    (hchecked : ∀ targetId a object, context = .ok targetId →
      getAttachmentForTarget db attachmentId .projectResource targetId = .ok a →
      db.objects a.objectKey = some object → ShownAsSvg a object →
        toAsciiLowercase a.file.contentType = "image/svg+xml" ∨ ValidSvg S a object)
    (hmark : projectResourceAttachmentMarkUploaded S context attachmentId body db = .ok db') :
    Sound S db' := by
  unfold projectResourceAttachmentMarkUploaded at hmark
  obtain ⟨targetId, hcontext, hmark⟩ := bind_eq_ok.mp hmark
  obtain ⟨a, ha, hmark⟩ := bind_eq_ok.mp hmark
  have hmem := mem_of_getAttachmentForTarget ha
  have hsvg : validateSvgAttachmentContent S db a = .ok () → ∀ object,
      db.objects a.objectKey = some object → ShownAsSvg a object → ValidSvg S a object := by
    intro hvalidated object hobject hshown
    rcases hchecked targetId a object hcontext ha hobject hshown with htype | hvalid
    · exact validSvg_of_validated htype hvalidated hobject
    · exact hvalid
  split at hmark
  · obtain ⟨_, _, hmark⟩ := bind_eq_ok.mp hmark
    obtain ⟨_, _, hmark⟩ := bind_eq_ok.mp hmark
    obtain ⟨_, _, hmark⟩ := bind_eq_ok.mp hmark
    obtain ⟨_, _, hmark⟩ := bind_eq_ok.mp hmark
    obtain ⟨_, _, hmark⟩ := bind_eq_ok.mp hmark
    obtain ⟨_, hvalidated, hmark⟩ := bind_eq_ok.mp hmark
    exact h.markAttachmentUploadedEncrypted hmem (hsvg hvalidated) hmark
  · obtain ⟨_, _, hmark⟩ := bind_eq_ok.mp hmark
    obtain ⟨_, hvalidated, hmark⟩ := bind_eq_ok.mp hmark
    exact h.markFileUploadedWithChecksum hmem (hsvg hvalidated) hmark

theorem Sound.markUploaded {targetType : TargetType} {context : Except AppError Int}
    {attachmentId : Int} {body : MarkUploadedBody} (h : Sound S db)
    (hchecked : Checked S db (.markUploaded targetType context attachmentId body))
    (hmark : Web.markUploaded S targetType context attachmentId body db = .ok db') : Sound S db' := by
  have hplain : targetType ≠ .projectResource → ∀ targetId a object, context = .ok targetId →
      getAttachmentForTarget db attachmentId targetType targetId = .ok a →
      db.objects a.objectKey = some object → ShownAsSvg a object → ValidSvg S a object := by
    intro hne targetId a object hcontext ha hobject hshown
    rcases hchecked db' targetId a object hmark hcontext ha hobject hshown with ⟨heq, _⟩ | hvalid
    · exact absurd heq hne
    · exact hvalid
  cases targetType with
  | workItem => exact h.confirmUpload (hplain (by decide)) hmark
  | comment => exact h.confirmUpload (hplain (by decide)) hmark
  | project => exact h.confirmUpload (hplain (by decide)) hmark
  | projectResource =>
    refine h.projectResource (fun targetId a object hcontext ha hobject hshown => ?_) hmark
    exact (hchecked db' targetId a object hmark hcontext ha hobject hshown).imp_left And.right

theorem Sound.register {targetType : TargetType} {context : Except AppError Unit}
    {input : CreateAttachmentInput} {checksumSha256 objectKey : String} {drawn : DrawnKey}
    (h : Sound S db)
    (hregister : Web.register S targetType context input checksumSha256 objectKey drawn db = .ok db') :
    Sound S db' := by
  unfold Web.register at hregister
  obtain ⟨_, _, hregister⟩ := bind_eq_ok.mp hregister
  obtain ⟨⟨db'', a⟩, hcreate, hregister⟩ := bind_eq_ok.mp hregister
  obtain rfl := Except.ok.inj hregister
  unfold createAttachmentInner at hcreate
  obtain ⟨_, _, hcreate⟩ := bind_eq_ok.mp hcreate
  obtain ⟨_, _, hcreate⟩ := bind_eq_ok.mp hcreate
  obtain ⟨_, _, hcreate⟩ := bind_eq_ok.mp hcreate
  obtain ⟨_, _, hcreate⟩ := bind_eq_ok.mp hcreate
  obtain ⟨_, _, hcreate⟩ := bind_eq_ok.mp hcreate
  obtain ⟨_, _, hcreate⟩ := bind_eq_ok.mp hcreate
  obtain ⟨_, _, hcreate⟩ := bind_eq_ok.mp hcreate
  obtain ⟨_, _, hcreate⟩ := bind_eq_ok.mp hcreate
  obtain ⟨_, _, hcreate⟩ := bind_eq_ok.mp hcreate
  obtain ⟨_, _, hcreate⟩ := bind_eq_ok.mp hcreate
  obtain ⟨_, _, hcreate⟩ := bind_eq_ok.mp hcreate
  obtain ⟨rfl, rfl⟩ := Prod.mk.inj (Except.ok.inj hcreate)
  refine ⟨?_, ?_, ?_⟩
  · intro b hb huploaded object hobject hshown
    rcases List.mem_append.mp hb with hb | hb
    · exact h.svg b hb huploaded object hobject hshown
    · obtain rfl := List.mem_singleton.mp hb
      cases huploaded
  · rw [List.map_append, List.nodup_append]
    refine ⟨h.ids, List.nodup_singleton _, ?_⟩
    intro i hi j hj hij
    obtain ⟨b, hb, rfl⟩ := List.mem_map.mp hi
    obtain rfl := List.mem_singleton.mp hj
    exact absurd hij (Int.ne_of_lt (h.bound b hb))
  · intro b hb
    rcases List.mem_append.mp hb with hb | hb
    · exact Int.lt_add_one_of_le (Int.le_of_lt (h.bound b hb))
    · obtain rfl := List.mem_singleton.mp hb
      exact Int.lt_succ _

theorem Sound.upload {objectKey : String} {object : StoredObject} (h : Sound S db)
    (hfree : ¬ Frozen db objectKey) :
    Sound S { db with objects := Function.update db.objects objectKey (some object) } := by
  refine ⟨?_, h.ids, h.bound⟩
  intro b hb huploaded object' hobject' hshown
  have hne : b.objectKey ≠ objectKey := fun heq => hfree ⟨b, hb, huploaded, heq⟩
  dsimp only at hobject'
  rw [Function.update_of_ne hne] at hobject'
  exact h.svg b hb huploaded object' hobject' hshown

theorem Sound.step {request : UploadRequest} {out : Except AppError Unit} (h : Sound S db)
    (hchecked : Checked S db request) (hstep : Web.step S db request = some (db', out)) :
    Sound S db' := by
  have hanswered : ∀ {result : Except AppError AttachmentDb}, answered db result = some (db', out) →
      (∀ db'', result = .ok db'' → Sound S db'') → Sound S db' := by
    intro result hresult hok
    cases result with
    | error e =>
      obtain ⟨rfl, _⟩ := Prod.mk.inj (Option.some.inj hresult)
      exact h
    | ok db'' =>
      obtain ⟨rfl, _⟩ := Prod.mk.inj (Option.some.inj hresult)
      exact hok _ rfl
  cases request with
  | register targetType context input checksumSha256 objectKey drawn =>
    exact hanswered hstep fun db'' hregister => h.register hregister
  | upload objectKey object =>
    unfold Web.step at hstep
    dsimp only at hstep
    split at hstep
    · cases hstep
    · rename_i hfree
      obtain ⟨rfl, _⟩ := Prod.mk.inj (Option.some.inj hstep)
      exact h.upload hfree
  | markUploaded targetType context attachmentId body =>
    exact hanswered hstep fun db'' hmark => h.markUploaded hchecked hmark

/-- What an answer with a type says about the attachment. -/
theorem served_of_response {request : ContentRequest} {response : Preview.Response} {contentType : String}
    (h : attachmentPreviewContentResponse S db request a = .ok response)
    (htype : response.contentType = some contentType) :
    a.file.status = .uploaded ∧ ∃ object, db.objects a.objectKey = some object
      ∧ contentType = resolvedPreviewContentType
        (object.contentType.getD "application/octet-stream") a.file.contentType
        a.file.originalFilename := by
  unfold attachmentPreviewContentResponse at h
  obtain ⟨_, henabled, h⟩ := bind_eq_ok.mp h
  obtain ⟨object, hobject, h⟩ := bind_eq_ok.mp h
  obtain ⟨_, _, h⟩ := bind_eq_ok.mp h
  unfold ensureAttachmentPreviewContentEnabled at henabled
  obtain ⟨_, _, henabled⟩ := bind_eq_ok.mp henabled
  obtain ⟨_, huploaded, _⟩ := bind_eq_ok.mp henabled
  refine ⟨not_not.mp (rejectIf_eq_ok.mp huploaded), object, okOr_eq_ok.mp hobject, ?_⟩
  dsimp only at h
  split at h
  · rw [← Except.ok.inj h] at htype
    cases htype
  · obtain ⟨_, _, h⟩ := bind_eq_ok.mp h
    obtain ⟨_, _, h⟩ := bind_eq_ok.mp h
    rw [← Except.ok.inj h] at htype
    exact (Option.some.inj htype).symm

end Steps

/-- Where no confirmation passes an unvalidated drawing by, whatever is served as SVG is one. -/
theorem served_svg_validated (S : FileService) (folders : Int → Option Int)
    (tr : List (Entry AttachmentDb UploadRequest (Except AppError Unit))) (db : AttachmentDb)
    (hrun : Run (step S) (initialDb folders) tr db)
    (hchecked : ∀ x ∈ tr, Checked S x.pre x.event) :
    ∀ a ∈ db.attachments, ∀ request response contentType,
      attachmentPreviewContentResponse S db request a = .ok response →
      response.contentType = some contentType →
      normalizedContentType contentType = "image/svg+xml" →
        ∃ object, db.objects a.objectKey = some object ∧ ValidSvg S a object := by
  have hstart : Sound S (initialDb folders) :=
    ⟨fun a ha => (by cases ha), List.nodup_nil, fun a ha => (by cases ha)⟩
  have hsound : Sound S db :=
    hrun.invariant (I := Sound S) hstart (fun _ _ _ _ h hc he => h.step hc he) hchecked
  intro a ha request response contentType hresponse htype hsvg
  obtain ⟨huploaded, object, hobject, rfl⟩ := served_of_response hresponse htype
  exact ⟨object, hobject, hsound.svg a ha huploaded object hobject hsvg⟩

/-! ## Two uploads to a work item -/

/-- A service whose reader knows one drawing. -/
def drawingService : FileService where
  prims := ⟨Aead.plain, Digest.const⟩
  keys := { aead := Aead.plain, fileKey := fun _ => .fill 32 0 }
  fileMasterKey := "0123456789abcdef"
  svgEvents := Svg.drawingEvents

/-- A drawing for work item 1, registered, uploaded and confirmed. -/
def drawingRequests (content : Bytes) : List UploadRequest :=
  [.register .workItem (.ok ())
      { targetType := ""
        targetId := 1
        projectId := none
        folderId := none
        originalFilename := "drawing.svg"
        contentType := "image/svg+xml"
        byteSize := content.length
        activitySummary := none }
      "" "uploads/pending/1.svg" { dataKey := .fill 32 0, nonce := .fill 12 0 },
    .upload "uploads/pending/1.svg" { contentType := some "image/svg+xml", content := content },
    .markUploaded .workItem (.ok 1) 1 .empty]

def drawingRun (content : Bytes) :
    Option (List (Entry AttachmentDb UploadRequest (Except AppError Unit)) × AttachmentDb) :=
  exec (step drawingService) (initialDb fun _ => none) (drawingRequests content)

def wholeRequest : ContentRequest := { head := false, range := none }

structure Served where
  response : Option Preview.Response
  object : Option StoredObject
  encryption : Option FileEncryption
  deriving DecidableEq

/-- What the attachments are served as after the requests. -/
def drawingServed (content : Bytes) : Option (List Served) :=
  (drawingRun content).map fun r => r.2.attachments.map fun a =>
    { response := (attachmentPreviewContentResponse drawingService r.2 wholeRequest a).toOption
      object := r.2.objects a.objectKey
      encryption := a.encryption }

/-- A drawing that was registered, uploaded and confirmed is served. -/
theorem served_of_drawingServed {content : Bytes} {served : Served}
    (h : drawingServed content = some [served]) :
    ∃ r a, drawingRun content = some r ∧ a ∈ r.2.attachments
      ∧ (attachmentPreviewContentResponse drawingService r.2 wholeRequest a).toOption
        = served.response
      ∧ r.2.objects a.objectKey = served.object ∧ a.encryption = served.encryption := by
  obtain ⟨r, hr, hrows⟩ := Option.map_eq_some_iff.mp h
  obtain ⟨a, rest, hcons, hfirst, _⟩ := List.map_eq_cons_iff.mp hrows
  refine ⟨r, a, hr, hcons ▸ List.mem_cons_self, ?_, ?_, ?_⟩
  · rw [← hfirst]
  · rw [← hfirst]
  · rw [← hfirst]

/-- All objects hold valid drawings, not encrypted. -/
def allValid (db : AttachmentDb) (_ : UploadRequest) : Bool :=
  db.attachments.all fun a => a.encryption.isNone
    && (db.objects a.objectKey).all fun object =>
      (Svg.validateSvgContent Svg.drawingEvents object.content).toOption.isSome

theorem checked_of_allValid {db : AttachmentDb} {request : UploadRequest}
    (h : allValid db request = true) : Checked drawingService db request := by
  cases request with
  | register => trivial
  | upload => trivial
  | markUploaded targetType context attachmentId body =>
    intro db' targetId a object _ _ ha hobject _
    have hall := List.all_eq_true.mp h a (mem_of_getAttachmentForTarget ha)
    rw [Bool.and_eq_true, hobject, Option.isNone_iff_eq_none] at hall
    obtain ⟨hplain, hvalid⟩ := hall
    refine .inr ⟨object.content, by unfold plaintextOf; rw [hplain], ?_⟩
    cases hcontent : Svg.validateSvgContent Svg.drawingEvents object.content with
    | error e =>
      rw [Option.all_some, hcontent] at hvalid
      cases hvalid
    | ok u => exact hcontent

theorem served_svg_validated_drawing : ∃ tr db,
    Run (step drawingService) (initialDb fun _ => none) tr db
    ∧ ∃ a ∈ db.attachments, ∃ object, db.objects a.objectKey = some object
      ∧ ValidSvg drawingService a object := by
  have hserved : drawingServed (Svg.drawing "url(#a)") = some
      [{ response := some
          { status := 200, contentType := some "image/svg+xml", body := Svg.drawing "url(#a)" }
         object := some { contentType := some "image/svg+xml", content := Svg.drawing "url(#a)" }
         encryption := none }] := by decide +kernel
  obtain ⟨r, a, hr, hmem, hanswer, _⟩ := served_of_drawingServed hserved
  have htested : tested (step drawingService) allValid (initialDb fun _ => none)
      (drawingRequests (Svg.drawing "url(#a)")) = true := by decide +kernel
  cases hresponse : attachmentPreviewContentResponse drawingService r.2 wholeRequest a with
  | error e =>
    rw [hresponse] at hanswer
    cases hanswer
  | ok response =>
    rw [hresponse] at hanswer
    obtain rfl := Option.some.inj hanswer
    exact ⟨r.1, r.2, run_of_exec hr, a, hmem,
      served_svg_validated drawingService (fun _ => none) r.1 r.2 (run_of_exec hr)
        (tested_exec hr (fun _ _ => checked_of_allValid) htested) a hmem wholeRequest _ _ hresponse rfl
        (by decide +kernel)⟩

/-- What is no SVG file at all is served as one: the handler of work items does not look. -/
theorem unvalidated_svg_served : ∃ tr db, Run (step drawingService) (initialDb fun _ => none) tr db
    ∧ ∃ a ∈ db.attachments, ∃ response object,
      attachmentPreviewContentResponse drawingService db wholeRequest a = .ok response
      ∧ response.status = 200 ∧ response.contentType = some "image/svg+xml"
      ∧ db.objects a.objectKey = some object ∧ ¬ ValidSvg drawingService a object := by
  have hserved : drawingServed [1, 2, 3] = some
      [{ response := some { status := 200, contentType := some "image/svg+xml", body := [1, 2, 3] }
         object := some { contentType := some "image/svg+xml", content := [1, 2, 3] }
         encryption := none }] := by decide +kernel
  obtain ⟨r, a, hr, hmem, hanswer, hobject, hplain⟩ := served_of_drawingServed hserved
  have hrun : Run (step drawingService) (initialDb fun _ => none) r.1 r.2 := run_of_exec hr
  cases hresponse : attachmentPreviewContentResponse drawingService r.2 wholeRequest a with
  | error e =>
    rw [hresponse] at hanswer
    cases hanswer
  | ok response =>
    rw [hresponse] at hanswer
    obtain rfl := Option.some.inj hanswer
    refine ⟨r.1, r.2, hrun, a, hmem, _, _, hresponse, rfl, rfl, hobject, ?_⟩
    rintro ⟨plaintext, hplaintext, hvalid⟩
    unfold plaintextOf at hplaintext
    rw [hplain] at hplaintext
    rw [← Except.ok.inj hplaintext] at hvalid
    exact absurd hvalid (by decide +kernel)

end Web
end Yuance
