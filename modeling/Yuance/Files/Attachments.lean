import Yuance.Files.Folders
import Yuance.Files.Svg
import Yuance.Files.Validation
import Yuance.FileCrypto.Ranges
import Yuance.FileCrypto.Sizes
import Yuance.Platform.DataKey

/-!
# Yuance.Files.Attachments

Attachments from their registration to the confirmation of the upload: `create_attachment_inner`,
`get_attachment_for_target` and the marks of an upload in `api/src/domains/files.rs`, with
`verify_uploaded_object` of `api/src/domains/storage.rs`. A row of `file_attachments` stands with its
row of `file_objects`; the object storage holds an object under a key.
-/

namespace Yuance
namespace Files

open Lib Platform

/-- What is stored of a file that is encrypted. -/
structure FileEncryption where
  dataKeyEnvelope : String
  encryptedByteSize : Int
  encryptedChecksumSha256 : String
  deriving DecidableEq

structure Attachment where
  id : Int
  file : FileObject
  objectKey : String
  targetType : TargetType
  targetId : Int
  encryption : Option FileEncryption
  deriving DecidableEq

structure StoredObject where
  contentType : Option String
  content : Bytes
  deriving DecidableEq

/-- The tables of attachments and the object storage. `folders` gives the project of an active
folder. -/
structure AttachmentDb where
  attachments : List Attachment
  nextFileObjectId : Int
  nextAttachmentId : Int
  folders : Int → Option Int
  objects : String → Option StoredObject

/-- What the handling of files calls: the ciphers, the master key and the XML reader. -/
structure FileService where
  prims : FileCrypto.Prims
  keys : FilePrims
  fileMasterKey : String
  svgEvents : Bytes → List Svg.Event

/-! ## Registration -/

/-- What is drawn for a file that is encrypted: its key, and the nonce of the envelope. -/
structure DrawnKey where
  dataKey : FixedBytes 32
  nonce : FixedBytes 12

def checkFolder (db : AttachmentDb) (projectId : Option Int) : Option Int → Except AppError Unit
  | none => .ok ()
  | some folderId => do
    rejectIf (folderId ≤ 0) (.badRequest "文件夹 ID 无效")
    let folderProject ← okOr (db.folders folderId) (.notFound "文件夹不存在")
    let projectId ← okOr projectId (.badRequest "文件夹附件必须关联项目")
    rejectIf (folderProject ≠ projectId) (.badRequest "目标文件夹不属于当前项目")

/-- The envelope of the key of an encrypted file. -/
def sealFor (S : FileService) (objectKey : String) :
    Option DrawnKey → Except AppError (Option FileEncryption)
  | none => .ok none
  | some drawn => do
    let envelope ← FileKeys.sealDataKey S.keys drawn.nonce S.fileMasterKey drawn.dataKey (utf8 objectKey)
    pure (some
      { dataKeyEnvelope := envelope
        encryptedByteSize := 0
        encryptedChecksumSha256 := "" })

/-- `create_attachment_inner`, with the object key and the data key that are drawn. -/
def createAttachmentInner (S : FileService) (objectKey : String) (drawn : Option DrawnKey)
    (input : CreateAttachmentInput) (checksumSha256 : String) (db : AttachmentDb) :
    Except AppError (AttachmentDb × Attachment) := do
  let targetType ← validateTargetType input.targetType
  rejectIf (input.targetId ≤ 0) (.badRequest "附件目标无效")
  rejectIf (input.projectId.any (· ≤ 0)) (.badRequest "项目动态目标无效")
  let originalFilename ← validateFilename input.originalFilename
  let contentType ← validateContentType input.contentType
  let _ ← input.activitySummary.mapM validateActivitySummary
  validateByteSize input.byteSize
  let checksumSha256 ← validateChecksumSha256 checksumSha256
  checkFolder db input.projectId input.folderId
  rejectIf (∃ a ∈ db.attachments, a.objectKey = objectKey) .storage
  let encryption ← sealFor S objectKey drawn
  let attachment : Attachment :=
    { id := db.nextAttachmentId
      file :=
        { id := db.nextFileObjectId
          folderId := input.folderId
          originalFilename := originalFilename
          contentType := contentType
          byteSize := input.byteSize
          checksumSha256 := checksumSha256
          status := .pending }
      objectKey := objectKey
      targetType := targetType
      targetId := input.targetId
      encryption := encryption }
  pure ({ db with
      attachments := db.attachments ++ [attachment]
      nextFileObjectId := db.nextFileObjectId + 1
      nextAttachmentId := db.nextAttachmentId + 1 },
    attachment)

/-! ## Looking up -/

def getAttachmentForTarget (db : AttachmentDb) (attachmentId : Int) (targetType : TargetType)
    (targetId : Int) : Except AppError Attachment := do
  rejectIf (attachmentId ≤ 0 ∨ targetId ≤ 0) (.badRequest "附件目标无效")
  okOr (db.attachments.find? fun a =>
    a.id = attachmentId ∧ a.targetType = targetType ∧ a.targetId = targetId)
    (.notFound "附件不存在")

/-! ## The stored object -/

def maxVerifiedObjectByteSize : Int := 1107296256

/-- `validate_content_type` of the storage. -/
def validateStorageContentType (contentType : String) : Except AppError String := do
  rejectIf (trim contentType = "") (.badRequest "Content-Type 不能为空")
  rejectIf (byteLen (trim contentType) > 128 ∨ hasChar '\n' (trim contentType)
      ∨ hasChar '\r' (trim contentType))
    (.badRequest "Content-Type 无效")
  pure (trim contentType)

/-- The SHA-256 of the object under the key, if it has the size and the type. -/
def verifyUploadedObject (S : FileService) (db : AttachmentDb) (objectKey : String)
    (expectedByteSize : Int) (expectedContentType : String) : Except AppError String := do
  rejectIf (expectedByteSize < 0 ∨ maxVerifiedObjectByteSize < expectedByteSize)
    (.badRequest "对象大小超出服务端校验范围")
  let expectedContentType ← validateStorageContentType expectedContentType
  let object ← okOr (db.objects objectKey) (.badRequest "对象存储中未找到已上传文件")
  rejectIf ((object.content.length : Int) ≠ expectedByteSize)
    (.badRequest ("对象存储文件大小不一致：期望 " ++ toString expectedByteSize ++ " 字节，实际 "
      ++ toString object.content.length ++ " 字节"))
  let actualContentType ← okOr object.contentType (.badRequest "对象存储未返回文件 Content-Type")
  rejectIf (toAsciiLowercase actualContentType ≠ toAsciiLowercase expectedContentType)
    (.badRequest ("对象存储 Content-Type 不一致：期望 " ++ expectedContentType ++ "，实际 "
      ++ actualContentType))
  pure (hexEncode (S.prims.sha.hash object.content))

/-- An error of the file ciphers as the handlers see it. -/
def ofFileCrypto : FileCrypto.Server.AppError → AppError
  | .crypto message => .crypto message
  | .panic => .panicked

/-- The plaintext of an attachment whose object has this content. -/
def plaintextOf (S : FileService) (a : Attachment) (content : Bytes) : Except AppError Bytes :=
  match a.encryption with
  | none => .ok content
  | some encryption => do
    let dataKey ← FileKeys.openDataKey S.keys S.fileMasterKey encryption.dataKeyEnvelope
      (utf8 a.objectKey)
    (FileCrypto.Server.decryptCiphertextFull S.prims dataKey a.file.id content).mapError ofFileCrypto

/-! ## The marks of an upload -/

/-- `UPDATE file_objects` of one row. -/
def AttachmentDb.updateFile (db : AttachmentDb) (fileObjectId : Int)
    (update : Attachment → Attachment) : AttachmentDb :=
  { db with attachments := db.attachments.map fun a =>
      if a.file.id = fileObjectId then update a else a }

def markFileUploadedWithChecksum (a : Attachment) (actualChecksumSha256 : String)
    (db : AttachmentDb) : Except AppError AttachmentDb := do
  rejectIf (a.file.id ≤ 0) (.badRequest "文件对象 ID 无效")
  let actual ← validateChecksumSha256 actualChecksumSha256
  rejectIf (actual = "") (.badRequest "文件 SHA-256 校验值不能为空")
  match a.file.status with
  | .uploaded => do
    rejectIf (a.file.checksumSha256 ≠ actual) (.conflict "附件已上传，但对象摘要与本次确认不一致")
    pure db
  | .deleted => .error (.notFound "附件已归档")
  | .pending => do
    rejectIf (a.file.checksumSha256 ≠ "" ∧ a.file.checksumSha256 ≠ actual)
      (.badRequest "上传对象 SHA-256 与登记摘要不一致")
    pure (db.updateFile a.file.id fun a =>
      { a with file := { a.file with status := .uploaded, checksumSha256 := actual } })

def markAttachmentUploadedEncrypted (a : Attachment) (encryptedByteSize : Int)
    (encryptedChecksumSha256 : String) (db : AttachmentDb) : Except AppError AttachmentDb := do
  let encryption ← okOr a.encryption (.badRequest "附件未启用加密，不能登记密文元数据")
  rejectIf (encryptedByteSize < 0) (.badRequest "密文大小不能小于 0")
  let checksum ← validateChecksumSha256 encryptedChecksumSha256
  rejectIf (checksum = "") (.badRequest "密文 SHA-256 校验值不能为空")
  match a.file.status with
  | .pending =>
    pure (db.updateFile a.file.id fun a =>
      { a with
          file := { a.file with status := .uploaded }
          encryption := some
            { encryption with
                encryptedByteSize := encryptedByteSize
                encryptedChecksumSha256 := checksum } })
  | status => do
    rejectIf (status ≠ .uploaded ∨ encryption.encryptedByteSize ≠ encryptedByteSize
        ∨ encryption.encryptedChecksumSha256 ≠ checksum)
      (.conflict "附件状态已变化或密文摘要与已登记内容不一致")
    pure db

end Files
end Yuance
