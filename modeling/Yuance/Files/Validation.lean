import Yuance.Lib.Except
import Yuance.Platform.Crypto

/-!
# Yuance.Files.Validation

The rows of `file_objects`, and the checks of `api/src/domains/files.rs` on the fields of a file, an
attachment and a folder, with the texts of their errors.
-/

namespace Yuance
namespace Files

open Lib Platform

inductive ObjectStatus where
  | pending
  | uploaded
  | deleted
  deriving DecidableEq, Repr

/-- A row of `file_objects`, without the place of its bytes. -/
structure FileObject where
  id : Int
  folderId : Option Int
  originalFilename : String
  contentType : String
  byteSize : Int
  checksumSha256 : String
  status : ObjectStatus
  deriving DecidableEq, Repr

/-- A value that must be one of the names of a table. -/
def oneOf {α : Type} (names : List (String × α)) (message value : String) : Except AppError α :=
  okOr (names.lookup (trim value)) (.badRequest message)

inductive TargetType where
  | project
  | workItem
  | comment
  | projectResource
  deriving DecidableEq, Repr

def validateTargetType (targetType : String) : Except AppError TargetType :=
  if trim targetType = "project" then .ok .project
  else if trim targetType = "work_item" then .ok .workItem
  else if trim targetType = "comment" then .ok .comment
  else if trim targetType = "project_resource" then .ok .projectResource
  else .error (.badRequest "附件目标类型只能是 project / work_item / comment / project_resource")

def validateActivitySummary (summary : String) : Except AppError String := do
  rejectIf (trim summary = "" ∨ charCount (trim summary) > 240)
    (.badRequest "附件动态摘要不能为空且不能超过 240 个字符")
  pure (trim summary)

def validateFilename (filename : String) : Except AppError String := do
  rejectIf (trim filename = "" ∨ byteLen (trim filename) > 255 ∨ hasChar '/' (trim filename) ∨
      hasChar '\\' (trim filename))
    (.badRequest "文件名无效")
  pure (trim filename)

def allowedContentTypeHeads : List String := ["image/", "text/", "video/"]

def allowedContentTypes : List String :=
  ["application/gzip", "application/json", "application/msword", "application/octet-stream",
    "application/pdf", "application/vnd.android.package-archive",
    "application/vnd.debian.binary-package", "application/vnd.ms-excel",
    "application/vnd.ms-powerpoint",
    "application/vnd.openxmlformats-officedocument.presentationml.presentation",
    "application/vnd.openxmlformats-officedocument.spreadsheetml.sheet",
    "application/vnd.openxmlformats-officedocument.wordprocessingml.document",
    "application/x-apple-diskimage", "application/x-7z-compressed", "application/x-gzip",
    "application/x-itunes-ipa", "application/x-msdownload", "application/x-rpm",
    "application/x-tar", "application/zip"]

def isAllowedContentType (contentType : String) : Bool :=
  allowedContentTypeHeads.any (hasHead · contentType) || allowedContentTypes.contains contentType

def validateContentType (contentType : String) : Except AppError String := do
  let value := toAsciiLowercase (trim contentType)
  rejectIf (value = "" ∨ byteLen value > 128 ∨ hasChar '\n' value ∨ hasChar '\r' value ∨
      hasChar ';' value)
    (.badRequest "Content-Type 无效")
  rejectIf (¬ isAllowedContentType value)
    (.badRequest "暂不支持该附件类型，请上传图片、文本、PDF、Office 文档、JSON 或压缩包")
  pure value

def maxAttachmentByteSize : Int := 1024 * 1024 * 1024

def validateByteSize (byteSize : Int) : Except AppError Unit := do
  rejectIf (byteSize < 0) (.badRequest "文件大小不能小于 0")
  rejectIf (byteSize > maxAttachmentByteSize) (.badRequest "文件大小不能超过 1 GB")

def isLowerHex (c : Char) : Bool := ('0' ≤ c && c ≤ '9') || ('a' ≤ c && c ≤ 'f')

def validateChecksumSha256 (value : String) : Except AppError String := do
  rejectIf (trim value ≠ "" ∧ (byteLen (trim value) ≠ 64 ∨ ¬ (trim value).toList.all isLowerHex))
    (.badRequest "SHA-256 校验值无效")
  pure (trim value)

def validateFolderName (name : String) : Except AppError String := do
  rejectIf (trim name = "" ∨ byteLen (trim name) > 255)
    (.badRequest "文件夹名称不能为空且不能超过 255 个字符")
  rejectIf (hasChar '/' (trim name) ∨ hasChar '\\' (trim name) ∨ hasChar (Char.ofNat 0) (trim name))
    (.badRequest "文件夹名称不能包含斜杠或空字符")
  pure (trim name)

end Files
end Yuance
