import Yuance.Files.Attachments

/-!
# Yuance.Web.AttachmentPreview

What may be previewed, and as what it is served: `api/src/web/attachment_preview.rs`, and
`attachment_preview_content_response` of `api/src/web/api/mod.rs`.
-/

namespace Yuance
namespace Web

open Lib Platform Files

namespace Preview

/-! ## The type of a file -/

/-- `value.rsplit_once(c)`. -/
def rsplitOnce (c : Char) (value : List Char) : Option (List Char × List Char) :=
  match splitOnce c value.reverse with
  | (_, none) => none
  | (behind, some before) => some (before.reverse, behind.reverse)

def normalizedExtension (filename : String) : Option String :=
  match rsplitOnce '.' (trim filename).toList with
  | none => none
  | some (_, extension) =>
    let extension := toAsciiLowercase (trim (String.ofList extension))
    if extension = "" then none else some extension

/-- `content_type.split(';').next()`, trimmed and in lower case. -/
def normalizedContentType (contentType : String) : String :=
  toAsciiLowercase (trim (String.ofList (splitOnce ';' contentType.toList).1))

def fileViewerDocumentExtensions : List String :=
  ["3dm", "3ds", "3mf", "7z", "aac", "ai", "amf", "apk", "ar", "asc", "asice", "asics", "avro",
    "bash", "bdl", "brep", "bundle", "bz2", "bzip2", "c", "cab", "cbr", "cbz", "cc", "cjs",
    "cms", "cmsc", "cpio", "cpp", "cs", "css", "csv", "dae", "dbf", "dcm", "dicom", "diff",
    "dio", "doc", "docm", "docx", "dot", "dotm", "dotx", "dra", "drawio", "dwf", "dwfx", "dwg",
    "dxf", "ear", "eml", "eps", "epub", "ers", "excalidraw", "fb2", "fbx", "flac", "fods", "gds",
    "geojson", "glb", "gltf", "go", "gpg", "gpx", "gv", "gz", "gzip", "h", "hcl", "hpp", "htm",
    "html", "http", "hwp", "hwpx", "ifc", "iges", "igs", "ini", "ipynb", "iso", "jar", "java",
    "js", "json", "json5", "jsonc", "jsx", "jws", "key", "kml", "kmz", "kt", "lha", "log", "lzh",
    "lzma", "m4a", "markdown", "mbox", "md", "mermaid", "mid", "midi", "mjs", "mmd", "mp3",
    "mpeg", "msg", "numbers", "oas", "oasis", "obj", "odp", "ods", "odt", "ofd", "oga", "ogg",
    "olb", "opus", "otf", "p7b", "p7c", "p7m", "p7s", "pages", "parquet", "patch", "pcd", "pdf",
    "pgp", "php", "pkcs7", "plantuml", "ply", "pot", "potm", "potx", "ppsm", "ppsx", "ppt",
    "pptm", "pptx", "proto", "psd", "puml", "py", "rar", "rb", "react", "rs", "rtf", "sce",
    "scs", "sh", "shp", "sig", "sql", "sqlite", "step", "stl", "stp", "swift", "tar", "tbz",
    "tbz2", "tex", "tgz", "toml", "ts", "tsd", "tsq", "tsr", "tst", "tsv", "tsx", "ttf", "txt",
    "txz", "typ", "typst", "tzst", "umd", "usd", "usda", "usdc", "usdz", "vrml", "vtk", "vtp",
    "vue", "war", "wasm", "wav", "weba", "webarchive", "woff", "woff2", "wp", "wp5", "wp6",
    "wpd", "wrl", "xar", "xla", "xlam", "xls", "xlsb", "xlsm", "xlsx", "xlt", "xltm", "xltx",
    "xmind", "xml", "xps", "xyz", "xz", "yaml", "yml", "zip", "zipx", "zst"]

/-- The extensions that `file_type` knows. -/
def fileTypeExtensions : List String :=
  ["3dm", "3ds", "3mf", "7z", "aac", "ai", "amf", "apk", "ar", "asc", "asice", "asics", "avif",
    "avro", "bash", "bdl", "bmp", "brep", "bundle", "bz2", "bzip2", "c", "cab", "cbr", "cbz",
    "cc", "cjs", "cms", "cmsc", "cpio", "cpp", "cs", "css", "csv", "dae", "dbf", "dcm", "dicom",
    "diff", "dio", "doc", "docm", "docx", "dot", "dotm", "dotx", "dra", "drawio", "dwf", "dwfx",
    "dwg", "dxf", "ear", "eml", "eps", "epub", "ers", "excalidraw", "fb2", "fbx", "flac", "fods",
    "gds", "geojson", "gif", "glb", "gltf", "go", "gpg", "gpx", "gv", "gz", "gzip", "h", "hcl",
    "heic", "heif", "hpp", "htm", "html", "http", "hwp", "hwpx", "ico", "ifc", "iges", "igs",
    "ini", "ipynb", "iso", "jar", "java", "jpeg", "jpg", "js", "json", "json5", "jsonc", "jsx",
    "jws", "jxl", "key", "kml", "kmz", "kt", "lha", "log", "lzh", "lzma", "m3u8", "m4a",
    "markdown", "mbox", "md", "mermaid", "mid", "midi", "mjs", "mmd", "mp3", "mp4", "mpeg",
    "msg", "numbers", "oas", "oasis", "obj", "odp", "ods", "odt", "ofd", "oga", "ogg", "olb",
    "opus", "otf", "p7b", "p7c", "p7m", "p7s", "pages", "parquet", "patch", "pcd", "pdf", "pgp",
    "php", "pkcs7", "plantuml", "ply", "png", "pot", "potm", "potx", "ppsm", "ppsx", "ppt",
    "pptm", "pptx", "proto", "psd", "puml", "py", "rar", "rb", "react", "rs", "rtf", "sce",
    "scs", "sh", "shp", "sig", "sql", "sqlite", "step", "stl", "stp", "svg", "swift", "tar",
    "tbz", "tbz2", "tex", "tgz", "tif", "tiff", "toml", "ts", "tsd", "tsq", "tsr", "tst", "tsv",
    "tsx", "ttf", "txt", "txz", "typ", "typst", "tzst", "umd", "usd", "usda", "usdc", "usdz",
    "vrml", "vtk", "vtp", "vue", "war", "wasm", "wav", "weba", "webarchive", "webm", "webp",
    "woff", "woff2", "wp", "wp5", "wp6", "wpd", "wrl", "xar", "xla", "xlam", "xls", "xlsb",
    "xlsm", "xlsx", "xlt", "xltm", "xltx", "xmind", "xml", "xps", "xyz", "xz", "yaml", "yml",
    "zip", "zipx", "zst"]

def fileTypesOfContentTypes : List (String × String) :=
  [("application/msword", "doc"),
    ("application/vnd.openxmlformats-officedocument.wordprocessingml.document", "docx"),
    ("application/vnd.ms-excel", "xls"),
    ("application/vnd.openxmlformats-officedocument.spreadsheetml.sheet", "xlsx"),
    ("application/vnd.oasis.opendocument.spreadsheet", "ods"),
    ("application/vnd.ms-powerpoint", "ppt"), ("application/powerpoint", "ppt"),
    ("application/x-mspowerpoint", "ppt"),
    ("application/vnd.openxmlformats-officedocument.presentationml.presentation", "pptx"),
    ("application/pdf", "pdf"), ("text/plain", "txt"), ("text/markdown", "md"), ("text/csv", "csv"),
    ("application/json", "json"), ("application/xml", "xml"), ("text/xml", "xml"),
    ("application/yaml", "yaml"), ("application/x-yaml", "yaml"), ("text/yaml", "yaml"),
    ("text/x-yaml", "yaml")]

def fileTypeFromContentType (contentType : String) : Option String :=
  fileTypesOfContentTypes.lookup (normalizedContentType contentType)

def fileType (filename contentType : String) : Option String :=
  match (normalizedExtension filename).filter fileTypeExtensions.contains with
  | some extension => some extension
  | none => fileTypeFromContentType contentType

inductive Strategy where
  | pdf | text | spreadsheet | docx | pptx | legacyDoc | legacyPpt | document
  deriving DecidableEq

def strategies : List (String × Strategy) :=
  [("pdf", .pdf), ("csv", .spreadsheet), ("xls", .spreadsheet), ("xlsx", .spreadsheet),
    ("ods", .spreadsheet), ("txt", .text), ("log", .text), ("md", .text), ("json", .text),
    ("xml", .text), ("yaml", .text), ("yml", .text), ("docx", .docx), ("pptx", .pptx),
    ("doc", .legacyDoc), ("ppt", .legacyPpt)]

def strategy (filename contentType : String) : Option Strategy :=
  match fileType filename contentType with
  | none => none
  | some type =>
    match strategies.lookup type with
    | some found => some found
    | none => if fileViewerDocumentExtensions.contains type then some .document else none

def isPreviewableImage (contentType : String) : Bool :=
  ["image/jpeg", "image/png", "image/gif", "image/webp", "image/bmp", "image/avif",
    "image/svg+xml"].contains (normalizedContentType contentType)

def isGenericContentType (contentType : String) : Bool :=
  ["", "application/octet-stream"].contains (normalizedContentType contentType)

def imageContentTypes : List (String × String) :=
  [("avif", "image/avif"), ("bmp", "image/bmp"), ("gif", "image/gif"), ("jpeg", "image/jpeg"),
    ("jpg", "image/jpeg"), ("png", "image/png"), ("svg", "image/svg+xml"), ("webp", "image/webp")]

def imageContentTypeForFilename (filename : String) : Option String :=
  (normalizedExtension filename).bind fun extension => imageContentTypes.lookup extension

def isPreviewableVideo (contentType : String) : Bool :=
  ["video/mp4", "video/webm", "video/ogg", "video/quicktime"].contains
    (normalizedContentType contentType)

def kind (filename contentType : String) : Option String :=
  if isPreviewableImage contentType
      || (isGenericContentType contentType && (imageContentTypeForFilename filename).isSome) then
    some "image"
  else if isPreviewableVideo contentType then some "video"
  else (strategy filename contentType).map fun _ => "document"

/-! ## The type that is served -/

/-- The type is missing or says nothing. -/
def saysNothing (contentType : String) : Bool :=
  toAsciiLowercase (trim contentType) = ""
    || toAsciiLowercase (trim contentType) = "application/octet-stream"

def resolvedPreviewContentType (storedContentType registeredContentType filename : String) : String :=
  if strategy filename registeredContentType = some .text then "text/plain; charset=utf-8"
  else if !saysNothing storedContentType then storedContentType
  else if !saysNothing registeredContentType then trim registeredContentType
  else (imageContentTypeForFilename filename).getD "application/octet-stream"

def ensureAttachmentPreviewContentEnabled (a : Attachment) : Except AppError Unit := do
  rejectIf (a.file.status = .deleted) (.notFound "附件已归档，不能预览")
  rejectIf (a.file.status ≠ .uploaded) (.badRequest "附件尚未上传完成，请稍后再试")
  rejectIf (kind a.file.originalFilename a.file.contentType = none)
    (.badRequest "当前文件类型暂不支持预览")

/-! ## The response -/

/-- `text.parse::<usize>()`. -/
def parseUsize (text : List Char) : Option Nat :=
  let digits :=
    match text with
    | '+' :: rest => rest
    | _ => text
  if digits = [] ∨ ¬ digits.all Char.isDigit ∨ 2 ^ 64 ≤ digitsValue digits then none
  else some (digitsValue digits)

def parseSingleByteRange (value : String) (total : Nat) : Option (Nat × Nat) := do
  let range ← stripHead "bytes=" value
  if total = 0 ∨ hasChar ',' range then none
  else
    match splitOnce '-' range.toList with
    | (_, none) => none
    | (start, some stop) =>
      if start = [] then do
        let suffix ← parseUsize stop
        if suffix = 0 then none else some (total - suffix, total - 1)
      else do
        let start ← parseUsize start
        if start ≥ total then none
        else do
          let stop ← (if stop = [] then some (total - 1) else (parseUsize stop).map (min · (total - 1)))
          if start ≤ stop then some (start, stop) else none

structure Response where
  status : Nat
  contentType : Option String
  body : Bytes
  deriving DecidableEq

/-- A request for the content: its method and its `Range` header. -/
structure ContentRequest where
  head : Bool
  range : Option String

/-- What a header may hold. -/
def isHeaderValue (value : String) : Bool :=
  (utf8 value).all fun b => (32 ≤ b && b < 127) || b = 9

/-- `read_object_range`. -/
def readObjectRange (object : StoredObject) (start endExclusive : Nat) : Bytes :=
  (object.content.take endExclusive).drop start

/-- `read_decrypted_attachment_range`. -/
def readDecryptedAttachmentRange (S : FileService) (a : Attachment) (encryption : FileEncryption)
    (object : StoredObject) (start endExclusive : Nat) : Except AppError Bytes := do
  let dataKey ← FileKeys.openDataKey S.keys S.fileMasterKey encryption.dataKeyEnvelope
    (utf8 a.objectKey)
  let headerLen := FileCrypto.Server.headerLenFor a.file.byteSize.toNat
  let header ← (FileCrypto.Server.parseEncryptionHeader (readObjectRange object 0 headerLen)).mapError
    ofFileCrypto
  if start ≥ header.plaintextByteSize ∨ endExclusive > header.plaintextByteSize
      ∨ start ≥ endExclusive then pure []
  else do
    -- The casts to `u32` cut the numbers of the chunks off, and the addition behind them wraps.
    let firstChunk := FileCrypto.Server.asU32 (start / header.chunkSize)
    let lastChunk := FileCrypto.Server.asU32 ((endExclusive - 1) / header.chunkSize)
    let chunkEnd := FileCrypto.Server.asU32 (lastChunk + 1)
    let bodyStart := headerLen + FileCrypto.Server.bodyOffsetForChunk header firstChunk
    let bodyEnd := headerLen + FileCrypto.Server.bodyOffsetForChunk header chunkEnd
    (FileCrypto.Server.decryptBodyRange S.prims dataKey a.file.id header
      (readObjectRange object bodyStart bodyEnd) firstChunk chunkEnd start
      endExclusive).mapError ofFileCrypto

/-- The part that the header asks for: the status, the first byte and the last one. -/
def selectRange (request : ContentRequest) (total : Nat) : Option (Nat × Nat × Nat) :=
  match request.range with
  | none => some (200, 0, total - 1)
  | some value => (parseSingleByteRange value total).map fun (start, stop) => (206, start, stop)

/-- The body of the response: the selected bytes of the plaintext, or nothing. -/
def readBody (S : FileService) (a : Attachment) (object : StoredObject) (head : Bool)
    (status start stop selectedLength : Nat) : Except AppError Bytes :=
  if head ∨ selectedLength = 0 then .ok []
  else
    match a.encryption with
    | some encryption => readDecryptedAttachmentRange S a encryption object start (stop + 1)
    | none =>
      if status = 206 then .ok (readObjectRange object start (stop + 1)) else .ok object.content

/-- `attachment_preview_content_response`, up to the headers that are always the same. -/
def attachmentPreviewContentResponse (S : FileService) (db : AttachmentDb) (request : ContentRequest)
    (a : Attachment) : Except AppError Response := do
  ensureAttachmentPreviewContentEnabled a
  let object ← okOr (db.objects a.objectKey) (.badRequest "读取对象存储元数据失败")
  let contentType := resolvedPreviewContentType
    (object.contentType.getD "application/octet-stream") a.file.contentType a.file.originalFilename
  rejectIf (a.encryption.isSome ∧ a.file.byteSize < 0) (.badRequest "附件大小超出当前预览能力")
  let total := if a.encryption.isSome then a.file.byteSize.toNat else object.content.length
  match selectRange request total with
  | none => pure { status := 416, contentType := none, body := [] }
  | some (status, start, stop) => do
    let selectedLength := if total = 0 then 0 else stop - start + 1
    let body ← readBody S a object request.head status start stop selectedLength
    rejectIf (¬ isHeaderValue contentType) (.badRequest "invalid header value")
    pure { status := status, contentType := some contentType, body := body }

end Preview

end Web
end Yuance
