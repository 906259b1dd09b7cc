import Yuance.Lib.Json
import Yuance.Lib.Scan
import Yuance.Lib.Table
import Yuance.Platform.Crypto

/-!
# Yuance.Resources.Html

How `api/src/domains/project_resources.rs` reads and rewrites the HTML of a resource: the scans over
the text of the body for media, links and attachment references, and the steps that make the body
that is stored. The HTML cleaner (`ammonia`), the XML reader (`quick_xml`) and the check of an SVG
file are parameters.
-/

namespace Yuance
namespace Resources

open Lib Platform

/-- An event of the XML reader: the start of an element, with the text between its brackets, or
anything else, with its text. -/
inductive XmlEvent where
  | start (name : String) (attributes : List (String × String)) (raw : String)
  | other (raw : String)
  deriving DecidableEq, Repr

/-- The libraries that a body passes through. -/
structure Markup where
  /-- The cleaner, with the test of the attributes it is configured with. -/
  clean : (String → String → String → Bool) → String → String
  /-- `quick_xml::escape::unescape`. -/
  unescape : String → Option String
  /-- The events up to the end, if the reader finds no error. -/
  events : String → Option (List XmlEvent)
  /-- `validate_svg_content(content).is_ok()`. -/
  validSvg : Bytes → Bool
  /-- A fresh section id: UUIDs are drawn until one is not taken. -/
  freshSectionId : List String → String

/-! ## Attributes and links -/

def singleQuote : Char := Char.ofNat 39

def doubleQuote : Char := Char.ofNat 34

def readHtmlAttributeValue : List Char → List Char
  | [] => []
  | c :: cs =>
    if c = doubleQuote ∨ c = singleQuote then trimChars (cs.takeWhile (· ≠ c))
    else trimChars ((c :: cs).takeWhile fun x => !(isWhitespace x || x == '>'))

/-- The character before an attribute. -/
def isAttributeBoundary : Option Char → Bool
  | none => false
  | some c => c == '<' || c == '/' || isWhitespace c

/-- The loop of `html_attribute_value`, with the character before the rest of the tag. -/
def attributeValueFrom (name : List Char) : Nat → Option Char → List Char → Option (List Char)
  | 0, _, _ => none
  | fuel + 1, previous, rest =>
    match cutAt name (rest.map asciiLower) with
    | none => none
    | some (before, _) =>
      let behind := rest.drop (before.length + name.length)
      match isAttributeBoundary (before.getLast?.or previous), trimStart behind with
      | true, '=' :: value => some (readHtmlAttributeValue (trimStart value))
      | _, _ => attributeValueFrom name fuel name.getLast? behind

def htmlAttributeValue (tag : List Char) (name : String) : Option (List Char) :=
  attributeValueFrom name.toList tag.length none tag

def resourceAttachmentUrlLike (value : List Char) (projectKey : String) (resourceId : Int) : Bool :=
  let path := (trimChars value).takeWhile (· ≠ '?')
  "/web/projects/".toList.isPrefixOf path && hasText "/resources/" path
    && (resourceId ≤ 0 || hasText ("/resources/" ++ toString resourceId ++ "/attachments/") path)
    && (projectKey = ""
      || ("/web/projects/" ++ trim projectKey ++ "/").toList.isPrefixOf path)
    && hasText "/attachments/" path && hasTail "/download" path

/-- The loop over the tags that begin with `marker`: each must pass `check`. Where the last one is
not closed, the search goes on behind the end of the body, which panics. -/
def checkTags (marker : List Char) (check : List Char → Except AppError Unit) :
    Nat → List Char → Except AppError Unit
  | 0, _ => .ok ()
  | fuel + 1, rest =>
    match cutAt marker (rest.map asciiLower) with
    | none => .ok ()
    | some (before, _) => do
      let tag := rest.drop before.length
      check (tag.takeWhile (· ≠ '>'))
      match tag.dropWhile (· ≠ '>') with
      | [] => .error .panicked
      | _ :: behind => checkTags marker check fuel behind

def ensureResourceHtmlTagSourcesAreControlled (body : List Char) (tagName projectKey : String)
    (resourceId : Int) : Except AppError Unit :=
  checkTags ('<' :: tagName.toList) (fun tag =>
    rejectIf ((htmlAttributeValue tag "src").any fun source =>
        !resourceAttachmentUrlLike source projectKey resourceId)
      (.badRequest "正文媒体必须使用已上传的资料附件")) body.length body

def ensureResourceHtmlMediaSourcesAreControlled (body : List Char) (projectKey : String)
    (resourceId : Int) : Except AppError Unit := do
  ensureResourceHtmlTagSourcesAreControlled body "img" projectKey resourceId
  ensureResourceHtmlTagSourcesAreControlled body "source" projectKey resourceId
  ensureResourceHtmlTagSourcesAreControlled body "video" projectKey resourceId

def ensureResourceHtmlAttachmentLinksAreControlled (body : List Char) (projectKey : String)
    (resourceId : Int) : Except AppError Unit :=
  checkTags ['<', 'a'] (fun tag =>
    rejectIf (hasText "data-yuance-attachment-kind" (tag.map asciiLower) ∧
        (htmlAttributeValue tag "href").any fun href =>
          !resourceAttachmentUrlLike href projectKey resourceId)
      (.badRequest "正文附件链接必须使用已上传的资料附件")) body.length body

/-! ## Attachment references -/

def invalidReference : AppError := .badRequest "资料附件引用无效"

/-- The loop of `extract_resource_attachment_references`. -/
def referencesFrom : Nat → List Char → Except AppError (List (Int × Int))
  | 0, _ => .ok []
  | fuel + 1, remaining =>
    match cutAt "/resources/".toList remaining with
    | none => .ok []
    | some (_, behind) =>
      let resourceDigits := leadingDigits behind
      let rest := behind.drop resourceDigits.length
      if resourceDigits = [] ∨ ¬ "/attachments/".toList.isPrefixOf rest then
        referencesFrom fuel behind
      else
        let rest := rest.drop "/attachments/".toList.length
        let attachmentDigits := leadingDigits rest
        if attachmentDigits = [] then referencesFrom fuel rest
        else do
          let resourceId ← okOr (parseInt64 resourceDigits) invalidReference
          let attachmentId ← okOr (parseInt64 attachmentDigits) invalidReference
          let references ← referencesFrom fuel rest
          pure ((resourceId, attachmentId) :: references)

def pairLe (x y : Int × Int) : Bool := x.1 < y.1 || (x.1 == y.1 && x.2 ≤ y.2)

def extractResourceAttachmentReferences (body : List Char) : Except AppError (List (Int × Int)) := do
  let references ← referencesFrom body.length body
  pure (orderBy pairLe references).dedup

/-! ## The body that is stored -/

def isSectionChar (c : Char) : Bool := c.isAlphanum || c == '-' || c == '_'

def validResourceSectionId (value : String) : Bool :=
  match stripHead "yuance-section-" value with
  | none => false
  | some suffix => suffix ≠ "" && byteLen suffix ≤ 80 && suffix.toList.all isSectionChar

def svgDataHead : String := "data:image/svg+xml;base64,"

section Rewriting

variable (M : Markup)

def isSafeInlineSvgDataUrl (value : String) : Bool :=
  match stripHead svgDataHead value with
  | none => false
  | some encoded =>
    match Base64.decode Base64.standard encoded with
    | none => false
    | some content => M.validSvg content

/-- The attribute filter of `sanitize_resource_html`: whether an attribute is kept. -/
def keepsAttribute (projectKey : String) (resourceId : Int) (element attr value : String) :
    Bool :=
  if attr = "data-yuance-section-id" ∧ ¬ validResourceSectionId value then false
  else if "data:".toList.isPrefixOf (trimStart value.toList) then
    element == "img" && attr == "src" && isSafeInlineSvgDataUrl M value
  else if (element = "img" ∨ element = "source" ∨ element = "video") ∧ attr = "src" then
    resourceAttachmentUrlLike value.toList projectKey resourceId || isSafeInlineSvgDataUrl M value
  else true

def svgImage (content : Bytes) : List Char :=
  "<p class=\"resource-inline-svg\"><img src=\"".toList ++ svgDataHead.toList
    ++ Base64.encodeChars Base64.standard content
    ++ "\" alt=\"SVG 流程图\" loading=\"lazy\"></p>".toList

/-- The image that stands for a `details` block, if its code is a safe SVG. -/
def svgReplacement (block : List Char) : Option (List Char) := do
  let (_, behind) ← cutAt "<pre><code>".toList block
  let (encoded, _) ← cutAt "</code></pre>".toList behind
  let decoded ← M.unescape (String.ofList encoded)
  if "<svg".toList.isPrefixOf (trimStart decoded.toList) && M.validSvg (utf8 decoded) then
    some (svgImage (utf8 decoded))
  else none

/-- The loop of `inline_safe_svg_code_blocks`. -/
def inlineSvgFrom : Nat → List Char → List Char
  | 0, rest => rest
  | fuel + 1, rest =>
    match cutAt "<details".toList rest with
    | none => rest
    | some (before, _) =>
      let details := rest.drop before.length
      match cutAt "</details>".toList details with
      | none => before ++ details
      | some (inside, behind) =>
        let block := inside ++ "</details>".toList
        before ++ (svgReplacement M block).getD block ++ inlineSvgFrom fuel behind

def inlineSafeSvgCodeBlocks (body : String) : String :=
  String.ofList (inlineSvgFrom M body.toList.length body.toList)

def sanitizeResourceHtml (body projectKey : String) (resourceId : Int) : String :=
  M.clean (keepsAttribute M projectKey resourceId) (inlineSafeSvgCodeBlocks M body)

def isHeading (name : String) : Bool := ["h1", "h2", "h3", "h4", "h5", "h6"].contains name

def sectionAttribute : String := "data-yuance-section-id"

/-- The section ids that headings already have. -/
def reservedSections (events : List XmlEvent) : List String :=
  events.flatMap fun
    | .start name attributes _ =>
      if isHeading name then
        (attributes.filter fun a => a.1 == sectionAttribute && validResourceSectionId a.2).map (·.2)
      else []
    | .other _ => []

/-- An element as the writer puts it out. -/
def startTag (name : String) (attributes : List (String × String)) : String :=
  "<" ++ name ++ String.join (attributes.map fun a => " " ++ a.1 ++ "=\"" ++ a.2 ++ "\"") ++ ">"

/-- The section id of a heading: its own if it is valid and not yet used. -/
def sectionIdOf (reserved used : List String) (attributes : List (String × String)) : String :=
  match (attributes.find? (·.1 == sectionAttribute)).map (·.2) with
  | some id =>
    if validResourceSectionId id && !used.contains id then id
    else M.freshSectionId (used ++ reserved)
  | none => M.freshSectionId (used ++ reserved)

/-- The events with a section id in every heading, in the order of the text. -/
def writeSections (reserved : List String) : List String → List XmlEvent → String
  | _, [] => ""
  | used, .other raw :: rest => raw ++ writeSections reserved used rest
  | used, .start name attributes raw :: rest =>
    if isHeading name then
      let id := sectionIdOf M reserved used attributes
      startTag name (attributes.filter (·.1 != sectionAttribute) ++ [(sectionAttribute, id)])
        ++ writeSections reserved (id :: used) rest
    else "<" ++ raw ++ ">" ++ writeSections reserved used rest

def normalizeResourceSections (body : String) : String :=
  match M.events body with
  | none => body
  | some events => writeSections M (reservedSections events) [] events

end Rewriting

def resourceJsonMaxBytes : Nat := 16 * 1024 * 1024

def resourceJsonMetadataReserveBytes : Nat := 64 * 1024

def ensureResourceBodyCanBeResubmitted (body : String) : Except AppError Unit :=
  rejectIf (byteLen (String.ofList (Json.stringText body)) + resourceJsonMetadataReserveBytes
      > resourceJsonMaxBytes)
    (.payloadTooLarge "资料正文规范化后的 JSON 字节超过 16 MiB 请求传输容量（预留 64 KiB 给元数据）；未保存，请勿截断 SQL 或章节引用")

/-- The text outside the tags, a blank in the place of each bracket. -/
def textOutsideTags : Bool → List Char → List Char
  | _, [] => []
  | inTag, c :: cs =>
    if c = '<' then ' ' :: textOutsideTags true cs
    else if c = '>' then ' ' :: textOutsideTags false cs
    else if inTag then textOutsideTags true cs
    else c :: textOutsideTags false cs

def decodeBasicHtmlEntities (l : List Char) : List Char :=
  replaceText "&#39;" (String.ofList [singleQuote]) (replaceText "&quot;" "\"" (replaceText "&gt;" ">"
    (replaceText "&lt;" "<" (replaceText "&amp;" "&" (replaceText "&nbsp;" " " l)))))

def htmlToPlainText (value : String) : String :=
  String.ofList (List.intercalate [' ']
    (splitWhitespace (decodeBasicHtmlEntities (textOutsideTags false value.toList))))

def resourceHtmlHasMediaReference (body : String) : Bool :=
  hasText "/resources/" body.toList && hasText "/attachments/" body.toList

end Resources
end Yuance
