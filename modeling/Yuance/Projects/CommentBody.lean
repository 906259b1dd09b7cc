import Yuance.Lib.Html
import Yuance.Projects.Validation
import Yuance.Resources.Html

/-!
# Yuance.Projects.CommentBody

The body of a comment in `api/src/domains/projects.rs`: the checks on it, the cleaned HTML that is
stored, and the text prefix that tells the records of the system from the comments of the users. The
scans for attributes, tags and plain text are those of the resources; both sources have their own
copies of them. The HTML cleaner (`ammonia`) is a parameter.
-/

namespace Yuance
namespace Projects

open Lib Platform Resources

/-! ## The cleaner -/

/-- How a builder of the cleaner is set up, beside its defaults. -/
structure CleanerConfig where
  tags : List String
  tagAttributes : List (String × List String)
  genericAttributes : List String
  styleProperties : List String
  /-- `attribute_filter`: whether an attribute of an element is kept. -/
  keepsAttribute : String → String → String → Bool

/-- The cleaner and the parser that it rests on. -/
structure Cleaner where
  clean : CleanerConfig → String → String
  parse : String → List Node
  defaultTags : List String
  startTag : CleanerConfig → String → List (String × String) → List Char
  endTag : String → List Char

/-- What the cleaner keeps: the elements of its lists; only scripts and styles go with what they
contain. -/
def Cleaner.policy (C : Cleaner) (config : CleanerConfig) : Policy where
  allowed := fun name => C.defaultTags.contains name || config.tags.contains name
  dropped := fun name => name == "script" || name == "style"
  startTag := C.startTag config
  endTag := C.endTag

/-- The cleaner writes what it keeps of the parsed body. -/
structure Cleans (C : Cleaner) : Prop where
  written : ∀ config body, (C.clean config body).toList = writtenAll (C.policy config) (C.parse body)

def commentAttachmentUrlLike (value : List Char) : Bool :=
  let path := (trimChars value).takeWhile (· ≠ '?')
  "/web/work-items/".toList.isPrefixOf path && hasText "/comments/" path
    && hasText "/attachments/" path && hasTail "/download" path

/-- The attribute filter of `sanitize_comment_html`. -/
def commentKeepsAttribute (element attr value : String) : Bool :=
  if (element = "img" ∨ element = "source" ∨ element = "video") ∧ attr = "src" then
    commentAttachmentUrlLike value.toList
  else true

def commentConfig : CleanerConfig where
  tags := ["blockquote", "code", "del", "figure", "figcaption", "h1", "h2", "h3", "h4", "h5", "h6",
    "hr", "img", "pre", "span", "video"]
  tagAttributes := [
    ("img", ["src", "alt", "title", "loading"]),
    ("video", ["src", "controls", "preload", "playsinline"]),
    ("a", ["href", "title"]),
    ("span", ["style"])]
  genericAttributes := ["data-yuance-attachment-id", "data-yuance-attachment-kind",
    "data-yuance-align", "data-yuance-file-kind", "data-yuance-file-ext",
    "data-yuance-mention-display-name", "data-yuance-mention-username"]
  styleProperties := ["color", "font-size"]
  keepsAttribute := commentKeepsAttribute

def sanitizeCommentHtml (C : Cleaner) (body : String) : String := C.clean commentConfig body

/-! ## The checks -/

def ensureCommentHtmlTagSourcesAreControlled (body : List Char) (tagName : String) :
    Except AppError Unit :=
  checkTags ('<' :: tagName.toList) (fun tag =>
    rejectIf ((htmlAttributeValue tag "src").any fun source => !commentAttachmentUrlLike source)
      (.badRequest "正文媒体必须使用已上传的评论附件")) body.length body

def ensureCommentHtmlMediaSourcesAreControlled (body : List Char) : Except AppError Unit := do
  ensureCommentHtmlTagSourcesAreControlled body "img"
  ensureCommentHtmlTagSourcesAreControlled body "source"
  ensureCommentHtmlTagSourcesAreControlled body "video"

def ensureCommentHtmlAttachmentLinksAreControlled (body : List Char) : Except AppError Unit :=
  checkTags ['<', 'a'] (fun tag =>
    rejectIf (hasText "data-yuance-attachment-kind" (tag.map asciiLower) ∧
        (htmlAttributeValue tag "href").any fun href => !commentAttachmentUrlLike href)
      (.badRequest "正文附件链接必须使用已上传的评论附件")) body.length body

def commentHtmlHasMediaReference (body : String) : Bool :=
  hasText "/comments/" body.toList && hasText "/attachments/" body.toList

inductive CommentBodyFormat where
  | plain
  | html
  deriving DecidableEq, Repr

def normalizeCommentBodyFormat (bodyFormat : String) : Except AppError CommentBodyFormat :=
  if trim bodyFormat = "" ∨ trim bodyFormat = "plain" then .ok .plain
  else if trim bodyFormat = "html" then .ok .html
  else .error (.badRequest "评论格式只能是 plain / html")

/-! ## Flow records -/

def workItemFlowCommentHead : String := "[yuance-flow] "

/-- The body without the prefix of a flow record, and whether it has it. -/
def normalizeWorkItemCommentBody (body : String) : String × Bool :=
  match stripHead workItemFlowCommentHead body with
  | some flowBody => (flowBody, true)
  | none => (body, false)

def encodeFlowCommentBody (body : String) : String := workItemFlowCommentHead ++ body

/-- `body LIKE '[yuance-flow] %'`. -/
def isFlowRow (body : String) : Bool :=
  likePattern (workItemFlowCommentHead ++ "%").toList body.toList

def ensurePlainWorkItemCommentBody (body : String) : Except AppError Unit :=
  rejectIf (hasHead workItemFlowCommentHead body) (.badRequest "评论内容不能使用系统流程前缀")

/-! ## The stored body -/

structure PreparedWorkItemCommentBody where
  body : String
  bodyFormat : CommentBodyFormat
  plainText : String
  deriving DecidableEq, Repr

def prepareHtmlBody (C : Cleaner) (body subject : String) :
    Except AppError PreparedWorkItemCommentBody := do
  let rawBody ← validateOptionalText body "评论内容" 20000
  ensurePlainWorkItemCommentBody (htmlToPlainText rawBody)
  ensureCommentHtmlMediaSourcesAreControlled rawBody.toList
  ensureCommentHtmlAttachmentLinksAreControlled rawBody.toList
  let body := sanitizeCommentHtml C rawBody
  let plainText := htmlToPlainText body
  rejectIf (plainText = "" ∧ ¬ commentHtmlHasMediaReference body)
    (.badRequest (subject ++ "不能为空：请输入文字或上传图片/附件"))
  pure { body, bodyFormat := .html, plainText }

def preparePlainBody (body subject : String) : Except AppError PreparedWorkItemCommentBody := do
  let body ← validateOptionalText body "评论内容" 5000
  rejectIf (body = "") (.badRequest (subject ++ "不能为空：请输入文字"))
  ensurePlainWorkItemCommentBody body
  pure { body, bodyFormat := .plain, plainText := body }

def prepareWorkItemCommentBody (C : Cleaner) (body bodyFormat subject : String) :
    Except AppError PreparedWorkItemCommentBody := do
  let bodyFormat ← normalizeCommentBodyFormat bodyFormat
  match bodyFormat with
  | .html => prepareHtmlBody C body subject
  | .plain => preparePlainBody body subject

/-! ## References and mentions -/

def invalidCommentReference : AppError := .badRequest "评论附件引用无效"

/-- The loop of `extract_comment_attachment_references`. -/
def commentReferencesFrom : Nat → List Char → Except AppError (List (Int × Int))
  | 0, _ => .ok []
  | fuel + 1, remaining =>
    match cutAt "/comments/".toList remaining with
    | none => .ok []
    | some (_, behind) =>
      let commentDigits := leadingDigits behind
      let rest := behind.drop commentDigits.length
      if commentDigits = [] ∨ ¬ "/attachments/".toList.isPrefixOf rest then
        commentReferencesFrom fuel behind
      else
        let rest := rest.drop "/attachments/".toList.length
        let attachmentDigits := leadingDigits rest
        if attachmentDigits = [] then commentReferencesFrom fuel rest
        else do
          let commentId ← okOr (parseInt64 commentDigits) invalidCommentReference
          let attachmentId ← okOr (parseInt64 attachmentDigits) invalidCommentReference
          let references ← commentReferencesFrom fuel rest
          pure ((commentId, attachmentId) :: references)

def extractCommentAttachmentReferences (body : String) : Except AppError (List (Int × Int)) := do
  let references ← commentReferencesFrom body.toList.length body.toList
  pure (orderBy pairLe references).dedup

/-- The loop of `extract_comment_mention_usernames` over the tags. -/
def mentionUsernamesFrom : Nat → List String → List Char → Except AppError (List String)
  | 0, usernames, _ => .ok usernames
  | fuel + 1, usernames, rest =>
    let tag := rest.dropWhile (· ≠ '<')
    match tag.dropWhile (· ≠ '>') with
    | [] => .ok usernames
    | close :: behind =>
      match htmlAttributeValue (tag.takeWhile (· ≠ '>') ++ [close]) "data-yuance-mention-username" with
      | none => mentionUsernamesFrom fuel usernames behind
      | some value => do
        let username ← validateUsernameRef (String.ofList value)
        mentionUsernamesFrom fuel
          (if usernames.contains username then usernames else usernames ++ [username]) behind

def extractCommentMentionUsernames (body : String) :
    CommentBodyFormat → Except AppError (List String)
  | .plain => .ok []
  | .html => mentionUsernamesFrom body.toList.length [] body.toList

end Projects
end Yuance
