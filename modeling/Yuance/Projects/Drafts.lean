import Yuance.Files.DeletionJobs
import Yuance.Projects.CommentBody
import Yuance.Projects.Operations

/-!
# Yuance.Projects.Drafts

How the draft of a comment ends in `api/src/domains/projects.rs`: it is published, with a
notification for everyone it replies to or mentions, or it is cancelled and its files are queued for
deletion. Both calls look at the draft before their transaction, and the transaction changes it only
if it still is a draft. The activity that a publication records, the names that a comment is shown
with and its times are left out.

* `Db.publish`, `Db.cancel`: the two transactions.
* `publishWorkItemCommentDraft`, `cancelWorkItemCommentDraft`: the calls.
-/

namespace Yuance
namespace Projects
namespace Drafts

open Lib Platform
open Files.Deletion (ObjectStatus Tables)

/-- A row of `work_item_comments`. -/
structure CommentRow where
  id : Int
  workItemId : Int
  authorUserId : Option Int
  parentCommentId : Option Int
  body : String
  bodyFormat : CommentBodyFormat
  actorDisplayNameSnapshot : String
  isDraft : Bool
  deletedAt : Option Int
  deriving DecidableEq, Repr

structure WorkItemCommentSummary where
  id : Int
  parentCommentId : Option Int
  body : String
  bodyFormat : CommentBodyFormat
  authorUserId : Option Int
  isFlow : Bool
  isDraft : Bool
  deriving DecidableEq, Repr

inductive AttachmentTarget where
  | project
  | projectResource
  | workItem
  | comment
  deriving DecidableEq, Repr

/-- A row of `file_attachments`. -/
structure Attachment where
  id : Int
  fileObjectId : Int
  targetType : AttachmentTarget
  targetId : Int
  deriving DecidableEq, Repr

inductive NotificationKind where
  | commentReplied
  | commentMentioned
  deriving DecidableEq, Repr

/-- A row of `notifications`. -/
structure Notification where
  recipientUserId : Int
  actorUserId : Int
  actorDisplayNameSnapshot : String
  kind : NotificationKind
  workItemId : Int
  commentId : Option Int
  title : String
  body : String
  deriving DecidableEq, Repr

/-- The tables, with those of `Projects` as `base`. -/
structure Db where
  base : Projects.Db
  comments : List CommentRow
  attachments : List Attachment
  /-- Resources that are not archived. -/
  resources : List Int
  /-- Files of release assets. -/
  releaseFiles : List Int
  files : Tables
  notifications : List Notification

/-- What the transaction of a publication writes. -/
structure Publication where
  actorUserId : Int
  itemKey : String
  workItemId : Int
  commentId : Int
  prepared : PreparedWorkItemCommentBody
  actorDisplayNameSnapshot : String
  replyRecipient : Option Int
  /-- The ids and the names of the mentioned users. -/
  mentionTargets : List (Int × String)

/-- `CreateNotification`, as `create_in_transaction` inserts it. -/
def createNotification (p : Publication) (recipientUserId : Int) (kind : NotificationKind)
    (title : String) : List Notification :=
  if recipientUserId = p.actorUserId ∧ trim p.actorDisplayNameSnapshot = "" then []
  else
    [{ recipientUserId, actorUserId := p.actorUserId
       actorDisplayNameSnapshot := trim p.actorDisplayNameSnapshot, kind
       workItemId := p.workItemId, commentId := some p.commentId, title
       body := p.prepared.plainText }]

/-- The notification of the author that the comment replies to. -/
def Publication.replyNotifications (p : Publication) : List Notification :=
  match p.replyRecipient with
  | none => []
  | some recipientUserId =>
    if (p.mentionTargets.map (·.1)).contains recipientUserId then []
    else
      createNotification p recipientUserId .commentReplied ("你在 " ++ p.itemKey ++ " 的内容收到回复")

def Publication.mentionNotifications (p : Publication) : List Notification :=
  p.mentionTargets.flatMap fun target =>
    if target.1 = p.actorUserId then []
    else createNotification p target.1 .commentMentioned ("你在 " ++ p.itemKey ++ " 中被提及")

namespace Db

variable (db : Db)

def comment (id : Int) : Option CommentRow := db.comments.find? (·.id == id)

/-- `get_work_item_comment_by_visibility`. -/
def visibleComment (workItemId commentId : Int) (includeDrafts : Bool) :
    Option WorkItemCommentSummary :=
  (db.comments.find? fun c => c.id == commentId && c.workItemId == workItemId
    && c.deletedAt.isNone && (includeDrafts || !c.isDraft)).map fun c =>
      let (body, isFlow) := normalizeWorkItemCommentBody c.body
      { id := c.id, parentCommentId := c.parentCommentId, body, bodyFormat := c.bodyFormat,
        authorUserId := c.authorUserId, isFlow, isDraft := c.isDraft }

/-- The status of the file of an attachment of the comment. -/
def attachmentStatus (attachmentId commentId : Int) : Option ObjectStatus :=
  ((db.attachments.find? fun a => a.id == attachmentId && a.targetType == .comment
    && a.targetId == commentId).bind fun a => db.files.object a.fileObjectId).map (·.status)

/-- The enabled members of the project with one of the names. -/
def mentionTargets (projectId : Int) (usernames : List String) : List (Int × String) :=
  (db.base.users.filter fun u => u.active && usernames.contains u.username).flatMap fun u =>
    (db.base.members.filter fun m => m.projectId == projectId && m.userId == u.id).map fun _ =>
      (u.id, u.username)

def isTargetAlive : AttachmentTarget → Int → Bool
  | .project, id => db.base.projects.any fun p => p.id == id && p.status != .archived
  | .projectResource, id => db.resources.contains id
  | .workItem, id => db.base.workItems.any (·.id == id)
  | .comment, id => db.comments.any fun c => c.id == id && c.deletedAt.isNone

/-- `file_object_has_protecting_references_in_tx`. -/
def hasProtectingReferences (fileObjectId : Int) : Bool :=
  (db.attachments.any fun a => a.fileObjectId == fileObjectId
    && db.isTargetAlive a.targetType a.targetId) || db.releaseFiles.contains fileObjectId

/-- The `WHERE` of the update that ends a draft. -/
def isOpenDraft (workItemId commentId : Int) (c : CommentRow) : Bool :=
  c.id == commentId && c.workItemId == workItemId && c.isDraft && c.deletedAt.isNone

def publishedRow (p : Publication) (c : CommentRow) : CommentRow :=
  { c with
    body := p.prepared.body
    bodyFormat := p.prepared.bodyFormat
    actorDisplayNameSnapshot := p.actorDisplayNameSnapshot
    isDraft := false }

def draftMissing : AppError := .notFound "草稿评论不存在"

/-- The transaction of `publish_work_item_comment_draft`. -/
def publish (p : Publication) : Db × Except AppError Unit :=
  if ¬ db.comments.any (isOpenDraft p.workItemId p.commentId) then (db, .error draftMissing)
  else if (db.base.user p.actorUserId).isNone then (db, .error .storage)
  else
    ({ db with
       comments := updateWhere (isOpenDraft p.workItemId p.commentId) (publishedRow p) db.comments
       notifications := db.notifications ++ p.replyNotifications ++ p.mentionNotifications }, .ok ())

/-- The files of the comment, each once, in the order of their ids. -/
def filesOfComment (commentId : Int) : List Int :=
  let ids := (db.attachments.filter fun a => a.targetType == .comment && a.targetId == commentId
    && (db.files.object a.fileObjectId).any (·.status != .deleted)).map (·.fileObjectId)
  (orderBy (fun x y => decide (x ≤ y)) ids).dedup

/-- The loop over the files, in the transaction. -/
def enqueueFiles (now : Int) : List Int → Db → Except AppError Db
  | [], db => .ok db
  | fileObjectId :: rest, db =>
    if db.hasProtectingReferences fileObjectId then enqueueFiles now rest db
    else
      match db.files.enqueueDeletedFileObject now fileObjectId with
      | (files, .ok ()) => enqueueFiles now rest { db with files := files }
      | (_, .error e) => .error e

/-- The transaction of `cancel_work_item_comment_draft`. -/
def cancel (now actorUserId workItemId commentId : Int) : Db × Except AppError Unit :=
  let isOwnDraft := fun c : CommentRow =>
    isOpenDraft workItemId commentId c && c.authorUserId == some actorUserId
  if ¬ db.comments.any isOwnDraft then (db, .error draftMissing)
  else
    let cancelled : Db :=
      { db with comments := updateWhere isOwnDraft ({ · with deletedAt := some now }) db.comments }
    match enqueueFiles now (cancelled.filesOfComment commentId) cancelled with
    | .ok db' => (db', .ok ())
    | .error e => (db, .error e)

end Db

/-! ## Statements -/

inductive Statement where
  | item (itemKey : String)
  | comment (workItemId commentId : Int) (includeDrafts : Bool)
  | attachmentStatus (attachmentId commentId : Int)
  | mentionTargets (projectId : Int) (usernames : List String)
  | publish (publication : Publication)
  | cancel (actorUserId workItemId commentId : Int)

abbrev Statement.Answer : Statement → Type
  | item _ => Option ItemRow
  | comment .. => Option WorkItemCommentSummary
  | attachmentStatus .. => Option ObjectStatus
  | mentionTargets .. => List (Int × String)
  | publish _ => Unit
  | cancel .. => Unit

def execute (now : Int) (db : Db) : (s : Statement) → Db × Except AppError s.Answer
  | .item itemKey => (db, .ok (db.base.item itemKey))
  | .comment workItemId commentId includeDrafts =>
    (db, .ok (db.visibleComment workItemId commentId includeDrafts))
  | .attachmentStatus attachmentId commentId =>
    (db, .ok (db.attachmentStatus attachmentId commentId))
  | .mentionTargets projectId usernames => (db, .ok (db.mentionTargets projectId usernames))
  | .publish p => db.publish p
  | .cancel actorUserId workItemId commentId => db.cancel now actorUserId workItemId commentId

def perform (m : Moment) (s : Statement) (db : Db) : Db × Except AppError s.Answer :=
  match m.fault with
  | some e => (db, .error e)
  | none => execute m.now db s

/-! ## Calls -/

abbrev Task (α : Type) := Call Statement Statement.Answer AppError α

def query (s : Statement) : Task s.Answer := Call.make s

def normalizeActorDisplayNameSnapshot (displayName : String) : String :=
  String.ofList ((trim displayName).toList.take 160)

def getItem (itemKey : String) : Task ItemRow := do
  let row ← query (.item itemKey)
  Call.okOr row itemMissing

def getComment (workItemId commentId : Int) (includeDrafts : Bool) :
    Task WorkItemCommentSummary := do
  let comment ← query (.comment workItemId commentId includeDrafts)
  Call.okOr comment (.notFound "评论不存在")

/-- The loop of `ensure_comment_body_attachment_references`. -/
def ensureReferences (commentId : Int) : List (Int × Int) → Task Unit
  | [] => pure ()
  | (referencedCommentId, attachmentId) :: rest => do
    Call.rejectIf (referencedCommentId ≠ commentId) (.badRequest "不能引用其他评论的附件")
    let status ← query (.attachmentStatus attachmentId commentId)
    let status ← Call.okOr status (.badRequest "评论附件引用不存在")
    Call.rejectIf (status ≠ ObjectStatus.uploaded) (.badRequest "只能引用已上传完成的评论附件")
    ensureReferences commentId rest

def ensureCommentBodyAttachmentReferences (commentId : Int) (body : String) : Task Unit := do
  let references ← Call.ofExcept (extractCommentAttachmentReferences body)
  ensureReferences commentId references

/-- The author of the comment that the draft replies to. -/
def replyRecipient (workItemId : Int) : Option Int → Task (Option Int)
  | none => pure none
  | some parentCommentId => do
    let parent ← getComment workItemId parentCommentId false
    Call.rejectIf (parent.isFlow = true) (.badRequest "不能回复系统流程记录")
    pure parent.authorUserId

def resolveProjectMentionTargets (projectId : Int) (usernames : List String) :
    Task (List (Int × String)) :=
  if usernames = [] then pure []
  else do
    let resolved ← query (.mentionTargets projectId usernames)
    let missing := usernames.filter fun username => !(resolved.any (·.2 == username))
    Call.rejectIf (missing ≠ [])
      (.badRequest ("以下被提及用户不是当前项目成员：" ++ "、".intercalate missing))
    pure resolved

/-- The checks of both calls on the draft. -/
def ensureOwnDraft (actorUserId : Int) (draft : WorkItemCommentSummary) (flow foreign : String) :
    Except AppError Unit := do
  rejectIf (draft.isDraft = false) (.badRequest "该评论不是草稿")
  rejectIf (draft.isFlow = true) (.forbidden flow)
  rejectIf (draft.authorUserId ≠ some actorUserId) (.forbidden foreign)

/-- `publish_work_item_comment_draft` from the checks of the draft on. -/
def applyPublish (actorUserId : Int) (itemKey : String) (commentId : Int)
    (prepared : PreparedWorkItemCommentBody) (snapshot : String) (row : ItemRow)
    (draft : WorkItemCommentSummary) : Task WorkItemCommentSummary := do
  Call.ofExcept (ensureOwnDraft actorUserId draft "流程记录不能作为草稿发布" "只能发布自己的草稿评论")
  ensureCommentBodyAttachmentReferences commentId prepared.body
  let reply ← replyRecipient row.item.id draft.parentCommentId
  let usernames ← Call.ofExcept (extractCommentMentionUsernames prepared.body prepared.bodyFormat)
  let targets ← resolveProjectMentionTargets row.item.projectId usernames
  query (.publish
    { actorUserId, itemKey, workItemId := row.item.id, commentId, prepared
      actorDisplayNameSnapshot := snapshot, replyRecipient := reply, mentionTargets := targets })
  getComment row.item.id commentId false

def publishWorkItemCommentDraft (C : Cleaner) (actorUserId : Int) (itemKey : String)
    (commentId : Int) (body bodyFormat actorDisplayNameSnapshot : String) :
    Task WorkItemCommentSummary := do
  let prepared ← Call.ofExcept (prepareWorkItemCommentBody C body bodyFormat "评论")
  let row ← getItem itemKey
  Call.ofExcept (ensureProjectAcceptsWrites row.project.status)
  let draft ← getComment row.item.id commentId true
  applyPublish actorUserId itemKey commentId prepared
    (normalizeActorDisplayNameSnapshot actorDisplayNameSnapshot) row draft

def cancelWorkItemCommentDraft (actorUserId : Int) (itemKey : String) (commentId : Int) :
    Task WorkItemCommentSummary := do
  let row ← getItem itemKey
  Call.ofExcept (ensureProjectAcceptsWrites row.project.status)
  let draft ← getComment row.item.id commentId true
  Call.ofExcept (ensureOwnDraft actorUserId draft "流程记录不能作为草稿取消" "只能取消自己的草稿评论")
  query (.cancel actorUserId row.item.id commentId)
  pure draft

inductive Request where
  | publish (actorUserId : Int) (itemKey : String) (commentId : Int)
      (body bodyFormat actorDisplayNameSnapshot : String)
  | cancel (actorUserId : Int) (itemKey : String) (commentId : Int)

def Request.commentId : Request → Int
  | publish _ _ commentId _ _ _ => commentId
  | cancel _ _ commentId => commentId

def start (C : Cleaner) : Request → Task WorkItemCommentSummary
  | .publish actorUserId itemKey commentId body bodyFormat actorDisplayNameSnapshot =>
    publishWorkItemCommentDraft C actorUserId itemKey commentId body bodyFormat
      actorDisplayNameSnapshot
  | .cancel actorUserId itemKey commentId =>
    cancelWorkItemCommentDraft actorUserId itemKey commentId

abbrev Server := Serving Statement Statement.Answer AppError WorkItemCommentSummary Db

end Drafts
end Projects
end Yuance
