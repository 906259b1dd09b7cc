import Yuance.Projects.Validation
import Yuance.Resources.Html

/-!
# Yuance.Resources.Store

The resources of `api/src/domains/project_resources.rs` with their tags and relations: the checks of
their input, and the calls that create a resource, change it and reset its password. The hash of
passwords, the lower case of a text and the libraries that a body passes through are parameters. A
call runs alone here; what it returns to its caller besides the id is left out.
-/

namespace Yuance
namespace Resources

open Lib Platform Files Projects

inductive Category where
  | integration
  | customer
  | meeting
  | implementation
  | other
  deriving DecidableEq, Repr

inductive BodyFormat where
  | plain
  | html
  deriving DecidableEq, Repr

inductive ResourceStatus where
  | active
  | archived
  deriving DecidableEq, Repr

inductive AccessPasswordAction where
  | keep
  | set
  | clear
  deriving DecidableEq, Repr

inductive RelationType where
  | workItem
  | cycle
  deriving DecidableEq, Repr

/-- The libraries that a call uses. -/
structure Runtime where
  markup : Markup
  /-- `str::to_lowercase`. -/
  toLowercase : String → String
  /-- `auth::hash_password`, under the salt that it draws. -/
  hashPassword : Bytes → String → Except AppError String
  verifyPassword : String → String → Except AppError Bool

/-! ## Tables -/

structure ProjectRow where
  id : Int
  projectKey : String
  deriving DecidableEq, Repr

structure WorkItemRow where
  id : Int
  projectId : Int
  itemKey : String
  deleted : Bool
  deriving DecidableEq, Repr

structure CycleRow where
  id : Int
  projectId : Int
  deriving DecidableEq, Repr

/-- A row of `file_attachments` on a resource, with the status of its file. -/
structure AttachmentRow where
  id : Int
  targetId : Int
  status : String
  deriving DecidableEq, Repr

structure ResourceRow where
  id : Int
  projectId : Int
  title : String
  category : Category
  body : String
  bodyFormat : BodyFormat
  status : ResourceStatus
  accessPasswordHash : String
  createdByUserId : Int
  createdByDisplayNameSnapshot : String
  updatedByUserId : Int
  updatedByDisplayNameSnapshot : String
  updatedAt : String
  deriving DecidableEq, Repr

/-- The row after an `UPDATE`, which leaves the id. -/
def changed (change : ResourceRow → ResourceRow) (r : ResourceRow) : ResourceRow :=
  { change r with id := r.id }

@[simp] theorem changed_id {change : ResourceRow → ResourceRow} {r : ResourceRow} :
    (changed change r).id = r.id := rfl

structure TagRow where
  id : Int
  projectId : Int
  name : String
  normalizedName : String
  createdByUserId : Int
  deriving DecidableEq, Repr

structure ActivityRow where
  projectId : Int
  actorUserId : Int
  actorDisplayNameSnapshot : String
  action : String
  targetId : String
  summary : String
  deriving DecidableEq, Repr

structure Store where
  projects : List ProjectRow
  workItems : List WorkItemRow
  cycles : List CycleRow
  attachments : List AttachmentRow
  resources : List ResourceRow
  /-- Of the ids of `AUTOINCREMENT`. -/
  nextResource : Int
  tags : List TagRow
  nextTag : Int
  tagRelations : List (Int × Int)
  relations : List (Int × RelationType × Int)
  activities : List ActivityRow
  bound : ∀ r ∈ resources, r.id < nextResource

/-! ## Checks -/

def validateCategory : String → Except AppError Category :=
  oneOf [("", .other), ("other", .other), ("integration", .integration), ("customer", .customer),
    ("meeting", .meeting), ("implementation", .implementation)]
    "资料分类只能是 integration / customer / meeting / implementation / other"

def normalizeBodyFormat : String → Except AppError BodyFormat :=
  oneOf [("", .html), ("html", .html), ("plain", .plain)] "资料正文格式只能是 plain / html"

def normalizeAccessPasswordAction : String → Except AppError AccessPasswordAction :=
  oneOf [("", .keep), ("keep", .keep), ("set", .set), ("clear", .clear)]
    "访问密码操作只能是 keep / set / clear"

def normalizeAccessPasswordResetAction : String → Except AppError AccessPasswordAction :=
  oneOf [("set", .set), ("clear", .clear)] "访问密码重置操作只能是 set / clear"

def validateAccessPassword (password : String) : Except AppError Unit :=
  rejectIf (charCount (trim password) < 4 ∨ charCount (trim password) > 128)
    (.badRequest "资料访问密码长度必须为 4-128 个字符")

def normalizeRelatedCycleId : Option Int → Except AppError (Option Int)
  | none => .ok none
  | some id => if id > 0 then .ok (some id) else .error (.badRequest "关联周期 ID 无效")

structure NormalizedResourceTag where
  name : String
  normalizedName : String
  deriving DecidableEq, Repr

def tagSeparators : List Char := [',', '，', ';', '；', '\n', '\r']

def splitResourceTagCandidates (rawTag : String) : List String :=
  let pieces := rawTag.toList.splitOnP tagSeparators.contains
  (pieces.map fun piece => trim (String.ofList piece)).filter (· ≠ "")

def collapseWhitespace (value : String) : String :=
  String.ofList (List.intercalate [' '] (splitWhitespace value.toList))

/-- One turn of the loop of `normalize_resource_tags`. -/
def addTag (R : Runtime) (normalized : List NormalizedResourceTag) (candidate : String) :
    Except AppError (List NormalizedResourceTag) :=
  let name := collapseWhitespace candidate
  if name = "" then .ok normalized
  else if charCount name > 32 then .error (.badRequest "资料标签单个不能超过 32 个字符")
  else if normalized.any (·.normalizedName == R.toLowercase name) then .ok normalized
  else .ok (normalized ++ [{ name, normalizedName := R.toLowercase name }])

def normalizeResourceTags (R : Runtime) (tags : List String) :
    Except AppError (List NormalizedResourceTag) := do
  let normalized ← (tags.flatMap splitResourceTagCandidates).foldlM (addTag R) []
  rejectIf (normalized.length > 20) (.badRequest "单条资料最多设置 20 个标签")
  pure normalized

/-! ## The body -/

structure PreparedResourceBody where
  body : String
  bodyFormat : BodyFormat
  plainText : String
  deriving DecidableEq, Repr

namespace Store

variable (R : Runtime) (s : Store)

def findResource (resourceId : Int) : Option ResourceRow := s.resources.find? (·.id == resourceId)

def ensureBodyAttachmentReferences (resourceId : Int) (body : List Char) :
    Except AppError Unit := do
  let references ← extractResourceAttachmentReferences body
  forEach (fun reference => do
    rejectIf (reference.1 ≠ resourceId) (.badRequest "不能引用其他资料的附件")
    let attachment ← okOr
      (s.attachments.find? fun a => a.id == reference.2 && a.targetId == resourceId)
      (.badRequest "资料附件引用不存在")
    rejectIf (attachment.status ≠ "uploaded") (.badRequest "只能引用已上传完成的资料附件")) references

def prepareResourceBody (projectKey : String) (resourceId : Int) (body bodyFormat : String)
    (allowEmpty : Bool) : Except AppError PreparedResourceBody := do
  let bodyFormat ← normalizeBodyFormat bodyFormat
  let rawBody := trim body
  match bodyFormat with
  | .html =>
    ensureResourceHtmlMediaSourcesAreControlled rawBody.toList projectKey resourceId
    ensureResourceHtmlAttachmentLinksAreControlled rawBody.toList projectKey resourceId
    s.ensureBodyAttachmentReferences resourceId rawBody.toList
    let body := normalizeResourceSections R.markup
      (sanitizeResourceHtml R.markup rawBody projectKey resourceId)
    ensureResourceBodyCanBeResubmitted body
    let plainText := htmlToPlainText body
    rejectIf (allowEmpty = false ∧ plainText = "" ∧ ¬ resourceHtmlHasMediaReference body)
      (.badRequest "资料正文不能为空")
    pure { body, bodyFormat, plainText }
  | .plain =>
    ensureResourceBodyCanBeResubmitted rawBody
    rejectIf (allowEmpty = false ∧ rawBody = "") (.badRequest "资料正文不能为空")
    pure { body := rawBody, bodyFormat, plainText := rawBody }

/-! ## Statements -/

def insertResource (row : ResourceRow) : Store :=
  { s with
    resources := s.resources ++ [{ row with id := s.nextResource }]
    nextResource := s.nextResource + 1
    bound := by
      intro r hr
      rcases List.mem_append.mp hr with hold | hnew
      · exact lt_trans (s.bound r hold) (Int.lt_succ s.nextResource)
      · rw [List.mem_singleton.mp hnew]
        exact Int.lt_succ s.nextResource }

/-- `UPDATE project_resources SET .. WHERE id = ?1`. -/
def updateResourceRow (resourceId : Int) (change : ResourceRow → ResourceRow) : Store :=
  { s with
    resources := updateWhere (·.id == resourceId) (changed change) s.resources
    bound := by
      intro r hr
      obtain ⟨r', hr', rfl⟩ := mem_updateWhere.mp hr
      rw [apply_ite ResourceRow.id, changed_id, ite_self]
      exact s.bound r' hr' }

/-- The tag, inserted or renamed. -/
def upsertTag (projectId actorUserId : Int) (tag : NormalizedResourceTag) : Store :=
  let isTag (t : TagRow) := t.projectId == projectId && t.normalizedName == tag.normalizedName
  if s.tags.any isTag then
    { s with tags := updateWhere isTag (fun t => { t with name := tag.name }) s.tags }
  else
    let row : TagRow :=
      { id := s.nextTag, projectId, name := tag.name, normalizedName := tag.normalizedName
        createdByUserId := actorUserId }
    { s with tags := s.tags ++ [row], nextTag := s.nextTag + 1 }

/-- One turn of the loop of `sync_resource_tags`. -/
def syncTag (projectId actorUserId resourceId : Int) (s : Store) (tag : NormalizedResourceTag) :
    Except AppError Store := do
  let s := s.upsertTag projectId actorUserId tag
  let row ← okOr (s.tags.find? fun t => t.projectId == projectId
    && t.normalizedName == tag.normalizedName) .storage
  rejectIf ((resourceId, row.id) ∈ s.tagRelations) .storage
  pure { s with tagRelations := s.tagRelations ++ [(resourceId, row.id)] }

def syncResourceTags (projectId actorUserId resourceId : Int) (tags : List NormalizedResourceTag) :
    Except AppError Store :=
  tags.foldlM (syncTag projectId actorUserId resourceId)
    { s with tagRelations := s.tagRelations.filter (·.1 != resourceId) }

def relate (relation : Int × RelationType × Int) : Store :=
  { s with relations := s.relations ++ [relation] }

def relateWorkItem (projectId resourceId : Int) (relatedWorkItemKey : String) :
    Except AppError Store :=
  if trim relatedWorkItemKey = "" then .ok s
  else do
    let item ← okOr (s.workItems.find? fun w => w.projectId == projectId
      && w.itemKey == trim relatedWorkItemKey && !w.deleted)
      (.badRequest "关联工作项不存在，或不属于当前项目")
    pure (s.relate (resourceId, .workItem, item.id))

def relateCycle (projectId resourceId : Int) : Option Int → Except AppError Store
  | none => .ok s
  | some cycleId => do
    let cycle ← okOr (s.cycles.find? fun c => c.id == cycleId && c.projectId == projectId)
      (.badRequest "关联周期不存在，或不属于当前项目")
    pure (s.relate (resourceId, .cycle, cycle.id))

def syncResourceRelations (projectId resourceId : Int) (relatedWorkItemKey : String)
    (relatedCycleId : Option Int) : Except AppError Store := do
  let s := { s with relations := s.relations.filter (·.1 != resourceId) }
  let s ← s.relateWorkItem projectId resourceId relatedWorkItemKey
  s.relateCycle projectId resourceId relatedCycleId

def recordProjectActivity (projectId actorUserId : Int) (actorDisplayNameSnapshot action : String)
    (resourceId : Int) (summary : String) : Store :=
  let activity : ActivityRow :=
    { projectId, actorUserId, actorDisplayNameSnapshot := trim actorDisplayNameSnapshot, action
      targetId := toString resourceId, summary }
  { s with activities := s.activities ++ [activity] }

/-! ## Calls -/

/-- `get_resource`, which joins the project. -/
def getResource (resourceId : Int) : Except AppError (ResourceRow × ProjectRow) := do
  rejectIf (resourceId ≤ 0) (.badRequest "资料 ID 无效")
  let resource ← okOr (s.findResource resourceId) (.notFound "资料不存在")
  let project ← okOr (s.projects.find? (·.id == resource.projectId)) (.notFound "资料不存在")
  pure (resource, project)

def resourceAccessPasswordHash (resourceId : Int) : Except AppError String := do
  let resource ← okOr (s.findResource resourceId) (.notFound "资料不存在")
  pure resource.accessPasswordHash

end Store

structure CreateProjectResourceInput where
  projectId : Int
  title : String
  category : String
  body : String
  bodyFormat : String
  accessPassword : String
  tags : List String
  relatedWorkItemKey : String
  relatedCycleId : Option Int
  actorDisplayNameSnapshot : String
  deriving DecidableEq, Repr

structure UpdateProjectResourceInput where
  title : String
  category : String
  body : String
  bodyFormat : String
  accessPasswordAction : String
  accessPassword : String
  tags : List String
  relatedWorkItemKey : String
  relatedCycleId : Option Int
  actorDisplayNameSnapshot : String
  deriving DecidableEq, Repr

structure ResetProjectResourceAccessPasswordInput where
  accessPasswordAction : String
  accessPassword : String
  actorDisplayNameSnapshot : String
  deriving DecidableEq, Repr

section Calls

variable (R : Runtime) (salt : Bytes) (now : String) (s : Store) (actorUserId : Int)

def ensureResourceAcceptsWrites (resource : ResourceRow) : Except AppError Unit :=
  rejectIf (resource.status = .archived) (.badRequest "已归档资料不能继续修改")

/-- The hash that `create_resource` writes. -/
def createdPasswordHash (accessPassword : String) : Except AppError String :=
  if trim accessPassword = "" then .ok ""
  else do
    validateAccessPassword accessPassword
    R.hashPassword salt accessPassword

/-- The hash under the action `set`. -/
def setPasswordHash (accessPassword : String) : Except AppError String :=
  let password := trim accessPassword
  if password = "" then .error (.badRequest "设置访问密码时必须填写 4-128 位密码")
  else do
    validateAccessPassword password
    R.hashPassword salt password

/-- The hash that `update_resource` and `reset_resource_access_password` write. -/
def changedPasswordHash (existingHash accessPassword : String) :
    AccessPasswordAction → Except AppError String
  | .keep => .ok existingHash
  | .clear => .ok ""
  | .set => setPasswordHash R salt accessPassword

/-- The body of a new resource, written behind the row itself. -/
def writeCreatedBody (projectKey : String) (resourceId : Int) (input : CreateProjectResourceInput) :
    Except AppError Store :=
  if trim input.body = "" then .ok s
  else do
    let prepared ← s.prepareResourceBody R projectKey resourceId input.body input.bodyFormat true
    pure (s.updateResourceRow resourceId (fun r =>
      { r with
        body := prepared.body
        bodyFormat := prepared.bodyFormat
        updatedByUserId := actorUserId
        updatedByDisplayNameSnapshot := trim input.actorDisplayNameSnapshot
        updatedAt := now }))

/-- The id of the new resource beside the tables. -/
def createResource (input : CreateProjectResourceInput) : Except AppError (Store × Int) := do
  rejectIf (input.projectId ≤ 0) (.badRequest "项目 ID 无效")
  let project ← okOr (s.projects.find? (·.id == input.projectId)) (.notFound "项目不存在")
  let title ← validateName input.title "资料标题" 120
  let category ← validateCategory input.category
  let accessPasswordHash ← createdPasswordHash R salt input.accessPassword
  let tags ← normalizeResourceTags R input.tags
  let relatedWorkItemKey ← validateOptionalText input.relatedWorkItemKey "关联工作项" 40
  let relatedCycleId ← normalizeRelatedCycleId input.relatedCycleId
  let snapshot := trim input.actorDisplayNameSnapshot
  let resourceId := s.nextResource
  let s := s.insertResource
    { id := resourceId, projectId := input.projectId, title, category, body := ""
      bodyFormat := .html, status := .active, accessPasswordHash, createdByUserId := actorUserId
      createdByDisplayNameSnapshot := snapshot, updatedByUserId := actorUserId
      updatedByDisplayNameSnapshot := snapshot, updatedAt := now }
  let s ← writeCreatedBody R now s actorUserId project.projectKey resourceId input
  let s ← s.syncResourceTags input.projectId actorUserId resourceId tags
  let s ← s.syncResourceRelations input.projectId resourceId relatedWorkItemKey relatedCycleId
  pure (s.recordProjectActivity input.projectId actorUserId snapshot "project_resource.create"
    resourceId ("创建资料 " ++ title), resourceId)

def updateResource (resourceId : Int) (input : UpdateProjectResourceInput) :
    Except AppError Store := do
  let (existing, project) ← s.getResource resourceId
  ensureResourceAcceptsWrites existing
  let title ← validateName input.title "资料标题" 120
  let category ← validateCategory input.category
  let action ← normalizeAccessPasswordAction input.accessPasswordAction
  let existingPasswordHash ← s.resourceAccessPasswordHash resourceId
  let accessPasswordHash ← changedPasswordHash R salt existingPasswordHash input.accessPassword
    action
  let tags ← normalizeResourceTags R input.tags
  let relatedWorkItemKey ← validateOptionalText input.relatedWorkItemKey "关联工作项" 40
  let relatedCycleId ← normalizeRelatedCycleId input.relatedCycleId
  let prepared ← s.prepareResourceBody R project.projectKey existing.id input.body input.bodyFormat
    false
  let snapshot := trim input.actorDisplayNameSnapshot
  let s := s.updateResourceRow resourceId (fun r =>
    { r with
      title, category
      body := prepared.body
      bodyFormat := prepared.bodyFormat
      accessPasswordHash
      updatedByUserId := actorUserId
      updatedByDisplayNameSnapshot := snapshot
      updatedAt := now })
  let s ← s.syncResourceTags existing.projectId actorUserId resourceId tags
  let s ← s.syncResourceRelations existing.projectId resourceId relatedWorkItemKey relatedCycleId
  pure (s.recordProjectActivity existing.projectId actorUserId snapshot "project_resource.update"
    resourceId ("更新资料 " ++ title))

/-- Behind `normalize_access_password_reset_action` the action is `set` or `clear`. -/
def resetSummary (title : String) : AccessPasswordAction → String
  | .set => "重置资料 " ++ title ++ " 的保险箱密码"
  | _ => "清除资料 " ++ title ++ " 的保险箱密码"

def resetResourceAccessPassword (resourceId : Int)
    (input : ResetProjectResourceAccessPasswordInput) : Except AppError Store := do
  let (existing, _) ← s.getResource resourceId
  ensureResourceAcceptsWrites existing
  let action ← normalizeAccessPasswordResetAction input.accessPasswordAction
  let accessPasswordHash ← changedPasswordHash R salt existing.accessPasswordHash
    input.accessPassword action
  let snapshot := trim input.actorDisplayNameSnapshot
  let s := s.updateResourceRow resourceId (fun r =>
    { r with
      accessPasswordHash
      updatedByUserId := actorUserId
      updatedByDisplayNameSnapshot := snapshot
      updatedAt := now })
  pure (s.recordProjectActivity existing.projectId actorUserId snapshot
    "project_resource.password.reset" resourceId (resetSummary existing.title action))

def verifyResourcePassword (resourceId : Int) (password : String) : Except AppError Bool := do
  let passwordHash ← s.resourceAccessPasswordHash resourceId
  if trim passwordHash = "" then .ok true
  else if trim password = "" then .ok false
  else R.verifyPassword password passwordHash

end Calls

end Resources
end Yuance
