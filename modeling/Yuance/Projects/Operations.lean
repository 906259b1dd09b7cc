import Yuance.Projects.Statements

/-!
# Yuance.Projects.Operations

The calls of `api/src/domains/projects.rs` on projects, members and work items, statement by
statement: what a call checks, it checks on rows that it read before its transaction. The display
name that a call passes on to its log entries is left out.

* `Request`, `start`: the calls that run beside each other.
-/

namespace Yuance
namespace Projects

open Lib Platform

abbrev Task (α : Type) := Call Statement Statement.Answer AppError α

def query (s : Statement) : Task s.Answer := Call.make s

/-! ## Lookups -/

def getProjectDetail (projectKey : String) (missing : AppError) : Task Project := do
  let project ← query (.projectKeyed projectKey)
  Call.okOr project missing

def itemMissing : AppError := .notFound "工作项不存在"

/-- An undeleted work item. -/
def getItem (itemKey : String) : Task ItemRow := do
  let row ← query (.item itemKey)
  Call.okOr row itemMissing

def getWorkItemDetail (itemKey : String) (missing : AppError) : Task WorkItem := do
  let row ← query (.anyItem itemKey)
  let row ← Call.okOr row missing
  pure row.item

def resolveProjectMember (projectId : Int) (username : String) : Task User := do
  let username ← Call.ofExcept (validateUsernameRef username)
  let user ← query (.activeMember projectId username)
  Call.okOr user (.badRequest "处理人必须是已启用的项目成员")

def resolveProjectCycle (projectId : Int) : Option Int → Task (Option Cycle)
  | none => pure none
  | some cycleId => do
    Call.rejectIf (cycleId ≤ 0) (.badRequest "周期 ID 无效")
    let cycle ← query (.cycle cycleId projectId)
    let cycle ← Call.okOr cycle (.badRequest "周期不存在或不属于当前项目")
    pure (some cycle)

def resolveParentWorkItemId (projectId : Int) (itemType : WorkItemType) (parentItemKey : String) :
    Task (Option Int) :=
  if trim parentItemKey = "" then pure none
  else do
    Call.rejectIf (itemType ≠ .task) (.badRequest "只有任务可以关联父级需求")
    let itemKey ← Call.ofExcept (validateWorkItemKeyRef (trim parentItemKey))
    let parent ← query (.requirement projectId itemKey)
    let parent ← Call.okOr parent (.badRequest "父级需求必须是同项目内未删除需求")
    pure (some parent.id)

def getProjectMember (projectId : Int) (username : String) (missing : AppError) :
    Task (User × Member) := do
  let found ← query (.memberNamed projectId username)
  Call.okOr found missing

/-- `NULLIF(date, '')`. -/
def nullIfEmpty (date : String) : Option String := if date = "" then none else some date

/-! ## Projects -/

structure CreateProjectInput where
  name : String
  description : String
  status : String
  startDate : String
  dueDate : String

/-- The checked fields of a new project, which still lacks a key. -/
def checkCreateProject (actorUserId : Int) (input : CreateProjectInput) :
    Except AppError (String → ProjectInsert) := do
  let name ← validateName input.name "项目名称" 120
  let description ← validateOptionalText input.description "项目描述" 2000
  let status ← validateProjectStatus input.status
  let startDate ← validateOptionalDate input.startDate "项目开始日期"
  let dueDate ← validateOptionalDate input.dueDate "项目截止日期"
  validateDateRange startDate dueDate "项目截止日期不能早于开始日期"
  pure fun projectKey =>
    { projectKey, name, description, status, actorUserId, startDate := nullIfEmpty startDate,
      dueDate := nullIfEmpty dueDate }

def projectKeyGenerateMaxAttempts : Nat := 5

/-- The loop of `create_project` from the attempt `n` on; `keys` are the drawn keys. -/
def createAttempts (insert : String → ProjectInsert) (keys : Nat → String) (n : Nat) :
    Nat → Task Project
  | 0 => Call.fail (.conflict "项目编号生成冲突，请重新创建项目")
  | left + 1 => do
    let projectId ← query (.insertProject (insert (keys n)))
    match projectId with
    | none => createAttempts insert keys (n + 1) left
    | some _ => getProjectDetail (keys n) (.notFound "项目创建后未找到")

def createProject (actorUserId : Int) (input : CreateProjectInput) (keys : Nat → String) :
    Task Project := do
  let insert ← Call.ofExcept (checkCreateProject actorUserId input)
  createAttempts insert keys 0 projectKeyGenerateMaxAttempts

structure UpdateProjectInput where
  name : String
  description : String
  status : String
  ownerUsername : String
  startDate : String
  dueDate : String

/-- The checked fields of an update, without what is read from the tables. -/
def checkUpdateProject (actorUserId : Int) (projectKey : String) (input : UpdateProjectInput) :
    Except AppError ProjectUpdate := do
  let projectKey ← validateProjectKey projectKey
  let name ← validateName input.name "项目名称" 120
  let description ← validateOptionalText input.description "项目描述" 2000
  let status ← validateProjectStatus input.status
  let ownerUsername ← validateUsernameRef input.ownerUsername
  let startDate ← validateOptionalDate input.startDate "项目开始日期"
  let dueDate ← validateOptionalDate input.dueDate "项目截止日期"
  validateDateRange startDate dueDate "项目截止日期不能早于开始日期"
  pure { projectId := 0, projectKey, name, description, status, ownerUserId := 0, ownerUsername,
         previousOwnerUserId := none, startDate := nullIfEmpty startDate,
         dueDate := nullIfEmpty dueDate, actorUserId }

def updateProject (actorUserId : Int) (projectKey : String) (input : UpdateProjectInput) :
    Task Project := do
  let checked ← Call.ofExcept (checkUpdateProject actorUserId projectKey input)
  let project ← getProjectDetail checked.projectKey (.notFound "项目不存在")
  Call.ofExcept (validateProjectStatusTransition project.status checked.status)
  let owner ← query (.activeMember project.id checked.ownerUsername)
  let owner ← Call.okOr owner (.badRequest "项目负责人必须是已启用的项目成员")
  query (.updateProject
    { checked with
      projectId := project.id
      ownerUserId := owner.id
      previousOwnerUserId := project.ownerUserId })
  getProjectDetail checked.projectKey (.notFound "项目更新后未找到")

/-! ## Members -/

/-- The loop over the names in `add_project_members`. -/
def selectUsers (available : List User) (seen : List String) :
    List String → Except AppError (List User)
  | [] => .ok []
  | raw :: rest =>
    if trim raw = "" then selectUsers available seen rest
    else do
      let username ← validateUsernameRef (trim raw)
      if seen.contains username then selectUsers available seen rest
      else do
        let user ← okOr (available.find? fun u => u.username == username && u.active)
          (.badRequest "用户不存在或未启用")
        let others ← selectUsers available (username :: seen) rest
        pure (user :: others)

/-- The members that were added, read back one by one. -/
def readMembers (projectId : Int) : List User → Task (List (User × Member))
  | [] => pure []
  | user :: rest => do
    let found ← getProjectMember projectId user.username (.notFound "项目成员添加后未找到")
    let others ← readMembers projectId rest
    pure (found :: others)

def addProjectMembers (actorUserId : Int) (projectKey : String) (usernames : List String)
    (memberRole : String) : Task (List (User × Member)) := do
  let projectKey ← Call.ofExcept (validateProjectKey projectKey)
  let role ← Call.ofExcept (validateMemberRole memberRole)
  let project ← getProjectDetail projectKey (.notFound "项目不存在")
  Call.ofExcept (ensureProjectAcceptsWrites project.status)
  let available ← query .listUsers
  let selected ← Call.ofExcept (selectUsers available [] usernames)
  Call.rejectIf (selected = []) (.badRequest "请至少选择一个要加入的项目成员")
  query (.addMembers project.id actorUserId selected role)
  readMembers project.id selected

def removeProjectMember (actorUserId : Int) (projectKey username : String) : Task Unit := do
  let projectKey ← Call.ofExcept (validateProjectKey projectKey)
  let username ← Call.ofExcept (validateUsernameRef username)
  let project ← getProjectDetail projectKey (.notFound "项目不存在")
  Call.ofExcept (ensureProjectAcceptsWrites project.status)
  let user ← query (.userNamed username)
  let user ← Call.okOr user (.badRequest "用户不存在")
  Call.rejectIf (project.ownerUserId = some user.id) (.badRequest "项目负责人不能从项目成员中移除")
  let assigned ← query (.countActiveAssigned project.id user.id)
  Call.rejectIf (assigned > 0) (.badRequest ("该成员仍负责 " ++ toString assigned ++
    " 个待处理 / 进行中 / 待确认工作项，请先转交处理人"))
  query (.removeMember project.id user.id actorUserId username)

/-- `update_project_member_role` where the member was found. -/
def changeRole (actorUserId : Int) (project : Project) (username : String) (role : MemberRole)
    (user : User) (current : Member) : Task (User × Member) := do
  Call.rejectIf (project.ownerUserId = some user.id) (.badRequest "项目负责人角色请通过编辑项目转移")
  if current.role = role then
    getProjectMember project.id username (.notFound "项目成员不存在")
  else do
    query (.setMemberRole project.id user.id actorUserId username current.role role)
    getProjectMember project.id username (.notFound "项目成员不存在")

def updateProjectMemberRole (actorUserId : Int) (projectKey username memberRole : String) :
    Task (User × Member) := do
  let projectKey ← Call.ofExcept (validateProjectKey projectKey)
  let username ← Call.ofExcept (validateUsernameRef username)
  let role ← Call.ofExcept (validateMemberRole memberRole)
  Call.rejectIf (role = .owner) (.badRequest "项目负责人请通过编辑项目转移")
  let project ← getProjectDetail projectKey (.notFound "项目不存在")
  Call.ofExcept (ensureProjectAcceptsWrites project.status)
  let (user, current) ← getProjectMember project.id username (.notFound "项目成员不存在")
  changeRole actorUserId project username role user current

/-! ## Work items -/

structure CreateWorkItemInput where
  projectKey : String
  itemType : String
  title : String
  description : String
  priority : String
  assigneeUsername : String
  dueDate : String
  parentItemKey : String

/-- The checked fields of a new work item, without what is read from the tables. -/
def checkCreateWorkItem (actorUserId : Int) (input : CreateWorkItemInput) :
    Except AppError (String × ItemInsert) := do
  let projectKey ← validateProjectKey input.projectKey
  let itemType ← validateWorkItemType input.itemType
  let title ← validateName input.title "工作项标题" 160
  let description ← validateOptionalText input.description "工作项描述" 5000
  let priority ← validatePriority input.priority
  let dueDate ← validateOptionalDate input.dueDate "工作项截止日期"
  pure (projectKey,
    { projectId := 0, head := projectKey ++ "-" ++ workItemKeySegment itemType ++ "-", itemType,
      title, description, priority, assigneeUserId := actorUserId, actorUserId,
      parentWorkItemId := none, cycleId := none, dueDate := nullIfEmpty dueDate })

/-- The assignee of a new work item: the actor where no name is given. -/
def newAssignee (projectId actorUserId : Int) (assigneeUsername : String) : Task Int :=
  if assigneeUsername = "" then pure actorUserId
  else do
    let user ← resolveProjectMember projectId assigneeUsername
    pure user.id

def createWorkItemWithCycle (actorUserId : Int) (input : CreateWorkItemInput)
    (cycleId : Option Int) : Task WorkItem := do
  let (projectKey, insert) ← Call.ofExcept (checkCreateWorkItem actorUserId input)
  let project ← getProjectDetail projectKey (.badRequest "项目不存在")
  Call.ofExcept (ensureProjectAcceptsWrites project.status)
  let parentWorkItemId ← resolveParentWorkItemId project.id insert.itemType input.parentItemKey
  let cycle ← resolveProjectCycle project.id cycleId
  let assigneeUserId ← newAssignee project.id actorUserId (trim input.assigneeUsername)
  let itemKey ← query (.insertItem
    { insert with
      projectId := project.id
      assigneeUserId := assigneeUserId
      parentWorkItemId := parentWorkItemId
      cycleId := cycle.map (·.id) })
  getWorkItemDetail itemKey (.notFound "工作项创建后未找到")

def createWorkItem (actorUserId : Int) (input : CreateWorkItemInput) : Task WorkItem :=
  createWorkItemWithCycle actorUserId input none

/-- The log entry of a work item. -/
def itemActivity (actorUserId : Int) (item : WorkItem) (kind : ActivityKind) : Activity :=
  { projectId := item.projectId, actorUserId, targetId := item.itemKey, kind }

def updateWorkItemStatus (actorUserId : Int) (itemKey status : String) : Task WorkItem := do
  let status ← Call.ofExcept (validateWorkItemStatus status)
  let row ← getItem itemKey
  Call.ofExcept (ensureProjectAcceptsWrites row.project.status)
  Call.ofExcept (ensureWorkItemStatusTransition row.item.status status)
  query (.writeItems actorUserId [
    { read := row.item
      change := .status status
      activities := [itemActivity actorUserId row.item (.statusUpdated status row.item.status)] }])
  getWorkItemDetail itemKey itemMissing

def closeWorkItem (actorUserId : Int) (itemKey : String) : Task WorkItem :=
  updateWorkItemStatus actorUserId itemKey "closed"

structure HandoffWorkItemInput where
  status : String
  assigneeUsername : String
  body : String
  sourceCommentId : Option Int

/-- `get_work_item_comment`, where a comment is named. -/
def ensureComment (workItemId : Int) : Option Int → Task Unit
  | none => pure ()
  | some commentId => do
    let comment ← query (.comment workItemId commentId)
    let _ ← Call.okOr comment (.notFound "评论不存在")
    pure ()

/-- The next assignee, with the name that the log shows. -/
def handoffAssignee (row : ItemRow) (assigneeUsername : String) :
    Task (HandoffAssignee × String) :=
  if assigneeUsername = "" then
    pure (.kept row.item.assigneeUserId, (row.assignee.map (·.username)).getD "")
  else do
    let user ← resolveProjectMember row.item.projectId assigneeUsername
    pure (.named user.id, user.username)

/-- `handoff_work_item` from the checks of the status on. -/
def applyHandoff (actorUserId : Int) (itemKey : String) (input : HandoffWorkItemInput)
    (status : WorkItemStatus) (body : String) (row : ItemRow) : Task WorkItem := do
  Call.ofExcept (ensureProjectAcceptsWrites row.project.status)
  Call.ofExcept (ensureWorkItemStatusTransition row.item.status status)
  ensureComment row.item.id input.sourceCommentId
  let (next, nextUsername) ← handoffAssignee row (trim input.assigneeUsername)
  Call.rejectIf (row.item.status = status ∧ row.item.assigneeUserId = next.userId ∧ body = "")
    (.badRequest "请至少修改状态、处理人或填写处理说明")
  query (.writeItems actorUserId [
    { read := row.item
      change := .handoff status next
      activities :=
        [itemActivity actorUserId row.item (.handoff status row.item.status nextUsername)] }])
  getWorkItemDetail itemKey itemMissing

def handoffWorkItem (actorUserId : Int) (itemKey : String) (input : HandoffWorkItemInput) :
    Task WorkItem := do
  let status ← Call.ofExcept (validateWorkItemStatus input.status)
  let body ← Call.ofExcept (validateOptionalText input.body "处理说明" 5000)
  let row ← getItem itemKey
  applyHandoff actorUserId itemKey input status body row

structure UpdateWorkItemInput where
  title : String
  description : String
  status : String
  priority : String
  assigneeUsername : String
  dueDate : String
  parentItemKey : String
  cycleId : Option Int

/-- The checked fields of an edit, without what is read from the tables. -/
def checkUpdateWorkItem (input : UpdateWorkItemInput) : Except AppError (ItemEdit × String) := do
  let title ← validateName input.title "工作项标题" 160
  let description ← validateOptionalText input.description "工作项描述" 5000
  let status ← validateWorkItemStatus input.status
  let priority ← validatePriority input.priority
  let dueDate ← validateOptionalDate input.dueDate "工作项截止日期"
  pure ({ title, description, status, priority, assigneeUserId := none,
          dueDate := nullIfEmpty dueDate, parentWorkItemId := none, cycleId := none }, dueDate)

/-- The assignee of an edit: none where no name is given. -/
def editAssignee (projectId : Int) (assigneeUsername : String) : Task (Option Int) :=
  if assigneeUsername = "" then pure none
  else do
    let user ← resolveProjectMember projectId assigneeUsername
    pure (some user.id)

/-- The log entries of an edit. -/
def editActivities (actorUserId : Int) (item : WorkItem) (edit : ItemEdit)
    (assigneeUsername dueDate parentItemKey : String) : List Activity :=
  (if item.cycleId ≠ edit.cycleId then
    [itemActivity actorUserId item (.cycleChanged item.cycleId edit.cycleId)]
  else [])
  ++ [itemActivity actorUserId item (.itemUpdated edit.status item.status edit.priority
    assigneeUsername dueDate parentItemKey)]

/-- `update_work_item` from the checks of the row on. -/
def applyEdit (actorUserId : Int) (itemKey : String) (input : UpdateWorkItemInput)
    (checked : ItemEdit) (dueDate : String) (row : ItemRow) : Task WorkItem := do
  Call.rejectIf (row.item.reporterUserId ≠ some actorUserId)
    (.forbidden "只有发布人本人可以编辑该工作项。")
  Call.ofExcept (ensureProjectAcceptsWrites row.project.status)
  Call.ofExcept (ensureWorkItemStatusTransition row.item.status checked.status)
  let parentWorkItemId ← resolveParentWorkItemId row.item.projectId row.item.itemType
    (trim input.parentItemKey)
  let assigneeUserId ← editAssignee row.item.projectId (trim input.assigneeUsername)
  let cycle ← resolveProjectCycle row.item.projectId input.cycleId
  let edit := { checked with
    assigneeUserId := assigneeUserId
    parentWorkItemId := parentWorkItemId
    cycleId := cycle.map (·.id) }
  query (.writeItems actorUserId [
    { read := row.item
      change := .edit edit
      activities := editActivities actorUserId row.item edit (trim input.assigneeUsername) dueDate
        (trim input.parentItemKey) }])
  getWorkItemDetail itemKey itemMissing

def updateWorkItem (actorUserId : Int) (itemKey : String) (input : UpdateWorkItemInput) :
    Task WorkItem := do
  let (checked, dueDate) ← Call.ofExcept (checkUpdateWorkItem input)
  let row ← getItem itemKey
  applyEdit actorUserId itemKey input checked dueDate row

def archiveWorkItem (actorUserId : Int) (itemKey : String) : Task WorkItem := do
  let row ← query (.anyItem itemKey)
  let row ← Call.okOr row itemMissing
  Call.ofExcept (ensureProjectAcceptsWrites row.project.status)
  if row.item.deletedAt.isSome then getWorkItemDetail itemKey itemMissing
  else do
    query (.archiveItem row.item actorUserId)
    getWorkItemDetail itemKey itemMissing

def restoreWorkItem (actorUserId : Int) (itemKey : String) : Task WorkItem := do
  query (.restoreItem itemKey actorUserId)
  getWorkItemDetail itemKey itemMissing

/-! ## Several work items at once -/

structure BatchUpdateWorkItemsInput where
  projectKey : String
  itemType : String
  itemKeys : List String
  action : String
  status : String
  assigneeUsername : String
  priority : String
  cycleId : Option Int

structure BatchUpdateWorkItemsResult where
  projectId : Int
  projectKey : String
  itemType : WorkItemType
  action : BatchAction
  updatedCount : Nat
  itemKeys : List String
  deriving DecidableEq, Repr

inductive BatchActionTarget where
  | assignee (user : User)
  | status (status : WorkItemStatus)
  | priority (priority : Priority)
  | cycle (cycle : Option Cycle)
  deriving DecidableEq, Repr

/-- The keys that no row was found for. -/
def missingKeys (itemKeys : List String) (rows : List ItemRow) : List String :=
  itemKeys.filter fun itemKey =>
    !(rows.any fun row => toAsciiLowercase row.item.itemKey == toAsciiLowercase itemKey)

def checkBatchRow (project : Project) (itemType : WorkItemType) (row : ItemRow) :
    Except AppError Unit := do
  rejectIf (row.item.projectId ≠ project.id ∨ row.project.projectKey ≠ project.projectKey)
    (.badRequest ("工作项 " ++ row.item.itemKey ++ " 不属于当前项目 " ++ project.projectKey))
  rejectIf (row.item.itemType ≠ itemType)
    (.badRequest ("工作项 " ++ row.item.itemKey ++ " 不属于当前列表类型"))
  ensureProjectAcceptsWrites row.project.status

def batchAssigneeTarget (project : Project) (rows : List ItemRow) (assigneeUsername : String) :
    Task BatchActionTarget := do
  let member ← resolveProjectMember project.id assigneeUsername
  let user ← query (.userById member.id)
  let user ← Call.okOr user .storage
  Call.ofExcept (forEach (fun row : ItemRow =>
    rejectIf (row.item.assigneeUserId = some member.id)
      (.badRequest ("工作项 " ++ row.item.itemKey ++ " 已指派给 " ++ user.displayName))) rows)
  pure (.assignee user)

/-- The check of a batch that sets the status. -/
def checkBatchStatus (itemType : WorkItemType) (status : WorkItemStatus) (rows : List ItemRow) :
    Except AppError Unit := do
  ensureWorkItemStatusSupportedForType itemType status
  forEach (fun row : ItemRow => do
    rejectIf (row.item.status = status)
      (.badRequest ("工作项 " ++ row.item.itemKey ++ " 已经是 " ++ workItemStatusLabel status))
    ensureWorkItemStatusTransition row.item.status status) rows

def batchTarget (project : Project) (itemType : WorkItemType) (rows : List ItemRow)
    (input : BatchUpdateWorkItemsInput) : BatchAction → Task BatchActionTarget
  | .assignee => batchAssigneeTarget project rows input.assigneeUsername
  | .status => do
    let status ← Call.ofExcept (validateWorkItemStatus input.status)
    Call.ofExcept (checkBatchStatus itemType status rows)
    pure (.status status)
  | .priority => do
    let priority ← Call.ofExcept (validatePriority input.priority)
    Call.ofExcept (forEach (fun row : ItemRow => rejectIf (row.item.priority = priority)
      (.badRequest ("工作项 " ++ row.item.itemKey ++ " 已经是优先级 "
        ++ workItemPriorityLabel priority))) rows)
    pure (.priority priority)
  | .cycle => do
    let cycle ← resolveProjectCycle project.id input.cycleId
    Call.ofExcept (forEach (fun row : ItemRow => rejectIf (row.item.cycleId = cycle.map (·.id))
      (.badRequest ("工作项 " ++ row.item.itemKey ++ " 的周期未发生变化"))) rows)
    pure (.cycle cycle)

/-- What a batch writes to one of its work items. -/
def batchWrite (actorUserId : Int) (target : BatchActionTarget) (row : ItemRow) : ItemWrite :=
  let activity := fun kind => [itemActivity actorUserId row.item kind]
  match target with
  | .assignee user =>
    { read := row.item
      change := .batchAssignee user.id
      activities := activity (.assigned row.item.status row.item.status user.username
        ((row.assignee.map (·.username)).getD "")) }
  | .status status =>
    { read := row.item
      change := .batchStatus status
      activities := activity (.statusUpdated status row.item.status) }
  | .priority priority =>
    { read := row.item
      change := .batchPriority priority
      activities := activity (.priorityUpdated priority row.item.priority) }
  | .cycle cycle =>
    { read := row.item
      change := .batchCycle (cycle.map (·.id))
      activities := activity (.cycleChanged row.item.cycleId (cycle.map (·.id))) }

/-- `batch_update_work_items` from the read of the items on. -/
def applyBatch (actorUserId : Int) (input : BatchUpdateWorkItemsInput) (itemType : WorkItemType)
    (action : BatchAction) (itemKeys : List String) (project : Project) :
    Task BatchUpdateWorkItemsResult := do
  let rows ← query (.itemsIn itemKeys)
  Call.rejectIf (rows.length ≠ itemKeys.length)
    (.badRequest ("以下工作项不存在或不可批量处理：" ++ "、".intercalate (missingKeys itemKeys rows)))
  Call.ofExcept (forEach (checkBatchRow project itemType) rows)
  let target ← batchTarget project itemType rows input action
  query (.writeItems actorUserId (rows.map (batchWrite actorUserId target)))
  pure
    { projectId := project.id
      projectKey := project.projectKey
      itemType
      action
      updatedCount := itemKeys.length
      itemKeys }

def batchUpdateWorkItems (actorUserId : Int) (input : BatchUpdateWorkItemsInput) :
    Task BatchUpdateWorkItemsResult := do
  let projectKey ← Call.ofExcept (validateProjectKey input.projectKey)
  let itemType ← Call.ofExcept (validateWorkItemType input.itemType)
  let action ← Call.ofExcept (validateWorkItemBatchAction input.action)
  let itemKeys ← Call.ofExcept (normalizeBatchWorkItemKeys input.itemKeys)
  let project ← getProjectDetail projectKey (.notFound "项目不存在")
  Call.ofExcept (ensureProjectAcceptsWrites project.status)
  applyBatch actorUserId input itemType action itemKeys project

/-! ## Requests -/

inductive Request where
  | createProject (actorUserId : Int) (input : CreateProjectInput) (keys : Nat → String)
  | updateProject (actorUserId : Int) (projectKey : String) (input : UpdateProjectInput)
  | addProjectMembers (actorUserId : Int) (projectKey : String) (usernames : List String)
      (memberRole : String)
  | removeProjectMember (actorUserId : Int) (projectKey username : String)
  | updateProjectMemberRole (actorUserId : Int) (projectKey username memberRole : String)
  | createWorkItem (actorUserId : Int) (input : CreateWorkItemInput)
  | updateWorkItemStatus (actorUserId : Int) (itemKey status : String)
  | closeWorkItem (actorUserId : Int) (itemKey : String)
  | handoffWorkItem (actorUserId : Int) (itemKey : String) (input : HandoffWorkItemInput)
  | updateWorkItem (actorUserId : Int) (itemKey : String) (input : UpdateWorkItemInput)
  | batchUpdateWorkItems (actorUserId : Int) (input : BatchUpdateWorkItemsInput)
  | archiveWorkItem (actorUserId : Int) (itemKey : String)
  | restoreWorkItem (actorUserId : Int) (itemKey : String)

inductive Response where
  | project (project : Project)
  | members (members : List (User × Member))
  | removed
  | item (item : WorkItem)
  | batch (result : BatchUpdateWorkItemsResult)

def start : Request → Task Response
  | .createProject actorUserId input keys => do
    let project ← createProject actorUserId input keys
    pure (.project project)
  | .updateProject actorUserId projectKey input => do
    let project ← updateProject actorUserId projectKey input
    pure (.project project)
  | .addProjectMembers actorUserId projectKey usernames memberRole => do
    let members ← addProjectMembers actorUserId projectKey usernames memberRole
    pure (.members members)
  | .removeProjectMember actorUserId projectKey username => do
    removeProjectMember actorUserId projectKey username
    pure .removed
  | .updateProjectMemberRole actorUserId projectKey username memberRole => do
    let found ← updateProjectMemberRole actorUserId projectKey username memberRole
    pure (.members [found])
  | .createWorkItem actorUserId input => do
    let item ← createWorkItem actorUserId input
    pure (.item item)
  | .updateWorkItemStatus actorUserId itemKey status => do
    let item ← updateWorkItemStatus actorUserId itemKey status
    pure (.item item)
  | .closeWorkItem actorUserId itemKey => do
    let item ← closeWorkItem actorUserId itemKey
    pure (.item item)
  | .handoffWorkItem actorUserId itemKey input => do
    let item ← handoffWorkItem actorUserId itemKey input
    pure (.item item)
  | .updateWorkItem actorUserId itemKey input => do
    let item ← updateWorkItem actorUserId itemKey input
    pure (.item item)
  | .batchUpdateWorkItems actorUserId input => do
    let result ← batchUpdateWorkItems actorUserId input
    pure (.batch result)
  | .archiveWorkItem actorUserId itemKey => do
    let item ← archiveWorkItem actorUserId itemKey
    pure (.item item)
  | .restoreWorkItem actorUserId itemKey => do
    let item ← restoreWorkItem actorUserId itemKey
    pure (.item item)

/-- The database and the calls of a run. -/
abbrev Server := Serving Statement Statement.Answer AppError Response Db

end Projects
end Yuance
