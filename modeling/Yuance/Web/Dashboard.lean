import Yuance.Lib.Groups
import Yuance.Projects.ItemLists
import Yuance.Web.UserProjects

/-!
# Yuance.Web.Dashboard

`get_dashboard` of `api/src/web/api/mod.rs` with its queries of `api/src/domains/projects.rs` and
`api/src/domains/notifications.rs`. The counts by type and by project keep to unfinished items. The
list of the assigned items is not restricted to the projects that the user may access; the metric
`assigned_total` is the length of that list after its cut to six.

* `getDashboard`: the response.
* `openItems`: the unfinished items of a user, which the figures are about.
-/

namespace Yuance
namespace Web
namespace Dashboard

open Lib Platform
open Tokens (Secrets)
open Projects (Project ProjectStatus ProjectSummary ProjectListFilter Priority WorkItem WorkItemType
  WorkItemStatus ItemRow Pagination limitOffset saturatingMul toAsciiUppercase
  listProjectSummariesForUserPaginated)
open Projects.ItemLists (TimedDb WorkItemSummary before)

/-! ## Tables -/

inductive NotificationKind where
  | workItemAssigned
  | commentReplied
  | commentMentioned
  deriving DecidableEq, Repr

/-- A row of `notifications`. -/
structure NotificationRow where
  id : Int
  recipientUserId : Int
  actorUserId : Int
  actorDisplayNameSnapshot : String
  kind : NotificationKind
  workItemId : Int
  commentId : Option Int
  title : String
  body : String
  readAt : Option Int
  createdAt : Int

/-- A row of `project_activities`, with the text that is shown. -/
structure ActivityLogRow where
  id : Int
  projectId : Int
  actorUserId : Option Int
  actorDisplayNameSnapshot : String
  summary : String
  createdAt : Int

structure Tables extends TimedDb where
  accounts : Accounts
  notifications : List NotificationRow
  activityLog : List ActivityLogRow

/-! ## Payloads -/

structure WorkItemAssignmentCounts where
  requirements : Nat := 0
  tasks : Nat := 0
  bugs : Nat := 0
  deriving DecidableEq, Repr

structure ProjectPendingCounts where
  projectId : Int := 0
  requirements : Nat := 0
  tasks : Nat := 0
  bugs : Nat := 0
  deriving DecidableEq, Repr

structure NotificationSummary where
  id : Int
  kind : NotificationKind
  workItemKey : String
  commentId : Option Int
  title : String
  body : String
  actorDisplayName : String
  readAt : Option Int
  createdAt : Int

structure NotificationTargetPayload where
  kind : String
  projectKey : String
  workItemKey : String
  commentId : Option Int

structure NotificationPayload where
  id : Int
  kind : NotificationKind
  title : String
  body : String
  actor : String
  createdAt : Int
  read : Bool
  openUrl : String
  target : NotificationTargetPayload

structure ProjectActivitySummary where
  id : Int
  projectKey : String
  summary : String
  actorDisplayName : String
  createdAt : Int

structure DashboardMetricsPayload where
  activeProjects : Nat
  requirements : Nat
  tasks : Nat
  bugs : Nat
  assignedTotal : Nat
  highPriority : Nat

structure DashboardProjectPayload where
  key : String
  name : String
  owner : String
  ownerUsername : String
  status : ProjectStatus
  workItemCount : Nat
  activeWorkItemCount : Nat
  pendingRequirements : Nat
  pendingTasks : Nat
  pendingBugs : Nat
  updatedAt : Int

structure DashboardActivityPayload where
  id : Int
  projectKey : String
  summary : String
  actor : String
  createdAt : Int

structure WorkItemPayload where
  key : String
  itemType : WorkItemType
  title : String
  status : WorkItemStatus
  priority : Priority
  projectKey : String
  projectName : String
  assignee : String
  dueDate : String
  updatedAt : Int

structure DashboardPayload where
  metrics : DashboardMetricsPayload
  projects : List DashboardProjectPayload
  pendingDiscussions : List NotificationPayload
  pendingDiscussionCount : Nat
  activities : List DashboardActivityPayload
  assignedItems : List WorkItemPayload
  canManageProjects : Bool

def fallbackText (value fallback : String) : String := if trim value = "" then fallback else value

def workItemPayload (item : WorkItemSummary) : WorkItemPayload where
  key := item.itemKey
  itemType := item.itemType
  title := item.title
  status := item.status
  priority := item.priority
  projectKey := item.projectKey
  projectName := item.projectName
  assignee := item.assigneeDisplayName
  dueDate := item.dueDate
  updatedAt := item.updatedAt

def notificationTargetPayload (notification : NotificationSummary) : NotificationTargetPayload where
  kind := "work_item"
  projectKey := String.ofList ((splitAll '-' notification.workItemKey.toList).headD [])
  workItemKey := notification.workItemKey
  commentId := notification.commentId

def notificationPayload (notification : NotificationSummary) : NotificationPayload where
  id := notification.id
  kind := notification.kind
  title := fallbackText notification.title "消息通知"
  body := fallbackText notification.body "查看详情"
  actor := fallbackText notification.actorDisplayName "系统"
  createdAt := notification.createdAt
  read := notification.readAt.isSome
  openUrl := "/web/messages/" ++ toString notification.id ++ "/open"
  target := notificationTargetPayload notification

/-! ## Queries -/

inductive NotificationFilter where
  | all
  | unread
  | pendingDiscussion
  | read
  deriving DecidableEq, Repr

def NotificationFilter.keeps (filter : NotificationFilter) (n : NotificationRow) : Bool :=
  match filter with
  | .all => true
  | .unread => n.readAt.isNone
  | .pendingDiscussion =>
    n.readAt.isNone && [NotificationKind.commentReplied, .commentMentioned].contains n.kind
  | .read => n.readAt.isSome

/-- `match item_type.as_str()` in the loop over the counts. -/
def WorkItemAssignmentCounts.assign (counts : WorkItemAssignmentCounts) :
    WorkItemType × Nat → WorkItemAssignmentCounts
  | (.requirement, count) => { counts with requirements := count }
  | (.task, count) => { counts with tasks := count }
  | (.bug, count) => { counts with bugs := count }

namespace Tables

variable (db : Tables)

/-- `COALESCE(NULLIF(actor_display_name_snapshot, ''), u.display_name, '')`. -/
def actorDisplayName (snapshot : String) (actorUserId : Option Int) : String :=
  if snapshot = "" then ((actorUserId.bind db.user).map (·.displayName)).getD "" else snapshot

/-- `LEFT JOIN work_item_comments c`: the comment, if it is still there. -/
def shownComment (n : NotificationRow) : Option Int :=
  n.commentId.filter fun commentId => db.comments.any fun c =>
    c.id == commentId && c.workItemId == n.workItemId && !c.deleted

/-- Notifications whose work item is gone fall out of the join. -/
def notificationSummary (n : NotificationRow) : Option NotificationSummary :=
  (db.workItem n.workItemId).map fun wi =>
    { id := n.id
      kind := n.kind
      workItemKey := wi.itemKey
      commentId := db.shownComment n
      title := n.title
      body := n.body
      actorDisplayName := db.actorDisplayName n.actorDisplayNameSnapshot (some n.actorUserId)
      readAt := n.readAt
      createdAt := n.createdAt }

def countForUserFiltered (userId : Int) (filter : NotificationFilter) : Nat :=
  (db.notifications.filter fun n => n.recipientUserId == userId && filter.keeps n).length

def listForUserWindow (userId : Int) (filter : NotificationFilter) (limit offset : Int64) :
    List NotificationSummary :=
  limitOffset limit (max offset 0) ((orderBy (descending NotificationRow.createdAt (·.id))
    (db.notifications.filter fun n => n.recipientUserId == userId && filter.keeps n)).filterMap
      db.notificationSummary)

def listForUserPageFiltered (userId : Int) (filter : NotificationFilter) (page perPage : Int64) :
    List NotificationSummary :=
  let page := max page 1
  let perPage := max 1 (min perPage 100)
  db.listForUserWindow userId filter perPage (saturatingMul (page - 1) perPage)

/-- The two queries differ in the join with `project_members`. -/
def listRecentActivitiesForUser (userId : Int) (isSuperAdmin : Bool) (limit : Nat) :
    List ProjectActivitySummary :=
  ((orderBy (descending ActivityLogRow.createdAt (·.id)) (db.activityLog.filter fun a =>
    isSuperAdmin || db.isMember a.projectId userId)).filterMap fun a =>
      (db.project a.projectId).map fun p =>
        { id := a.id
          projectKey := p.projectKey
          summary := a.summary
          actorDisplayName := db.actorDisplayName a.actorDisplayNameSnapshot a.actorUserId
          createdAt := a.createdAt }).take limit

/-- The query does not ask whether the user is a member of the project. -/
def listAssignedWorkItemSummaries (userId : Int) (itemType : Option WorkItemType) :
    List WorkItemSummary :=
  (orderBy (before db.toTimedDb .updatedDesc) (db.rows.filter fun row =>
    row.item.assigneeUserId == some userId && itemType.all (row.item.itemType == ·)
      && row.item.deletedAt.isNone)).map db.summary

def countPendingAssignedWorkItems (userId : Int) (canAccessAllProjects : Bool)
    (projectKey : Option String) : WorkItemAssignmentCounts :=
  let projectKey := toAsciiUppercase (trim (projectKey.getD ""))
  let rows := (db.pendingAssigned userId canAccessAllProjects).filter fun row =>
    projectKey == "" || row.1 == projectKey
  ((grouped (fun row => row.2.itemType) rows).map fun g => (g.1, g.2.length)).foldl
    WorkItemAssignmentCounts.assign {}

/-- The unfinished, undeleted work items that are assigned to the user. -/
def openItems (userId : Int) : List WorkItem :=
  db.workItems.filter fun wi => wi.assigneeUserId == some userId && wi.status.isActive
    && wi.deletedAt.isNone

def listProjectPendingCountsForUser (userId : Int) : List ProjectPendingCounts :=
  (grouped (fun wi : WorkItem => wi.projectId) (db.openItems userId)).map fun g =>
    { projectId := g.1
      requirements := (g.2.filter (·.itemType = .requirement)).length
      tasks := (g.2.filter (·.itemType = .task)).length
      bugs := (g.2.filter (·.itemType = .bug)).length }

/-- `list_project_summaries_for_user`. -/
def listProjectSummariesForUser (userId : Int) (isSuperAdmin : Bool) :
    Except AppError (List ProjectSummary) := do
  let page ← listProjectSummariesForUserPaginated db.toDb userId isSuperAdmin
    { status := "", keyword := "" } { page := 1, perPage := Int64.maxValue }
  pure page.items

end Tables

/-! ## The request -/

def dashboardAssignedItemLimit : Nat := 6

def isFinished (status : WorkItemStatus) : Bool :=
  [WorkItemStatus.done, .closed, .resolved, .verified, .cancelled].contains status

def isHighPriority (priority : Priority) : Bool := [Priority.p0, .p1].contains priority

/-- `pending_by_project.get(&project.id).cloned().unwrap_or_default()`; the keys are distinct. -/
def pendingOf (pendingByProject : List ProjectPendingCounts) (projectId : Int) :
    ProjectPendingCounts :=
  (pendingByProject.find? (·.projectId = projectId)).getD {}

def dashboardProjectPayload (pendingByProject : List ProjectPendingCounts)
    (project : ProjectSummary) : DashboardProjectPayload :=
  let pending := pendingOf pendingByProject project.id
  { key := project.projectKey
    name := project.name
    owner := fallbackText project.ownerDisplayName "未分配"
    ownerUsername := project.ownerUsername
    status := project.status
    workItemCount := project.workItemCount
    activeWorkItemCount := project.activeWorkItemCount
    pendingRequirements := pending.requirements
    pendingTasks := pending.tasks
    pendingBugs := pending.bugs
    updatedAt := project.updatedAt }

def dashboardActivityPayload (activity : ProjectActivitySummary) : DashboardActivityPayload where
  id := activity.id
  projectKey := activity.projectKey
  summary := activity.summary
  actor := fallbackText activity.actorDisplayName "系统"
  createdAt := activity.createdAt

section Request

variable (S : Secrets) (now : String) (headers : Headers) (db : Tables)

/-- The tables that the access checks read. -/
def Tables.access : Access := db.accounts.access db.toDb

def visibleSummaries (user : AuthUser) (canAccessAllProjects canViewProjects : Bool) :
    Except AppError (List ProjectSummary) :=
  if canViewProjects then do
    ensureApiTokenScope S now headers db.access user.id "project:read"
    db.listProjectSummariesForUser user.id canAccessAllProjects
  else .ok []

def visiblePendingCounts (user : AuthUser) (canViewWorkItems : Bool) :
    Except AppError (List ProjectPendingCounts) :=
  if canViewWorkItems then do
    ensureApiTokenScope S now headers db.access user.id "work_item:read"
    pure (db.listProjectPendingCountsForUser user.id)
  else .ok []

def getDashboard : Except AppError DashboardPayload := do
  let principal ← requireD2ApiPrincipal S now headers db.access
  let user := principal.user
  let canAccessAllProjects := apiUserCanAccessAllProjects db.access user
  let canViewProjects := db.access.userHasPermission user.id "project.view"
  let canViewWorkItems := db.access.userHasPermission user.id "work_item.view"
  let summaries ← visibleSummaries S now headers db user canAccessAllProjects canViewProjects
  let pendingByProject ← visiblePendingCounts S now headers db user canViewWorkItems
  let assigned :=
    if canViewWorkItems then db.countPendingAssignedWorkItems user.id canAccessAllProjects none
    else {}
  let assignedItems :=
    if canViewWorkItems then db.listAssignedWorkItemSummaries user.id none else []
  let highPriority := (assignedItems.filter fun item =>
    isHighPriority item.priority && !isFinished item.status).length
  let activeProjects := (summaries.filter fun project =>
    [ProjectStatus.notStarted, .inProgress, .acceptance].contains project.status).length
  ensureApiTokenScope S now headers db.access user.id "notification:read"
  let shown := ((assignedItems.filter fun item => !isFinished item.status).take
    dashboardAssignedItemLimit).map workItemPayload
  pure
    { metrics :=
        { activeProjects
          requirements := assigned.requirements
          tasks := assigned.tasks
          bugs := assigned.bugs
          -- the list was cut above
          assignedTotal := shown.length
          highPriority }
      projects := summaries.map (dashboardProjectPayload pendingByProject)
      pendingDiscussions :=
        (db.listForUserPageFiltered user.id .pendingDiscussion 1 5).map notificationPayload
      pendingDiscussionCount := db.countForUserFiltered user.id .pendingDiscussion
      activities :=
        if canViewProjects then
          (db.listRecentActivitiesForUser user.id canAccessAllProjects 5).map
            dashboardActivityPayload
        else []
      assignedItems := shown
      canManageProjects := db.access.userHasPermission user.id "project.manage" }

end Request

end Dashboard
end Web
end Yuance
