import Yuance.Lib.Table
import Yuance.Projects.Validation

/-!
# Yuance.Projects.Tables

The tables of `api/src/domains/projects.rs`: users, projects, their members, work items, cycles and
the activity log. Times are numbers; a `datetime('now')` is the time of its statement. The texts of
an activity that no call reads again are left out.
-/

namespace Yuance
namespace Projects

open Lib Platform

/-- A row of `users`. -/
structure User where
  id : Int
  username : String
  displayName : String
  /-- `status = 'active'`. -/
  active : Bool
  deriving DecidableEq, Repr

/-- A row of `projects`. -/
structure Project where
  id : Int
  projectKey : String
  name : String
  description : String
  status : ProjectStatus
  ownerUserId : Option Int
  startDate : Option String
  dueDate : Option String
  updatedAt : Int
  deriving DecidableEq, Repr

/-- A row of `project_members`. -/
structure Member where
  projectId : Int
  userId : Int
  role : MemberRole
  joinedAt : Int
  deriving DecidableEq, Repr

/-- A row of `work_items`. -/
structure WorkItem where
  id : Int
  projectId : Int
  itemKey : String
  itemType : WorkItemType
  title : String
  description : String
  status : WorkItemStatus
  priority : Priority
  assigneeUserId : Option Int
  reporterUserId : Option Int
  parentWorkItemId : Option Int
  cycleId : Option Int
  dueDate : Option String
  completedAt : Option Int
  deletedAt : Option Int
  deletedByUserId : Option Int
  deriving DecidableEq, Repr

/-- A row of `project_cycles`. -/
structure Cycle where
  id : Int
  projectId : Int
  name : String
  deriving DecidableEq, Repr

/-- A row of `work_item_comments` that a handoff may refer to. -/
structure CommentRef where
  id : Int
  workItemId : Int
  isDraft : Bool
  deleted : Bool
  deriving DecidableEq, Repr

/-- What an activity records, by its `action` and `metadata`. -/
inductive ActivityKind where
  | projectCreated
  | projectUpdated (status : ProjectStatus) (ownerUsername : String)
  | memberAdded (role : MemberRole)
  | memberRemoved
  | memberRoleUpdated (oldRole role : MemberRole)
  | itemCreated
  | statusUpdated (status previousStatus : WorkItemStatus)
  | handoff (status previousStatus : WorkItemStatus) (assigneeUsername : String)
  /-- A handoff in a batch. -/
  | assigned (status previousStatus : WorkItemStatus)
      (assigneeUsername previousAssigneeUsername : String)
  | priorityUpdated (priority previousPriority : Priority)
  | cycleChanged (previousCycleId cycleId : Option Int)
  | itemUpdated (status previousStatus : WorkItemStatus) (priority : Priority)
      (assigneeUsername dueDate parentItemKey : String)
  | itemArchived
  | itemRestored
  deriving DecidableEq, Repr

/-- What is inserted into `project_activities`; `targetId` is the key or the name of what it is
about. -/
structure Activity where
  projectId : Int
  actorUserId : Int
  targetId : String
  kind : ActivityKind
  deriving DecidableEq, Repr

/-- A row of `project_activities`. -/
structure ActivityRow extends Activity where
  createdAt : Int
  deriving DecidableEq, Repr

structure Db where
  users : List User
  projects : List Project
  nextProject : Int
  members : List Member
  workItems : List WorkItem
  nextWorkItem : Int
  cycles : List Cycle
  comments : List CommentRef
  activities : List ActivityRow
  /-- The work items with an attachment whose file is deleted or about to be. -/
  unavailable : List Int

namespace Db

variable (db : Db)

def user (id : Int) : Option User := db.users.find? (·.id == id)

def userNamed (username : String) : Option User := db.users.find? (·.username == username)

def project (id : Int) : Option Project := db.projects.find? (·.id == id)

def projectKeyed (projectKey : String) : Option Project :=
  db.projects.find? (·.projectKey == projectKey)

def member (projectId userId : Int) : Option Member :=
  db.members.find? fun m => m.projectId == projectId && m.userId == userId

/-- The user has a row in `project_members`. -/
def isMember (projectId userId : Int) : Bool :=
  db.members.any fun m => m.projectId == projectId && m.userId == userId

def workItem (id : Int) : Option WorkItem := db.workItems.find? (·.id == id)

def workItemKeyed (itemKey : String) : Option WorkItem := db.workItems.find? (·.itemKey == itemKey)

end Db

end Projects
end Yuance
