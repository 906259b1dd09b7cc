import Yuance.Web.Access

/-!
# Yuance.Projects.Cycles

The cycles of a project in `api/src/domains/projects.rs`: they are created, changed and closed, and
each of these is recorded in the activities. A transaction is one step; the record of a cycle is read
back by its id.

* `createProjectCycle`, `updateProjectCycle`, `closeProjectCycle`: the calls.
-/

namespace Yuance
namespace Projects
namespace Cycles

open Lib Platform
open Web (Access)

/-- A row of `project_cycles`. -/
structure CycleRow where
  id : Int
  projectId : Int
  name : String
  goal : String
  description : String
  ownerUserId : Option Int
  startDate : String
  endDate : String
  sortOrder : Int
  closedAt : Option String
  createdAt : String
  updatedAt : String
  deriving DecidableEq, Repr

/-- A row of `project_activities`. -/
structure CycleActivity where
  projectId : Int
  actorUserId : Int
  action : String
  targetId : Int
  summary : String
  metadata : String
  deriving DecidableEq, Repr

structure Db where
  access : Access
  cycles : List CycleRow
  nextCycle : Int
  activities : List CycleActivity
  deriving DecidableEq

/-- `CreateProjectCycleInput` and `UpdateProjectCycleInput`. -/
structure ProjectCycleInput where
  name : String
  goal : String
  description : String
  ownerUsername : String
  startDate : String
  endDate : String
  deriving DecidableEq, Repr

/-- The checks on the input. -/
def validateProjectCycleInput (input : ProjectCycleInput) : Except AppError ProjectCycleInput := do
  let name ← validateName input.name "周期名称" 120
  let goal ← validateOptionalText input.goal "周期目标" 240
  let description ← validateOptionalText input.description "周期说明" 5000
  let startDate ← validateOptionalDate input.startDate "周期开始日期"
  let endDate ← validateOptionalDate input.endDate "周期结束日期"
  rejectIf (startDate = "") (.badRequest "周期开始日期不能为空")
  rejectIf (endDate = "") (.badRequest "周期结束日期不能为空")
  validateDateRange startDate endDate "周期结束日期不能早于开始日期"
  pure { name, goal, description, ownerUsername := trim input.ownerUsername, startDate, endDate }

namespace Db

variable (db : Db)

/-- The enabled member of the project with the name. -/
def memberNamed (projectId : Int) (username : String) : Option Int :=
  (db.access.users.find? fun u => u.username == username && u.active
    && db.access.isProjectMember projectId u.id).map (·.id)

def projectCycle (projectKey : String) (cycleId : Int) : Option (Project × CycleRow) :=
  (db.access.projectKeyed projectKey).bind fun project =>
    (db.cycles.find? fun c => c.id == cycleId && c.projectId == project.id).map fun c => (project, c)

/-- `COALESCE(MAX(sort_order), 0) + 1`. -/
def nextSortOrder (projectId : Int) : Int :=
  (((db.cycles.filter (·.projectId == projectId)).map (·.sortOrder)).max?).getD 0 + 1

end Db

def resolveProjectMemberUserId (db : Db) (projectId : Int) (username : String) :
    Except AppError Int := do
  let username ← validateUsernameRef username
  okOr (db.memberNamed projectId username) (.badRequest "处理人必须是已启用的项目成员")

def resolveOwner (db : Db) (projectId : Int) (ownerUsername : String) :
    Except AppError (Option Int) :=
  if ownerUsername = "" then .ok none
  else do
    let ownerUserId ← resolveProjectMemberUserId db projectId ownerUsername
    pure (some ownerUserId)

def cycleMetadata (input : ProjectCycleInput) : String :=
  "\x7b\"owner_username\":\"" ++ input.ownerUsername ++ "\",\"start_date\":\"" ++ input.startDate
    ++ "\",\"end_date\":\"" ++ input.endDate ++ "\"\x7d"

/-- A transaction on what its call has found, if the call comes that far. -/
def commit {α : Type} (found : Except AppError α) (write : α → Db × Int) (db : Db) :
    Db × Except AppError Int :=
  match found with
  | .error e => (db, .error e)
  | .ok a => ((write a).1, .ok (write a).2)

def createProjectCycle (now : String) (actorUserId : Int) (projectKey : String)
    (input : ProjectCycleInput) (db : Db) : Db × Except AppError Int :=
  let found : Except AppError (ProjectCycleInput × Project × Option Int) := do
    let projectKey ← validateProjectKey projectKey
    let input ← validateProjectCycleInput input
    let project ← okOr (db.access.projectKeyed projectKey) (.badRequest "项目不存在")
    ensureProjectAcceptsWrites project.status
    let ownerUserId ← resolveOwner db project.id input.ownerUsername
    pure (input, project, ownerUserId)
  commit found (fun (input, project, ownerUserId) =>
    ({ db with
       cycles := db.cycles ++
         [{ id := db.nextCycle, projectId := project.id, name := input.name, goal := input.goal,
            description := input.description, ownerUserId, startDate := input.startDate,
            endDate := input.endDate, sortOrder := db.nextSortOrder project.id, closedAt := none,
            createdAt := now, updatedAt := now }]
       nextCycle := db.nextCycle + 1
       activities := db.activities ++
         [{ projectId := project.id, actorUserId, action := "project_cycle.created",
            targetId := db.nextCycle, summary := "创建周期 " ++ input.name,
            metadata := cycleMetadata input }] }, db.nextCycle)) db

def updateProjectCycle (now : String) (actorUserId : Int) (projectKey : String) (cycleId : Int)
    (input : ProjectCycleInput) (db : Db) : Db × Except AppError Int :=
  let found : Except AppError (ProjectCycleInput × Project × Option Int) := do
    let projectKey ← validateProjectKey projectKey
    rejectIf (cycleId ≤ 0) (.badRequest "周期 ID 无效")
    let input ← validateProjectCycleInput input
    let (project, _) ← okOr (db.projectCycle projectKey cycleId) (.notFound "周期不存在")
    ensureProjectAcceptsWrites project.status
    let ownerUserId ← resolveOwner db project.id input.ownerUsername
    pure (input, project, ownerUserId)
  commit found (fun (input, project, ownerUserId) =>
    ({ db with
       cycles := updateWhere (·.id == cycleId)
         (fun c => { c with
           name := input.name, goal := input.goal, description := input.description, ownerUserId,
           startDate := input.startDate, endDate := input.endDate, updatedAt := now }) db.cycles
       activities := db.activities ++
         [{ projectId := project.id, actorUserId, action := "project_cycle.updated",
            targetId := cycleId, summary := "更新周期 " ++ input.name,
            metadata := cycleMetadata input }] }, cycleId)) db

def closeProjectCycle (now : String) (actorUserId : Int) (projectKey : String) (cycleId : Int)
    (db : Db) : Db × Except AppError Int :=
  let found : Except AppError (Project × CycleRow) := do
    let projectKey ← validateProjectKey projectKey
    rejectIf (cycleId ≤ 0) (.badRequest "周期 ID 无效")
    let found ← okOr (db.projectCycle projectKey cycleId) (.notFound "周期不存在")
    ensureProjectAcceptsWrites found.1.status
    pure found
  commit found (fun (project, cycle) =>
    -- a cycle that is closed stays as it is
    if cycle.closedAt.any (· ≠ "") then (db, cycleId)
    else
      ({ db with
         cycles := updateWhere (·.id == cycleId)
           (fun c => { c with closedAt := some now, updatedAt := now }) db.cycles
         activities := db.activities ++
           [{ projectId := project.id, actorUserId, action := "project_cycle.closed",
              targetId := cycleId, summary := "关闭周期 " ++ cycle.name, metadata := "" }] },
        cycleId)) db

end Cycles
end Projects
end Yuance
