import Yuance.Projects.Tables
import Yuance.Lib.Calls

/-!
# Yuance.Projects.TimeAllocations

The time allocations of `api/src/domains/projects.rs` and their change records. None of the calls has
a transaction: the table is written in one statement and the record of the change in another. A
number of hours is a rational; the text that the metadata of a record is stored as reads back as it
was. The times of the records, the name of the actor in them and the permissions of the handlers are
left out.

* `Db.insert`, `Db.update`, `Db.delete`, `Db.record`: the statements that write.
* `createProjectTimeAllocation`, `updateProjectTimeAllocation`, `deleteProjectTimeAllocation`,
  `restoreTimeAllocationFromRecord`: the calls.
-/

namespace Yuance
namespace Projects
namespace TimeAllocations

open Lib Platform

/-- A row of `users`. -/
structure UserRow where
  id : Int
  username : String
  displayName : String
  /-- `status = 'active'`. -/
  active : Bool
  isSuperAdmin : Bool
  deriving DecidableEq, Repr

/-- A row of `projects`. -/
structure ProjectRow where
  id : Int
  projectKey : String
  name : String
  status : ProjectStatus
  deriving DecidableEq, Repr

/-- A row of `project_time_allocations`. -/
structure Allocation where
  id : Int
  projectId : Int
  userId : Int
  startDate : String
  endDate : String
  dailyHours : Rat
  phaseTaskName : String
  note : String
  createdByUserId : Option Int
  createdAt : Int
  updatedAt : Int
  deriving DecidableEq, Repr

structure TimeAllocationDetail where
  id : Int
  projectKey : String
  projectName : String
  username : String
  displayName : String
  startDate : String
  endDate : String
  dailyHours : Rat
  phaseTaskName : String
  note : String
  createdAt : Int
  updatedAt : Int
  deriving DecidableEq, Repr

/-- `CreateTimeAllocationInput` and `UpdateTimeAllocationInput`. -/
structure TimeAllocationInput where
  username : String
  startDate : String
  endDate : String
  dailyHours : Rat
  phaseTaskName : String
  note : String
  deriving DecidableEq, Repr

/-! ## Change records -/

/-- The values of a snapshot. -/
inductive Scalar where
  | str (s : String)
  | num (n : Rat)
  deriving DecidableEq, Repr

/-- The JSON object of a snapshot. -/
abbrev Snapshot := List (String × Scalar)

def Snapshot.get (snapshot : Snapshot) (field : String) : Option Scalar := snapshot.lookup field

def Scalar.asStr : Scalar → Option String
  | str s => some s
  | num _ => none

def Scalar.asF64 : Scalar → Option Rat
  | str _ => none
  | num n => some n

def timeAllocationSnapshot (allocation : TimeAllocationDetail) : Snapshot :=
  [("project_key", .str allocation.projectKey), ("project_name", .str allocation.projectName),
    ("username", .str allocation.username), ("display_name", .str allocation.displayName),
    ("start_date", .str allocation.startDate), ("end_date", .str allocation.endDate),
    ("daily_hours", .num allocation.dailyHours),
    ("phase_task_name", .str allocation.phaseTaskName), ("note", .str allocation.note)]

def timeAllocationFields : List (String × (TimeAllocationDetail → Scalar)) :=
  [("username", fun a => .str a.username), ("start_date", fun a => .str a.startDate),
    ("end_date", fun a => .str a.endDate), ("daily_hours", fun a => .num a.dailyHours),
    ("phase_task_name", fun a => .str a.phaseTaskName), ("note", fun a => .str a.note)]

structure TimeAllocationFieldChange where
  field : String
  before : Option Scalar
  after : Option Scalar
  deriving DecidableEq, Repr

def timeAllocationChanges (before after : Option TimeAllocationDetail) :
    List TimeAllocationFieldChange :=
  timeAllocationFields.filterMap fun (field, value) =>
    if before.isSome ∧ after.isSome ∧ before.map value = after.map value then none
    else some { field, before := before.map value, after := after.map value }

/-- The metadata of a record. -/
structure Metadata where
  before : Option Snapshot
  after : Option Snapshot
  changes : List TimeAllocationFieldChange
  sourceActivityId : Option Int
  deriving DecidableEq, Repr

def timeAllocationChangeMetadata (before after : Option TimeAllocationDetail) : Metadata where
  before := before.map timeAllocationSnapshot
  after := after.map timeAllocationSnapshot
  changes := timeAllocationChanges before after
  sourceActivityId := none

def timeAllocationRestoreMetadata (before after : Option TimeAllocationDetail)
    (sourceActivityId : Int) : Metadata :=
  { timeAllocationChangeMetadata before after with sourceActivityId := some sourceActivityId }

inductive Action where
  | created
  | updated
  | deleted
  | restored
  deriving DecidableEq, Repr

/-- What `insert_time_allocation_activity` inserts. -/
structure NewActivity where
  projectId : Int
  actorUserId : Int
  action : Action
  targetId : Int
  summary : String
  metadata : Metadata
  deriving DecidableEq, Repr

/-- A row of `project_activities` about a time allocation. -/
structure ActivityRow extends NewActivity where
  id : Int
  deriving DecidableEq, Repr

structure TimeAllocationChangeRecordMeta where
  recordId : Int
  projectId : Int
  projectKey : String
  projectStatus : ProjectStatus
  allocationId : Int
  action : Action
  before : Option Snapshot
  after : Option Snapshot
  deriving DecidableEq, Repr

/-! ## The tables -/

structure Db where
  users : List UserRow
  projects : List ProjectRow
  /-- The pairs of a project and a user in `project_members`. -/
  members : List (Int × Int)
  allocations : List Allocation
  nextAllocation : Int
  activities : List ActivityRow
  nextActivity : Int

namespace Db

variable (db : Db)

def user (id : Int) : Option UserRow := db.users.find? (·.id == id)

def project (id : Int) : Option ProjectRow := db.projects.find? (·.id == id)

def projectKeyed (projectKey : String) : Option ProjectRow :=
  db.projects.find? (·.projectKey == projectKey)

def row (id : Int) : Option Allocation := db.allocations.find? (·.id == id)

/-- The columns of `TIME_ALLOCATION_SELECT`. -/
def detailOf (a : Allocation) : Option TimeAllocationDetail :=
  (db.project a.projectId).bind fun p => (db.user a.userId).map fun u =>
    { id := a.id, projectKey := p.projectKey, projectName := p.name, username := u.username,
      displayName := u.displayName, startDate := a.startDate, endDate := a.endDate,
      dailyHours := a.dailyHours, phaseTaskName := a.phaseTaskName, note := a.note,
      createdAt := a.createdAt, updatedAt := a.updatedAt }

def allocation (id : Int) : Option TimeAllocationDetail := (db.row id).bind db.detailOf

/-- The project with the key, if the allocation is one of its own. -/
def allocationProject (projectKey : String) (allocationId : Int) : Option ProjectRow :=
  (db.row allocationId).bind fun a =>
    (db.project a.projectId).filter (·.projectKey == projectKey)

/-- The same, with the name of the user that the allocation is for. -/
def allocationOwner (projectKey : String) (allocationId : Int) : Option (ProjectRow × String) :=
  (db.row allocationId).bind fun a =>
    ((db.project a.projectId).filter (·.projectKey == projectKey)).bind fun p =>
      (db.user a.userId).map fun u => (p, u.username)

def activeUser (username : String) : Option Int :=
  (db.users.find? fun u => u.username == username && u.active && !u.isSuperAdmin).map (·.id)

def memberUser (projectId : Int) (username : String) : Option Int :=
  (db.users.find? fun u => u.username == username && u.active
    && db.members.contains (projectId, u.id)).map (·.id)

/-- The row of a new allocation. -/
def newRow (now projectId userId : Int) (input : TimeAllocationInput) (createdBy : Int) :
    Allocation where
  id := db.nextAllocation
  projectId := projectId
  userId := userId
  startDate := input.startDate
  endDate := input.endDate
  dailyHours := input.dailyHours
  phaseTaskName := input.phaseTaskName
  note := input.note
  createdByUserId := some createdBy
  createdAt := now
  updatedAt := now

/-- `INSERT INTO project_time_allocations .. RETURNING id`; the keys that it refers to must exist. -/
def insert (now projectId userId : Int) (input : TimeAllocationInput) (createdBy : Int) :
    Db × Except AppError Int :=
  if (db.project projectId).isNone ∨ (db.user userId).isNone ∨ (db.user createdBy).isNone then
    (db, .error .storage)
  else
    ({ db with
       allocations := db.allocations ++ [db.newRow now projectId userId input createdBy]
       nextAllocation := db.nextAllocation + 1 }, .ok db.nextAllocation)

def updatedRow (now userId : Int) (input : TimeAllocationInput) (a : Allocation) : Allocation :=
  { a with
    userId := userId
    startDate := input.startDate
    endDate := input.endDate
    dailyHours := input.dailyHours
    phaseTaskName := input.phaseTaskName
    note := input.note
    updatedAt := now }

/-- `UPDATE project_time_allocations .. WHERE id = ?1`. -/
def update (now id userId : Int) (input : TimeAllocationInput) : Db × Except AppError Unit :=
  if (db.row id).isSome ∧ (db.user userId).isNone then (db, .error .storage)
  else
    ({ db with
       allocations := updateWhere (·.id == id) (updatedRow now userId input) db.allocations }, .ok ())

/-- `DELETE FROM project_time_allocations WHERE id = ?1`. -/
def delete (id : Int) : Db := { db with allocations := db.allocations.filter (·.id != id) }

/-- `INSERT INTO project_activities`. -/
def record (a : NewActivity) : Db × Except AppError Unit :=
  if (db.project a.projectId).isNone ∨ (db.user a.actorUserId).isNone then (db, .error .storage)
  else
    ({ db with
       activities := db.activities ++ [{ a with id := db.nextActivity }]
       nextActivity := db.nextActivity + 1 }, .ok ())

/-- `get_time_allocation_change_record_meta`. -/
def changeRecordMeta (recordId : Int) : Option TimeAllocationChangeRecordMeta :=
  (db.activities.find? (·.id == recordId)).bind fun a => (db.project a.projectId).map fun p =>
    { recordId := a.id, projectId := a.projectId, projectKey := p.projectKey
      projectStatus := p.status, allocationId := a.targetId, action := a.action
      before := a.metadata.before, after := a.metadata.after }

/-- How often the record was restored. -/
def restoredCount (recordId : Int) : Nat :=
  (db.activities.filter fun a =>
    a.action == .restored && a.metadata.sourceActivityId == some recordId).length

end Db

/-! ## Statements -/

inductive Statement where
  | project (projectKey : String)
  | allocationProject (projectKey : String) (allocationId : Int)
  | allocationOwner (projectKey : String) (allocationId : Int)
  | activeUser (username : String)
  | memberUser (projectId : Int) (username : String)
  | allocation (id : Int)
  | changeRecordMeta (recordId : Int)
  | restoredCount (recordId : Int)
  | insert (projectId userId : Int) (input : TimeAllocationInput) (createdBy : Int)
  | update (id userId : Int) (input : TimeAllocationInput)
  | delete (id : Int)
  | record (activity : NewActivity)

abbrev Statement.Answer : Statement → Type
  | project _ => Option ProjectRow
  | allocationProject .. => Option ProjectRow
  | allocationOwner .. => Option (ProjectRow × String)
  | activeUser _ => Option Int
  | memberUser .. => Option Int
  | allocation _ => Option TimeAllocationDetail
  | changeRecordMeta _ => Option TimeAllocationChangeRecordMeta
  | restoredCount _ => Nat
  | insert .. => Int
  | update .. => Unit
  | delete _ => Unit
  | record _ => Unit

def execute (now : Int) (db : Db) : (s : Statement) → Db × Except AppError s.Answer
  | .project projectKey => (db, .ok (db.projectKeyed projectKey))
  | .allocationProject projectKey allocationId =>
    (db, .ok (db.allocationProject projectKey allocationId))
  | .allocationOwner projectKey allocationId =>
    (db, .ok (db.allocationOwner projectKey allocationId))
  | .activeUser username => (db, .ok (db.activeUser username))
  | .memberUser projectId username => (db, .ok (db.memberUser projectId username))
  | .allocation id => (db, .ok (db.allocation id))
  | .changeRecordMeta recordId => (db, .ok (db.changeRecordMeta recordId))
  | .restoredCount recordId => (db, .ok (db.restoredCount recordId))
  | .insert projectId userId input createdBy => db.insert now projectId userId input createdBy
  | .update id userId input => db.update now id userId input
  | .delete id => (db.delete id, .ok ())
  | .record activity => db.record activity

/-- The time of a statement, and the error that it fails with if it fails. -/
structure Moment where
  now : Int
  fault : Option AppError

def perform (m : Moment) (s : Statement) (db : Db) : Db × Except AppError s.Answer :=
  match m.fault with
  | some e => (db, .error e)
  | none => execute m.now db s

/-! ## Checks of the input -/

def validateTimeAllocationInput (input : TimeAllocationInput) :
    Except AppError TimeAllocationInput := do
  let username ← validateUsernameRef input.username
  let startDate ← validateOptionalDate input.startDate "开始日期"
  let endDate ← validateOptionalDate input.endDate "结束日期"
  rejectIf (startDate = "") (.badRequest "开始日期不能为空")
  rejectIf (endDate = "") (.badRequest "结束日期不能为空")
  validateDateRange startDate endDate "结束日期不能早于开始日期"
  rejectIf (¬ 0 < input.dailyHours ∨ 24 < input.dailyHours)
    (.badRequest "每天投入小时数必须在 0 到 24 之间")
  let phaseTaskName ← validateOptionalText input.phaseTaskName "阶段任务名称" 200
  let note ← validateOptionalText input.note "排期备注" 500
  pure { username, startDate, endDate, dailyHours := input.dailyHours, phaseTaskName, note }

def timeAllocationSnapshotFields (snapshot : Snapshot) : Except AppError TimeAllocationInput := do
  let missing := AppError.badRequest "修改记录回退快照不完整"
  let username ← okOr ((snapshot.get "username").bind (·.asStr)) missing
  let startDate ← okOr ((snapshot.get "start_date").bind (·.asStr)) missing
  let endDate ← okOr ((snapshot.get "end_date").bind (·.asStr)) missing
  let dailyHours ← okOr ((snapshot.get "daily_hours").bind (·.asF64)) missing
  let phaseTaskName := ((snapshot.get "phase_task_name").bind (·.asStr)).getD ""
  let note := ((snapshot.get "note").bind (·.asStr)).getD ""
  pure { username, startDate, endDate, dailyHours, phaseTaskName, note }

/-! ## Calls -/

abbrev Task (α : Type) := Call Statement Statement.Answer AppError α

def query (s : Statement) : Task s.Answer := Call.make s

def invalidAllocationId : AppError := .badRequest "排期 ID 无效"
def allocationMissing : AppError := .notFound "时间排期不存在"

def getTimeAllocation (allocationId : Int) : Task TimeAllocationDetail := do
  Call.rejectIf (allocationId ≤ 0) invalidAllocationId
  let row ← query (.allocation allocationId)
  Call.okOr row allocationMissing

def resolveActiveUserId (username : String) : Task Int := do
  let username ← Call.ofExcept (validateUsernameRef username)
  let userId ← query (.activeUser username)
  Call.okOr userId (.badRequest "排期对象必须是已启用的非超级管理员用户")

def resolveProjectMemberUserId (projectId : Int) (username : String) : Task Int := do
  let username ← Call.ofExcept (validateUsernameRef username)
  let userId ← query (.memberUser projectId username)
  Call.okOr userId (.badRequest "处理人必须是已启用的项目成员")

def resolveTarget (allowNonMemberTarget : Bool) (projectId : Int) (username : String) : Task Int :=
  if allowNonMemberTarget then resolveActiveUserId username
  else resolveProjectMemberUserId projectId username

def insertTimeAllocationActivity (activity : NewActivity) : Task Unit := query (.record activity)

def period (input : TimeAllocationInput) : String := input.startDate ++ " ~ " ++ input.endDate

def createProjectTimeAllocation (actorUserId : Int) (projectKey : String)
    (input : TimeAllocationInput) (allowNonMemberTarget : Bool) : Task TimeAllocationDetail := do
  let projectKey ← Call.ofExcept (validateProjectKey projectKey)
  let input ← Call.ofExcept (validateTimeAllocationInput input)
  let project ← query (.project projectKey)
  let project ← Call.okOr project (.notFound "项目不存在")
  Call.ofExcept (ensureProjectAcceptsWrites project.status)
  let userId ← resolveTarget allowNonMemberTarget project.id input.username
  let allocationId ← query (.insert project.id userId input actorUserId)
  let allocation ← getTimeAllocation allocationId
  insertTimeAllocationActivity
    { projectId := project.id, actorUserId, action := .created, targetId := allocationId
      summary := "创建成员 " ++ input.username ++ " 的排期 " ++ period input
      metadata := timeAllocationChangeMetadata none (some allocation) }
  pure allocation

def updateProjectTimeAllocation (actorUserId : Int) (projectKey : String) (allocationId : Int)
    (input : TimeAllocationInput) (allowNonMemberTarget : Bool) : Task TimeAllocationDetail := do
  let projectKey ← Call.ofExcept (validateProjectKey projectKey)
  Call.rejectIf (allocationId ≤ 0) invalidAllocationId
  let input ← Call.ofExcept (validateTimeAllocationInput input)
  let project ← query (.allocationProject projectKey allocationId)
  let project ← Call.okOr project allocationMissing
  Call.ofExcept (ensureProjectAcceptsWrites project.status)
  let userId ← resolveTarget allowNonMemberTarget project.id input.username
  let before ← getTimeAllocation allocationId
  query (.update allocationId userId input)
  let allocation ← getTimeAllocation allocationId
  insertTimeAllocationActivity
    { projectId := project.id, actorUserId, action := .updated, targetId := allocationId
      summary := "更新成员 " ++ input.username ++ " 的排期 " ++ period input
      metadata := timeAllocationChangeMetadata (some before) (some allocation) }
  pure allocation

def deleteProjectTimeAllocation (actorUserId : Int) (projectKey : String) (allocationId : Int) :
    Task Unit := do
  let projectKey ← Call.ofExcept (validateProjectKey projectKey)
  Call.rejectIf (allocationId ≤ 0) invalidAllocationId
  let owner ← query (.allocationOwner projectKey allocationId)
  let (project, username) ← Call.okOr owner allocationMissing
  Call.ofExcept (ensureProjectAcceptsWrites project.status)
  let before ← getTimeAllocation allocationId
  query (.delete allocationId)
  insertTimeAllocationActivity
    { projectId := project.id, actorUserId, action := .deleted, targetId := allocationId
      summary := "删除成员 " ++ username ++ " 的时间排期"
      metadata := timeAllocationChangeMetadata (some before) none }

/-! ## Rolling a change back -/

/-- The fields of the snapshot, checked again. -/
def restoredInput (before : Option Snapshot) : Except AppError TimeAllocationInput := do
  let snapshot ← okOr before (.badRequest "该修改记录缺少回退快照")
  let fields ← timeAllocationSnapshotFields snapshot
  validateTimeAllocationInput fields

def restoreCreated (actorUserId : Int) (record : TimeAllocationChangeRecordMeta) :
    Task (Option TimeAllocationDetail) := do
  let before ← getTimeAllocation record.allocationId
  query (.delete record.allocationId)
  insertTimeAllocationActivity
    { projectId := record.projectId, actorUserId, action := .restored
      targetId := record.allocationId
      summary := "回退新增：删除成员 " ++ before.username ++ " 的排期 " ++ before.startDate ++ " ~ "
        ++ before.endDate
      metadata := timeAllocationRestoreMetadata (some before) none record.recordId }
  pure none

def restoreUpdated (actorUserId : Int) (record : TimeAllocationChangeRecordMeta) :
    Task (Option TimeAllocationDetail) := do
  let before ← getTimeAllocation record.allocationId
  let input ← Call.ofExcept (restoredInput record.before)
  let userId ← resolveActiveUserId input.username
  query (.update record.allocationId userId input)
  let after ← getTimeAllocation record.allocationId
  insertTimeAllocationActivity
    { projectId := record.projectId, actorUserId, action := .restored
      targetId := record.allocationId
      summary := "回退记录 #" ++ toString record.recordId ++ "：恢复成员 " ++ input.username ++ " 的排期 "
        ++ period input
      metadata := timeAllocationRestoreMetadata (some before) (some after) record.recordId }
  pure (some after)

def restoreDeleted (actorUserId : Int) (record : TimeAllocationChangeRecordMeta) :
    Task (Option TimeAllocationDetail) := do
  let input ← Call.ofExcept (restoredInput record.before)
  let userId ← resolveActiveUserId input.username
  let allocationId ← query (.insert record.projectId userId input actorUserId)
  let after ← getTimeAllocation allocationId
  insertTimeAllocationActivity
    { projectId := record.projectId, actorUserId, action := .restored, targetId := allocationId
      summary := "回退删除：恢复成员 " ++ input.username ++ " 的排期 " ++ period input
      metadata := timeAllocationRestoreMetadata none (some after) record.recordId }
  pure (some after)

def restoreTimeAllocationFromRecord (actorUserId : Int) (record : TimeAllocationChangeRecordMeta) :
    Task (Option TimeAllocationDetail) := do
  Call.ofExcept (ensureProjectAcceptsWrites record.projectStatus)
  let alreadyRestored ← query (.restoredCount record.recordId)
  Call.rejectIf (alreadyRestored > 0) (.conflict "该修改记录已回退，不能重复回退")
  match record.action with
  | .created => restoreCreated actorUserId record
  | .updated => restoreUpdated actorUserId record
  | .deleted => restoreDeleted actorUserId record
  | .restored => Call.fail (.badRequest "该修改记录不支持回退")

/-- The handler, which reads the record that it passes on. -/
def restoreTimeAllocationChange (actorUserId recordId : Int) :
    Task (Option TimeAllocationDetail) := do
  let record ← query (.changeRecordMeta recordId)
  let record ← Call.okOr record (.notFound "修改记录不存在")
  restoreTimeAllocationFromRecord actorUserId record

inductive Request where
  | create (actorUserId : Int) (projectKey : String) (input : TimeAllocationInput)
      (allowNonMemberTarget : Bool)
  | update (actorUserId : Int) (projectKey : String) (allocationId : Int)
      (input : TimeAllocationInput) (allowNonMemberTarget : Bool)
  | delete (actorUserId : Int) (projectKey : String) (allocationId : Int)
  | restore (actorUserId recordId : Int)

def start : Request → Task (Option TimeAllocationDetail)
  | .create actorUserId projectKey input allowNonMemberTarget => do
    let allocation ← createProjectTimeAllocation actorUserId projectKey input allowNonMemberTarget
    pure (some allocation)
  | .update actorUserId projectKey allocationId input allowNonMemberTarget => do
    let allocation ←
      updateProjectTimeAllocation actorUserId projectKey allocationId input allowNonMemberTarget
    pure (some allocation)
  | .delete actorUserId projectKey allocationId => do
    deleteProjectTimeAllocation actorUserId projectKey allocationId
    pure none
  | .restore actorUserId recordId => restoreTimeAllocationChange actorUserId recordId

abbrev Server := Serving Statement Statement.Answer AppError (Option TimeAllocationDetail) Db

end TimeAllocations
end Projects
end Yuance
