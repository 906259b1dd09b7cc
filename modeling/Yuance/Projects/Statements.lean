import Yuance.Lib.Calls
import Yuance.Projects.Tables

/-!
# Yuance.Projects.Statements

The statements of `api/src/domains/projects.rs` on projects, members and work items. A transaction is
one statement: it carries what the call read before it began, and it writes without looking at these
rows again. The comments and the notifications that a transaction writes beside them are left out.

* `ItemWrite`: one work item of a transaction, with the row that the call read.
* `execute`: what each statement does to the tables.
-/

namespace Yuance
namespace Projects

open Lib Platform

/-- A work item with its project and its assignee. -/
structure ItemRow where
  item : WorkItem
  project : Project
  assignee : Option User
  deriving DecidableEq, Repr

/-- The assignee that a handoff writes. -/
inductive HandoffAssignee where
  /-- No name was given: the assignee that was read. -/
  | kept (userId : Option Int)
  | named (userId : Int)
  deriving DecidableEq, Repr

def HandoffAssignee.userId : HandoffAssignee → Option Int
  | kept userId => userId
  | named userId => some userId

/-- What `update_work_item` writes. -/
structure ItemEdit where
  title : String
  description : String
  status : WorkItemStatus
  priority : Priority
  assigneeUserId : Option Int
  dueDate : Option String
  parentWorkItemId : Option Int
  cycleId : Option Int
  deriving DecidableEq, Repr

/-- What an `UPDATE` of a work item sets, by the operation that makes it. -/
inductive ItemChange where
  | status (status : WorkItemStatus)
  | handoff (status : WorkItemStatus) (assignee : HandoffAssignee)
  | edit (edit : ItemEdit)
  | batchAssignee (userId : Int)
  | batchStatus (status : WorkItemStatus)
  | batchPriority (priority : Priority)
  | batchCycle (cycleId : Option Int)
  deriving DecidableEq, Repr

/-- The status that a change writes, if it writes one. -/
def ItemChange.status? : ItemChange → Option WorkItemStatus
  | status s => some s
  | handoff s _ => some s
  | edit e => some e.status
  | batchStatus s => some s
  | _ => none

/-- `CASE WHEN status IN ('done', 'closed', 'resolved', 'verified') THEN datetime('now') END`. -/
def completion (now : Int) (status : WorkItemStatus) : Option Int :=
  if [WorkItemStatus.done, .closed, .resolved, .verified].contains status then some now else none

def ItemChange.apply (now : Int) (wi : WorkItem) : ItemChange → WorkItem
  | .status s => { wi with status := s, completedAt := completion now s }
  | .handoff s a =>
    { wi with status := s, assigneeUserId := a.userId, completedAt := completion now s }
  | .edit e =>
    { wi with
      title := e.title
      description := e.description
      status := e.status
      priority := e.priority
      assigneeUserId := e.assigneeUserId
      dueDate := e.dueDate
      parentWorkItemId := e.parentWorkItemId
      cycleId := e.cycleId
      completedAt := completion now e.status }
  | .batchAssignee userId => { wi with assigneeUserId := some userId }
  | .batchStatus s => { wi with status := s, completedAt := completion now s }
  | .batchPriority p => { wi with priority := p }
  | .batchCycle cycleId => { wi with cycleId := cycleId }

/-- One work item of a transaction. -/
structure ItemWrite where
  /-- The row as the call read it. -/
  read : WorkItem
  change : ItemChange
  activities : List Activity

/-- What `create_work_item` inserts. -/
structure ItemInsert where
  projectId : Int
  /-- `{project_key}-{segment}-`. -/
  head : String
  itemType : WorkItemType
  title : String
  description : String
  priority : Priority
  assigneeUserId : Int
  actorUserId : Int
  parentWorkItemId : Option Int
  cycleId : Option Int
  dueDate : Option String

structure ProjectInsert where
  projectKey : String
  name : String
  description : String
  status : ProjectStatus
  actorUserId : Int
  startDate : Option String
  dueDate : Option String

structure ProjectUpdate where
  projectId : Int
  projectKey : String
  name : String
  description : String
  status : ProjectStatus
  ownerUserId : Int
  ownerUsername : String
  /-- The owner that was read. -/
  previousOwnerUserId : Option Int
  startDate : Option String
  dueDate : Option String
  actorUserId : Int

/-! ## Queries and transactions -/

namespace Db

variable (db : Db)

/-- A transaction by a user who must exist. -/
def byUser {α : Type} (userId : Int) (outcome : Db × Except AppError α) : Db × Except AppError α :=
  if (db.user userId).isSome then outcome else (db, .error .storage)

/-- A user with the name who is enabled and a member of the project. -/
def activeMember (projectId : Int) (username : String) : Option User :=
  (db.userNamed username).filter fun u => u.active && db.isMember projectId u.id

def memberNamed (projectId : Int) (username : String) : Option (User × Member) :=
  (db.userNamed username).bind fun u => (db.member projectId u.id).map fun m => (u, m)

def itemRow (wi : WorkItem) : Option ItemRow :=
  (db.project wi.projectId).map fun p =>
    { item := wi, project := p, assignee := wi.assigneeUserId.bind db.user }

/-- The work item with the key, deleted or not. -/
def anyItem (itemKey : String) : Option ItemRow := (db.workItemKeyed itemKey).bind db.itemRow

/-- The work item with the key, unless it is deleted. -/
def item (itemKey : String) : Option ItemRow :=
  (db.anyItem itemKey).filter fun row => row.item.deletedAt.isNone

def itemsIn (itemKeys : List String) : List ItemRow :=
  (db.workItems.filter fun wi => wi.deletedAt.isNone && itemKeys.contains wi.itemKey).filterMap
    db.itemRow

def countActiveAssigned (projectId userId : Int) : Nat :=
  (db.workItems.filter fun wi => wi.projectId == projectId && wi.assigneeUserId == some userId
    && wi.deletedAt.isNone && wi.status.isActive).length

def cycle (cycleId projectId : Int) : Option Cycle :=
  db.cycles.find? fun c => c.id == cycleId && c.projectId == projectId

/-- An undeleted requirement of the project. -/
def requirement (projectId : Int) (itemKey : String) : Option WorkItem :=
  db.workItems.find? fun wi => wi.projectId == projectId && wi.itemKey == itemKey
    && wi.itemType == .requirement && wi.deletedAt.isNone

/-- A published comment of the work item. -/
def comment (workItemId commentId : Int) : Option CommentRef :=
  db.comments.find? fun c => c.id == commentId && c.workItemId == workItemId && !c.deleted
    && !c.isDraft

/-- `INSERT .. ON CONFLICT(project_id, user_id) DO UPDATE SET member_role`. -/
def upsertMember (projectId userId : Int) (role : MemberRole) (now : Int) : Db :=
  if db.isMember projectId userId then
    { db with
      members := updateWhere (fun m => m.projectId == projectId && m.userId == userId)
        ({ · with role := role }) db.members }
  else
    { db with members := db.members ++ [{ projectId, userId, role, joinedAt := now }] }

def record (activities : List Activity) (now : Int) : Db :=
  { db with activities := db.activities ++ activities.map fun a => { a with createdAt := now } }

/-- The transaction of `create_project`, nothing where the key is taken. -/
def insertProject (p : ProjectInsert) (now : Int) : Db × Except AppError (Option Int) :=
  if (db.projectKeyed p.projectKey).isSome then (db, .ok none)
  else
    let inserted : Db :=
      { db with
        projects := db.projects ++ [
          { id := db.nextProject, projectKey := p.projectKey, name := p.name,
            description := p.description, status := p.status, ownerUserId := some p.actorUserId,
            startDate := p.startDate, dueDate := p.dueDate, updatedAt := now }]
        nextProject := db.nextProject + 1 }
    db.byUser p.actorUserId
      ((inserted.upsertMember db.nextProject p.actorUserId .owner now).record
        [{ projectId := db.nextProject, actorUserId := p.actorUserId, targetId := p.projectKey,
           kind := .projectCreated }] now, .ok (some db.nextProject))

def setProject (u : ProjectUpdate) (now : Int) (p : Project) : Project :=
  { p with
    name := u.name
    description := u.description
    status := u.status
    ownerUserId := some u.ownerUserId
    startDate := u.startDate
    dueDate := u.dueDate
    updatedAt := now }

/-- The two updates of `project_members` where the owner is another. -/
def transferOwnership (projectId ownerUserId : Int) (members : List Member) : List Member :=
  updateWhere (fun m => m.projectId == projectId && m.userId == ownerUserId)
    ({ · with role := .owner })
    (updateWhere (fun m => m.projectId == projectId && m.role == .owner && m.userId != ownerUserId)
      ({ · with role := .maintainer }) members)

/-- The transaction of `update_project`. -/
def updateProject (u : ProjectUpdate) (now : Int) : Db :=
  let updated : Db :=
    { db with
      projects := updateWhere (·.id == u.projectId) (setProject u now) db.projects
      members := if u.previousOwnerUserId ≠ some u.ownerUserId then
          transferOwnership u.projectId u.ownerUserId db.members
        else db.members }
  updated.record
    [{ projectId := u.projectId, actorUserId := u.actorUserId, targetId := u.projectKey,
       kind := .projectUpdated u.status u.ownerUsername }] now

/-- The transaction of `add_project_members`. -/
def addMembers (projectId actorUserId : Int) (selected : List User) (role : MemberRole)
    (now : Int) : Db :=
  selected.foldl (fun db user => (db.upsertMember projectId user.id role now).record
    [{ projectId, actorUserId, targetId := user.username, kind := .memberAdded role }] now) db

/-- The transaction of `remove_project_member`. -/
def removeMember (projectId userId actorUserId : Int) (username : String) (now : Int) : Db :=
  record { db with
      members := db.members.filter fun m => !(m.projectId == projectId && m.userId == userId) }
    [{ projectId, actorUserId, targetId := username, kind := .memberRemoved }] now

/-- The transaction of `update_project_member_role`. -/
def setMemberRole (projectId userId actorUserId : Int) (username : String)
    (oldRole role : MemberRole) (now : Int) : Db :=
  record { db with
      members := updateWhere (fun m => m.projectId == projectId && m.userId == userId)
        ({ · with role := role }) db.members }
    [{ projectId, actorUserId, targetId := username, kind := .memberRoleUpdated oldRole role }]
    now

/-- `COALESCE(MAX(CAST(SUBSTR(item_key, ..) AS INTEGER)), 0) + 1`. -/
def nextNumber (i : ItemInsert) : Nat :=
  let items := db.workItems.filter fun wi => wi.projectId == i.projectId && wi.itemType == i.itemType
    && likePattern (i.head ++ "%").toList wi.itemKey.toList
  (items.map fun wi => digitsValue (leadingDigits (wi.itemKey.toList.drop (byteLen i.head)))).foldl
    max 0 + 1

/-- The transaction of `create_work_item`; a key that is taken breaks its uniqueness. -/
def insertItem (i : ItemInsert) (now : Int) : Db × Except AppError String :=
  let itemKey := i.head ++ toString (db.nextNumber i)
  if (db.workItemKeyed itemKey).isSome then (db, .error .storage)
  else
    let inserted : Db :=
      { db with
        workItems := db.workItems ++ [
          { id := db.nextWorkItem, projectId := i.projectId, itemKey, itemType := i.itemType,
            title := i.title, description := i.description, status := .opened,
            priority := i.priority, assigneeUserId := some i.assigneeUserId,
            reporterUserId := some i.actorUserId, parentWorkItemId := i.parentWorkItemId,
            cycleId := i.cycleId, dueDate := i.dueDate, completedAt := none, deletedAt := none,
            deletedByUserId := none }]
        nextWorkItem := db.nextWorkItem + 1 }
    (inserted.record
      ({ projectId := i.projectId, actorUserId := i.actorUserId, targetId := itemKey,
         kind := .itemCreated } ::
        (if i.cycleId.isSome then
          [{ projectId := i.projectId, actorUserId := i.actorUserId, targetId := itemKey,
             kind := .cycleChanged none i.cycleId }]
        else [])) now, .ok itemKey)

/-- The transactions that change work items. -/
def writeItems (writes : List ItemWrite) (now : Int) : Db :=
  writes.foldl (fun db w => record
    { db with workItems := updateWhere (·.id == w.read.id) (w.change.apply now) db.workItems }
    w.activities now) db

/-- The transaction of `archive_work_item`. -/
def archiveItem (read : WorkItem) (actorUserId now : Int) : Db :=
  record
    { db with
      workItems := updateWhere (·.id == read.id)
        ({ · with deletedAt := some now, deletedByUserId := some actorUserId }) db.workItems }
    [{ projectId := read.projectId, actorUserId, targetId := read.itemKey, kind := .itemArchived }]
    now

/-- The update at the end of the transaction of `restore_work_item`. -/
def undelete (read : WorkItem) (actorUserId now : Int) : Db :=
  record
    { db with
      workItems := updateWhere (·.id == read.id)
        ({ · with deletedAt := none, deletedByUserId := none }) db.workItems }
    [{ projectId := read.projectId, actorUserId, targetId := read.itemKey, kind := .itemRestored }]
    now

/-- The transaction of `restore_work_item`, with the row it reads. -/
def restoreItem (itemKey : String) (actorUserId now : Int) : Db × Except AppError Unit :=
  match db.anyItem itemKey with
  | none => (db, .error (.notFound "工作项不存在"))
  | some row =>
    match ensureProjectAcceptsWrites row.project.status with
    | .error e => (db, .error e)
    | .ok () =>
      if row.item.deletedAt.isNone then (db, .ok ())
      else if db.unavailable.contains row.item.id then
        (db, .error (.conflict "工作项关联的附件已进入删除流程，不能恢复该工作项"))
      else db.byUser actorUserId (db.undelete row.item actorUserId now, .ok ())

end Db

inductive Statement where
  | projectKeyed (projectKey : String)
  | listUsers
  | userNamed (username : String)
  | userById (userId : Int)
  | activeMember (projectId : Int) (username : String)
  | memberNamed (projectId : Int) (username : String)
  | countActiveAssigned (projectId userId : Int)
  | anyItem (itemKey : String)
  | item (itemKey : String)
  | itemsIn (itemKeys : List String)
  | cycle (cycleId projectId : Int)
  | requirement (projectId : Int) (itemKey : String)
  | comment (workItemId commentId : Int)
  | insertProject (insert : ProjectInsert)
  | updateProject (update : ProjectUpdate)
  | addMembers (projectId actorUserId : Int) (selected : List User) (role : MemberRole)
  | removeMember (projectId userId actorUserId : Int) (username : String)
  | setMemberRole (projectId userId actorUserId : Int) (username : String)
      (oldRole role : MemberRole)
  | insertItem (insert : ItemInsert)
  | writeItems (actorUserId : Int) (writes : List ItemWrite)
  | archiveItem (read : WorkItem) (actorUserId : Int)
  | restoreItem (itemKey : String) (actorUserId : Int)

abbrev Statement.Answer : Statement → Type
  | projectKeyed _ => Option Project
  | listUsers => List User
  | userNamed _ => Option User
  | userById _ => Option User
  | activeMember .. => Option User
  | memberNamed .. => Option (User × Member)
  | countActiveAssigned .. => Nat
  | anyItem _ => Option ItemRow
  | item _ => Option ItemRow
  | itemsIn _ => List ItemRow
  | cycle .. => Option Cycle
  | requirement .. => Option WorkItem
  | comment .. => Option CommentRef
  | insertProject _ => Option Int
  | updateProject _ => Unit
  | addMembers .. => Unit
  | removeMember .. => Unit
  | setMemberRole .. => Unit
  | insertItem _ => String
  | writeItems .. => Unit
  | archiveItem .. => Unit
  | restoreItem .. => Unit

/-- The time of a statement, and the error it fails with if it fails. -/
structure Moment where
  now : Int
  fault : Option AppError

def execute (now : Int) (db : Db) : (s : Statement) → Db × Except AppError s.Answer
  | .projectKeyed projectKey => (db, .ok (db.projectKeyed projectKey))
  | .listUsers => (db, .ok db.users)
  | .userNamed username => (db, .ok (db.userNamed username))
  | .userById userId => (db, .ok (db.user userId))
  | .activeMember projectId username => (db, .ok (db.activeMember projectId username))
  | .memberNamed projectId username => (db, .ok (db.memberNamed projectId username))
  | .countActiveAssigned projectId userId => (db, .ok (db.countActiveAssigned projectId userId))
  | .anyItem itemKey => (db, .ok (db.anyItem itemKey))
  | .item itemKey => (db, .ok (db.item itemKey))
  | .itemsIn itemKeys => (db, .ok (db.itemsIn itemKeys))
  | .cycle cycleId projectId => (db, .ok (db.cycle cycleId projectId))
  | .requirement projectId itemKey => (db, .ok (db.requirement projectId itemKey))
  | .comment workItemId commentId => (db, .ok (db.comment workItemId commentId))
  | .insertProject p => db.insertProject p now
  | .updateProject u => db.byUser u.actorUserId (db.updateProject u now, .ok ())
  | .addMembers projectId actorUserId selected role =>
    if (db.project projectId).isSome then
      db.byUser actorUserId (db.addMembers projectId actorUserId selected role now, .ok ())
    else (db, .error .storage)
  | .removeMember projectId userId actorUserId username =>
    db.byUser actorUserId (db.removeMember projectId userId actorUserId username now, .ok ())
  | .setMemberRole projectId userId actorUserId username oldRole role =>
    db.byUser actorUserId
      (db.setMemberRole projectId userId actorUserId username oldRole role now, .ok ())
  | .insertItem i => db.byUser i.actorUserId (db.insertItem i now)
  | .writeItems actorUserId writes => db.byUser actorUserId (db.writeItems writes now, .ok ())
  | .archiveItem read actorUserId =>
    db.byUser actorUserId (db.archiveItem read actorUserId now, .ok ())
  | .restoreItem itemKey actorUserId => db.restoreItem itemKey actorUserId now

def perform (m : Moment) (s : Statement) (db : Db) : Db × Except AppError s.Answer :=
  match m.fault with
  | some e => (db, .error e)
  | none => execute m.now db s

/-! ## What a statement leaves behind -/

/-- The tables behind a statement that goes through. -/
def Statement.written (now : Int) (db : Db) : Statement → Db
  | .insertProject p => (db.insertProject p now).1
  | .updateProject u => db.updateProject u now
  | .addMembers projectId actorUserId selected role =>
    if (db.project projectId).isSome then db.addMembers projectId actorUserId selected role now
    else db
  | .removeMember projectId userId actorUserId username =>
    db.removeMember projectId userId actorUserId username now
  | .setMemberRole projectId userId actorUserId username oldRole role =>
    db.setMemberRole projectId userId actorUserId username oldRole role now
  | .insertItem i => (db.insertItem i now).1
  | .writeItems _ writes => db.writeItems writes now
  | .archiveItem read actorUserId => db.archiveItem read actorUserId now
  | .restoreItem itemKey actorUserId => (db.restoreItem itemKey actorUserId now).1
  | _ => db

theorem byUser_fst {α : Type} (db : Db) (userId : Int) (outcome : Db × Except AppError α) :
    (db.byUser userId outcome).1 = db ∨ (db.byUser userId outcome).1 = outcome.1 := by
  unfold Db.byUser
  split
  · exact .inr rfl
  · exact .inl rfl

/-- A statement changes nothing, or it writes. -/
theorem perform_written (m : Moment) (s : Statement) (db : Db) :
    (perform m s db).1 = db ∨ (perform m s db).1 = s.written m.now db := by
  unfold perform
  split
  · exact .inl rfl
  cases s with
  | updateProject u => exact byUser_fst db _ _
  | addMembers projectId actorUserId selected role =>
    simp only [execute, Statement.written]
    split
    · exact byUser_fst db _ _
    · exact .inl rfl
  | removeMember projectId userId actorUserId username => exact byUser_fst db _ _
  | setMemberRole projectId userId actorUserId username oldRole role => exact byUser_fst db _ _
  | insertItem i => exact byUser_fst db _ _
  | writeItems actorUserId writes => exact byUser_fst db _ _
  | archiveItem read actorUserId => exact byUser_fst db _ _
  | insertProject p => exact .inr rfl
  | restoreItem itemKey actorUserId => exact .inr rfl
  | _ => exact .inl rfl

section Frames

variable (db : Db)

@[simp] theorem record_workItems (l : List Activity) (now : Int) :
    (db.record l now).workItems = db.workItems := rfl

@[simp] theorem record_members (l : List Activity) (now : Int) :
    (db.record l now).members = db.members := rfl

@[simp] theorem record_projects (l : List Activity) (now : Int) :
    (db.record l now).projects = db.projects := rfl

theorem upsertMember_workItems (projectId userId : Int) (role : MemberRole) (now : Int) :
    (db.upsertMember projectId userId role now).workItems = db.workItems := by
  unfold Db.upsertMember
  split
  · rfl
  · rfl

theorem addMembers_workItems (projectId actorUserId : Int) (selected : List User)
    (role : MemberRole) (now : Int) :
    (db.addMembers projectId actorUserId selected role now).workItems = db.workItems := by
  unfold Db.addMembers
  induction selected generalizing db with
  | nil => rfl
  | cons user rest ih =>
    rw [List.foldl_cons, ih, record_workItems, upsertMember_workItems]

theorem insertProject_workItems (p : ProjectInsert) (now : Int) :
    (db.insertProject p now).1.workItems = db.workItems := by
  unfold Db.insertProject
  split
  · rfl
  dsimp only
  rcases byUser_fst db p.actorUserId _ with h | h
  · rw [h]
  · rw [h, record_workItems, upsertMember_workItems]

end Frames

/-! ## Rows of work items -/

section Items

variable {db : Db} {now : Int}

@[simp] theorem apply_id (change : ItemChange) (wi : WorkItem) : (change.apply now wi).id = wi.id := by
  cases change <;> rfl

@[simp] theorem apply_itemType (change : ItemChange) (wi : WorkItem) :
    (change.apply now wi).itemType = wi.itemType := by
  cases change <;> rfl

/-- What the writes of a transaction make of a row, one after the other. -/
def rewritten (now : Int) (writes : List ItemWrite) (wi : WorkItem) : WorkItem :=
  writes.foldl (fun r w => if r.id == w.read.id then w.change.apply now r else r) wi

theorem rewritten_cons (w : ItemWrite) (writes : List ItemWrite) (wi : WorkItem) :
    rewritten now (w :: writes) wi =
      rewritten now writes (if wi.id == w.read.id then w.change.apply now wi else wi) := rfl

/-- A property that no write ends holds behind all of them. -/
theorem rewritten_induction {P : WorkItem → Prop} {writes : List ItemWrite} {wi : WorkItem}
    (h0 : P wi)
    (hstep : ∀ w ∈ writes, ∀ r, P r → r.id = w.read.id → P (w.change.apply now r)) :
    P (rewritten now writes wi) := by
  induction writes generalizing wi with
  | nil => exact h0
  | cons w writes ih =>
    rw [rewritten_cons]
    apply ih
    · split
      · rename_i hid
        exact hstep w List.mem_cons_self wi h0 (beq_iff_eq.mp hid)
      · exact h0
    · exact fun v hv => hstep v (List.mem_cons_of_mem w hv)

@[simp] theorem rewritten_id (writes : List ItemWrite) (wi : WorkItem) :
    (rewritten now writes wi).id = wi.id :=
  rewritten_induction (P := fun r => r.id = wi.id) rfl fun w _ r hr _ => by rw [apply_id, hr]

theorem writeItems_workItems (writes : List ItemWrite) :
    (db.writeItems writes now).workItems = db.workItems.map (rewritten now writes) := by
  unfold Db.writeItems
  induction writes generalizing db with
  | nil => exact (List.map_id _).symm
  | cons w writes ih =>
    rw [List.foldl_cons, ih, record_workItems, updateWhere, List.map_map]
    rfl

theorem writeItems_members (writes : List ItemWrite) :
    (db.writeItems writes now).members = db.members := by
  unfold Db.writeItems
  induction writes generalizing db with
  | nil => rfl
  | cons w writes ih => rw [List.foldl_cons, ih, record_members]

/-- The row with a key, behind an update that keeps the keys. -/
theorem find?_map_id {f : WorkItem → WorkItem} (hf : ∀ r, (f r).id = r.id) (id : Int)
    (t : List WorkItem) :
    (t.map f).find? (·.id == id) = (t.find? (·.id == id)).map f := by
  rw [List.find?_map]
  congr 2
  funext r
  simp only [Function.comp_apply, hf]

theorem writeItems_workItem (writes : List ItemWrite) (id : Int) :
    (db.writeItems writes now).workItem id = (db.workItem id).map (rewritten now writes) := by
  unfold Db.workItem
  rw [writeItems_workItems]
  exact find?_map_id (fun r => rewritten_id writes r) id db.workItems

theorem workItem_id {id : Int} {r : WorkItem} (h : db.workItem id = some r) : r.id = id := by
  unfold Db.workItem at h
  have hid := List.find?_some h
  exact beq_iff_eq.mp hid

theorem workItem_mem {id : Int} {r : WorkItem} (h : db.workItem id = some r) : r ∈ db.workItems :=
  List.mem_of_find?_eq_some h

theorem workItem_of_mem (h : (db.workItems.map (·.id)).Nodup) {r : WorkItem}
    (hr : r ∈ db.workItems) : db.workItem r.id = some r := find?_of_mem h hr

theorem itemRow_item {wi : WorkItem} {row : ItemRow} (h : db.itemRow wi = some row) :
    row.item = wi := by
  obtain ⟨_, _, rfl⟩ := Option.map_eq_some_iff.mp h
  rfl

/-- Rows without a project fall out. -/
theorem itemRows_sublist (items : List WorkItem) :
    ((items.filterMap db.itemRow).map (·.item.id)).Sublist (items.map (·.id)) := by
  induction items with
  | nil => exact .slnil
  | cons wi items ih =>
    rw [List.filterMap_cons]
    cases hrow : db.itemRow wi with
    | none => exact ih.cons _
    | some row =>
      dsimp only
      rw [List.map_cons, List.map_cons, itemRow_item hrow]
      exact ih.cons_cons _

theorem mem_of_itemsIn {itemKeys : List String} {row : ItemRow}
    (h : row ∈ db.itemsIn itemKeys) : row.item ∈ db.workItems := by
  obtain ⟨wi, hwi, hrow⟩ := List.mem_filterMap.mp h
  rw [itemRow_item hrow]
  exact (List.mem_filter.mp hwi).1

theorem anyItem_mem {itemKey : String} {row : ItemRow} (h : db.anyItem itemKey = some row) :
    row.item ∈ db.workItems := by
  obtain ⟨wi, hwi, hrow⟩ := Option.bind_eq_some_iff.mp h
  rw [itemRow_item hrow]
  exact List.mem_of_find?_eq_some hwi

theorem archiveItem_workItem (read : WorkItem) (actorUserId id : Int) :
    (db.archiveItem read actorUserId now).workItem id = (db.workItem id).map fun r =>
      if r.id == read.id then
        { r with deletedAt := some now, deletedByUserId := some actorUserId }
      else r := by
  unfold Db.workItem Db.archiveItem
  apply find?_updateWhere
  exact fun _ => rfl

theorem undelete_workItem (read : WorkItem) (actorUserId id : Int) :
    (db.undelete read actorUserId now).workItem id = (db.workItem id).map fun r =>
      if r.id == read.id then { r with deletedAt := none, deletedByUserId := none } else r := by
  unfold Db.workItem Db.undelete
  apply find?_updateWhere
  exact fun _ => rfl

/-- A restored work item was deleted and is so no longer. -/
theorem restoreItem_fst (itemKey : String) (actorUserId : Int) :
    (db.restoreItem itemKey actorUserId now).1 = db ∨
      ∃ row, db.anyItem itemKey = some row ∧
        (row.item.deletedAt.isSome = true ∧ ensureProjectAcceptsWrites row.project.status = .ok () ∧
          db.unavailable.contains row.item.id = false) ∧
        (db.restoreItem itemKey actorUserId now).1 = db.undelete row.item actorUserId now := by
  unfold Db.restoreItem
  cases hrow : db.anyItem itemKey with
  | none => exact .inl rfl
  | some row =>
    dsimp only
    split
    · exact .inl rfl
    rename_i haccepts
    split
    · exact .inl rfl
    rename_i hdeleted
    split
    · exact .inl rfl
    rename_i havailable
    rcases byUser_fst db actorUserId (db.undelete row.item actorUserId now, Except.ok ()) with h | h
    · exact .inl h
    · refine .inr ⟨row, rfl, ⟨?_, haccepts, Bool.not_eq_true _ ▸ havailable⟩, h⟩
      rw [Option.isNone_iff_eq_none] at hdeleted
      exact Option.isSome_iff_ne_none.mpr hdeleted

/-- The row of a new work item. -/
def ItemInsert.row (i : ItemInsert) (id : Int) (itemKey : String) : WorkItem where
  id := id
  projectId := i.projectId
  itemKey := itemKey
  itemType := i.itemType
  title := i.title
  description := i.description
  status := .opened
  priority := i.priority
  assigneeUserId := some i.assigneeUserId
  reporterUserId := some i.actorUserId
  parentWorkItemId := i.parentWorkItemId
  cycleId := i.cycleId
  dueDate := i.dueDate
  completedAt := none
  deletedAt := none
  deletedByUserId := none

theorem insertItem_fst (i : ItemInsert) :
    (db.insertItem i now).1 = db ∨ ∃ itemKey,
      (db.insertItem i now).1.workItems = db.workItems ++ [i.row db.nextWorkItem itemKey] ∧
      (db.insertItem i now).1.nextWorkItem = db.nextWorkItem + 1 ∧
      (db.insertItem i now).1.members = db.members := by
  unfold Db.insertItem
  dsimp only
  split
  · exact .inl rfl
  · exact .inr ⟨_, rfl, rfl, rfl⟩

end Items

end Projects
end Yuance
