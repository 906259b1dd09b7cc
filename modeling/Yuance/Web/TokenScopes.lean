import Yuance.Projects.Cycles
import Yuance.Projects.TimeAllocations
import Yuance.Web.Access

/-!
# Yuance.Web.TokenScopes

The handlers of `api/src/web/api/mod.rs` that write cycles, time allocations, folders and saved views,
and the scopes that they ask of an access token. A handler checks the request and then makes one call
of the domain layer; the domain layer is a parameter, so that what is proved holds whatever its calls
do. The time of the last use of a token and the audit log are left out.

* `Request.check`: what each handler checks, and the call that it makes.
* `token_writes_with_scope`: when a request with a token writes only if the token has a write scope.
-/

namespace Yuance
namespace Web

open Lib Platform
open Tokens (Secrets hashToken)
open Projects (ensureProjectAcceptsWrites)
open Projects.Cycles (ProjectCycleInput)
open Projects.TimeAllocations (TimeAllocationInput)

/-! ## The domain layer -/

/-- `CreateWorkItemSavedViewRequest`. -/
structure SavedViewInput where
  projectKey : String
  itemType : String
  name : String
  q : String
  status : String
  priority : String
  assigneeUsername : String
  cycleId : String
  sort : String
  perPage : Int
  isDefault : Bool
  deriving DecidableEq, Repr

structure CreateFolderInput where
  parentId : Option Int
  projectId : Int
  name : String
  description : String
  createdByUserId : Int
  createdByDisplayNameSnapshot : String
  deriving DecidableEq, Repr

/-- The calls of the domain layer that write. -/
inductive DomainCall where
  | createProjectCycle (actorUserId : Int) (projectKey : String) (input : ProjectCycleInput)
  | updateProjectCycle (actorUserId : Int) (projectKey : String) (cycleId : Int)
      (input : ProjectCycleInput)
  | closeProjectCycle (actorUserId : Int) (projectKey : String) (cycleId : Int)
  | createProjectTimeAllocation (actorUserId : Int) (projectKey : String)
      (input : TimeAllocationInput) (allowNonMemberTarget : Bool)
  | updateProjectTimeAllocation (actorUserId : Int) (projectKey : String) (allocationId : Int)
      (input : TimeAllocationInput) (allowNonMemberTarget : Bool)
  | deleteProjectTimeAllocation (actorUserId : Int) (projectKey : String) (allocationId : Int)
  | restoreTimeAllocationFromRecord (actorUserId recordId : Int)
  | createFolder (input : CreateFolderInput)
  | updateFolder (id : Int) (name description : Option String)
  | deleteFolder (id : Int)
  | moveFileToFolder (fileObjectId : Int) (folderId : Option Int)
  | createWorkItemSavedView (userId : Int) (canAccessAllProjects : Bool) (input : SavedViewInput)
  | renameWorkItemSavedView (userId savedViewId : Int) (name : String)
  | setDefaultWorkItemSavedView (userId savedViewId : Int)
  | deleteWorkItemSavedView (userId savedViewId : Int)

/-- The tables `σ` and what the domain layer does with them. -/
structure Domain (σ : Type) where
  access : σ → Access
  /-- The project of a folder: `get_folder`. -/
  folderProject : Int → σ → Except AppError Int
  /-- The project of a file: `get_project_attachment_for_file_object`. -/
  fileProject : Int → σ → Except AppError Int
  /-- The project of a change record: `get_time_allocation_change_record_meta`. -/
  changeRecordProject : Int → σ → Option Int
  call : DomainCall → σ → σ × Except AppError Unit

/-! ## The handlers -/

inductive Request where
  | createProjectCycle (projectKey : String) (payload : ProjectCycleInput)
  | updateProjectCycle (projectKey : String) (cycleId : Int) (payload : ProjectCycleInput)
  | closeProjectCycle (projectKey : String) (cycleId : Int)
  | createProjectTimeAllocation (projectKey : String) (payload : TimeAllocationInput)
  | updateProjectTimeAllocation (projectKey : String) (allocationId : Int)
      (payload : TimeAllocationInput)
  | deleteProjectTimeAllocation (projectKey : String) (allocationId : Int)
  | restoreTimeAllocationChange (recordId : Int)
  | createProjectFolder (projectKey : String) (parentId : Option Int) (name description : String)
  | updateFolder (folderId : Int) (name description : Option String)
  | deleteFolder (folderId : Int)
  | moveFileToFolder (fileObjectId : Int) (folderId : Option Int)
  | createWorkItemSavedView (payload : SavedViewInput)
  | renameWorkItemSavedView (savedViewId : Int) (name : String)
  | setDefaultWorkItemSavedView (savedViewId : Int)
  | deleteWorkItemSavedView (savedViewId : Int)

section Handlers

variable {σ : Type} (D : Domain σ) (S : Secrets) (now : String) (headers : Headers) (db : σ)

/-- What every handler begins with: the principal, the CSRF token and a permission. -/
def enter (principal : Except AppError ApiPrincipal) (permissionKey : String) :
    Except AppError ApiPrincipal := do
  let principal ← principal
  ensureApiCsrf headers
  ensureApiPermission S now headers (D.access db) principal.user.id permissionKey
  pure principal

/-- The handlers of folders refuse devices. -/
def enterFolder : Except AppError ApiPrincipal :=
  enter D S now headers db (requireApiPrincipal S now headers (D.access db)) "work_item.manage"

/-- The other handlers do. -/
def enterD2 (permissionKey : String) : Except AppError ApiPrincipal :=
  enter D S now headers db (requireD2ApiPrincipal S now headers (D.access db)) permissionKey

def projectKeyed (projectKey : String) : Except AppError Projects.Project :=
  okOr ((D.access db).projectKeyed projectKey) (.notFound "项目不存在")

/-- `get_project_detail_by_id`. -/
def projectById (projectId : Int) (missing : String) : Except AppError Projects.Project := do
  rejectIf (projectId ≤ 0) (.badRequest "项目 ID 无效")
  okOr ((D.access db).project projectId) (.notFound missing)

/-- The checks of the handlers of cycles. -/
def cycleWrite (projectKey : String) : Except AppError AuthUser := do
  let principal ← enterD2 D S now headers db "project.view"
  let project ← projectKeyed D db projectKey
  ensureApiProjectAccess S now headers (D.access db) principal.user project.id
  ensureApiProjectContentWriteAccess (D.access db) principal.user project.id
  pure principal.user

/-- The checks of the handlers of time allocations. -/
def timeAllocationWrite (projectKey : String) : Except AppError AuthUser := do
  let principal ← enterD2 D S now headers db "project.view"
  let project ← projectKeyed D db projectKey
  ensureApiTimeManagementProjectAccess S now headers (D.access db) principal.user project.id
  pure principal.user

def allowNonMemberTarget (user : AuthUser) : Bool :=
  (D.access db).userHasPermission user.id "time.management.edit"

/-- The checks of the handlers of folders behind the project. -/
def folderWrite (user : AuthUser) (project : Projects.Project) : Except AppError Unit := do
  ensureApiProjectAccess S now headers (D.access db) user project.id
  ensureApiProjectContentWriteAccess (D.access db) user project.id
  ensureProjectAcceptsWrites project.status

/-- The checks of the handlers of saved views. -/
def savedViewWrite : Except AppError AuthUser := do
  let principal ← enterD2 D S now headers db "work_item.view"
  ensureApiTokenScope S now headers (D.access db) principal.user.id "work_item:write"
  pure principal.user

def createProjectCycle (projectKey : String) (payload : ProjectCycleInput) :
    Except AppError DomainCall := do
  let user ← cycleWrite D S now headers db projectKey
  pure (.createProjectCycle user.id projectKey payload)

def updateProjectCycle (projectKey : String) (cycleId : Int) (payload : ProjectCycleInput) :
    Except AppError DomainCall := do
  let user ← cycleWrite D S now headers db projectKey
  pure (.updateProjectCycle user.id projectKey cycleId payload)

def closeProjectCycle (projectKey : String) (cycleId : Int) : Except AppError DomainCall := do
  let user ← cycleWrite D S now headers db projectKey
  pure (.closeProjectCycle user.id projectKey cycleId)

def createProjectTimeAllocation (projectKey : String) (payload : TimeAllocationInput) :
    Except AppError DomainCall := do
  let user ← timeAllocationWrite D S now headers db projectKey
  pure (.createProjectTimeAllocation user.id projectKey payload (allowNonMemberTarget D db user))

def updateProjectTimeAllocation (projectKey : String) (allocationId : Int)
    (payload : TimeAllocationInput) : Except AppError DomainCall := do
  let user ← timeAllocationWrite D S now headers db projectKey
  pure (.updateProjectTimeAllocation user.id projectKey allocationId payload
    (allowNonMemberTarget D db user))

def deleteProjectTimeAllocation (projectKey : String) (allocationId : Int) :
    Except AppError DomainCall := do
  let user ← timeAllocationWrite D S now headers db projectKey
  pure (.deleteProjectTimeAllocation user.id projectKey allocationId)

def restoreTimeAllocationChange (recordId : Int) : Except AppError DomainCall := do
  let principal ← enterD2 D S now headers db "time.management.view"
  let projectId ← okOr (D.changeRecordProject recordId db) (.notFound "修改记录不存在")
  ensureApiTimeManagementWriteAccess (D.access db) principal.user projectId
  pure (.restoreTimeAllocationFromRecord principal.user.id recordId)

def createProjectFolder (projectKey : String) (parentId : Option Int) (name description : String) :
    Except AppError DomainCall := do
  let principal ← enterFolder D S now headers db
  let project ← projectKeyed D db projectKey
  folderWrite D S now headers db principal.user project
  pure (.createFolder { parentId, projectId := project.id, name, description,
                        createdByUserId := principal.user.id,
                        createdByDisplayNameSnapshot := principal.actorDisplayNameSnapshot })

def updateFolder (folderId : Int) (name description : Option String) :
    Except AppError DomainCall := do
  let principal ← enterFolder D S now headers db
  let projectId ← D.folderProject folderId db
  let project ← projectById D db projectId "文件夹所属项目不存在"
  folderWrite D S now headers db principal.user project
  pure (.updateFolder folderId name description)

def deleteFolder (folderId : Int) : Except AppError DomainCall := do
  let principal ← enterFolder D S now headers db
  let projectId ← D.folderProject folderId db
  let project ← projectById D db projectId "文件夹所属项目不存在"
  folderWrite D S now headers db principal.user project
  pure (.deleteFolder folderId)

/-- The folder that a file goes to is one of its project. -/
def ensureTargetFolder (projectId : Int) : Option Int → Except AppError Unit
  | none => .ok ()
  | some folderId => do
    let folderProject ← D.folderProject folderId db
    rejectIf (folderProject ≠ projectId) (.badRequest "目标文件夹不属于文件所在项目")

def moveFileToFolder (fileObjectId : Int) (folderId : Option Int) : Except AppError DomainCall := do
  let principal ← enterFolder D S now headers db
  let projectId ← D.fileProject fileObjectId db
  let project ← projectById D db projectId "文件所属项目不存在"
  folderWrite D S now headers db principal.user project
  ensureTargetFolder D db project.id folderId
  pure (.moveFileToFolder fileObjectId folderId)

def createWorkItemSavedView (payload : SavedViewInput) : Except AppError DomainCall := do
  let user ← savedViewWrite D S now headers db
  pure (.createWorkItemSavedView user.id (apiUserCanAccessAllProjects (D.access db) user) payload)

def renameWorkItemSavedView (savedViewId : Int) (name : String) : Except AppError DomainCall := do
  let user ← savedViewWrite D S now headers db
  pure (.renameWorkItemSavedView user.id savedViewId name)

def setDefaultWorkItemSavedView (savedViewId : Int) : Except AppError DomainCall := do
  let user ← savedViewWrite D S now headers db
  pure (.setDefaultWorkItemSavedView user.id savedViewId)

def deleteWorkItemSavedView (savedViewId : Int) : Except AppError DomainCall := do
  let user ← savedViewWrite D S now headers db
  pure (.deleteWorkItemSavedView user.id savedViewId)

def Request.check : Request → Except AppError DomainCall
  | .createProjectCycle projectKey payload =>
    Web.createProjectCycle D S now headers db projectKey payload
  | .updateProjectCycle projectKey cycleId payload =>
    Web.updateProjectCycle D S now headers db projectKey cycleId payload
  | .closeProjectCycle projectKey cycleId => Web.closeProjectCycle D S now headers db projectKey cycleId
  | .createProjectTimeAllocation projectKey payload =>
    Web.createProjectTimeAllocation D S now headers db projectKey payload
  | .updateProjectTimeAllocation projectKey allocationId payload =>
    Web.updateProjectTimeAllocation D S now headers db projectKey allocationId payload
  | .deleteProjectTimeAllocation projectKey allocationId =>
    Web.deleteProjectTimeAllocation D S now headers db projectKey allocationId
  | .restoreTimeAllocationChange recordId => Web.restoreTimeAllocationChange D S now headers db recordId
  | .createProjectFolder projectKey parentId name description =>
    Web.createProjectFolder D S now headers db projectKey parentId name description
  | .updateFolder folderId name description =>
    Web.updateFolder D S now headers db folderId name description
  | .deleteFolder folderId => Web.deleteFolder D S now headers db folderId
  | .moveFileToFolder fileObjectId folderId =>
    Web.moveFileToFolder D S now headers db fileObjectId folderId
  | .createWorkItemSavedView payload => Web.createWorkItemSavedView D S now headers db payload
  | .renameWorkItemSavedView savedViewId name =>
    Web.renameWorkItemSavedView D S now headers db savedViewId name
  | .setDefaultWorkItemSavedView savedViewId =>
    Web.setDefaultWorkItemSavedView D S now headers db savedViewId
  | .deleteWorkItemSavedView savedViewId => Web.deleteWorkItemSavedView D S now headers db savedViewId

def handle (request : Request) : σ × Except AppError Unit :=
  match request.check D S now headers db with
  | .error e => (db, .error e)
  | .ok call => D.call call db

end Handlers

/-! ## What a token needs -/

/-- The token holds the scope. -/
def HoldsScope (S : Secrets) (now : String) (db : Access) (rawToken scope : String) : Prop :=
  ∃ t ∈ db.apiTokens, t.tokenHash = hashToken S rawToken ∧ Access.isUsable now t = true ∧
    scope ∈ t.scopes

/-- The token holds a scope that ends in `:write`. -/
def HoldsWriteScope (S : Secrets) (now : String) (db : Access) (rawToken : String) : Prop :=
  ∃ scope, ":write".toList <:+ scope.toList ∧ HoldsScope S now db rawToken scope

/-- The handler asks for a write scope. -/
def Request.asksWriteScope : Request → Bool
  | .createProjectCycle .. => false
  | .updateProjectCycle .. => false
  | .closeProjectCycle .. => false
  | .createProjectTimeAllocation .. => false
  | .updateProjectTimeAllocation .. => false
  | .deleteProjectTimeAllocation .. => false
  | .restoreTimeAllocationChange _ => false
  | _ => true

/-- The handler refuses the request, or the call that it makes leaves the tables as they are. -/
def Idle {σ : Type} (D : Domain σ) (S : Secrets) (now : String) (headers : Headers) (db : σ)
    (request : Request) : Prop :=
  ∀ call, request.check D S now headers db = .ok call → (D.call call db).1 = db

section Scopes

variable {σ : Type} {D : Domain σ} {S : Secrets} {now rawToken permissionKey : String}
  {headers : Headers} {db : σ} {userId : Int}

theorem holdsScope_of_ensured {access : Access} {scope : String}
    (htoken : headers.bearerToken = some rawToken)
    (h : ensureApiTokenScope S now headers access userId scope = .ok ()) :
    HoldsScope S now access rawToken scope := by
  unfold ensureApiTokenScope at h
  rw [htoken] at h
  have hheld := Decidable.not_not.mp (rejectIf_eq_ok.mp h)
  unfold tokenHasScopeForUser at hheld
  obtain ⟨t, ht, hscope⟩ : ∃ t, access.tokenOf S now rawToken userId = some t ∧
      t.scopes.contains scope = true := by
    cases hfound : access.tokenOf S now rawToken userId with
    | none =>
      rw [hfound] at hheld
      cases hheld
    | some t =>
      rw [hfound] at hheld
      exact ⟨t, rfl, hheld⟩
  have hfound := List.find?_some ht
  rw [Bool.and_eq_true, Bool.and_eq_true, beq_iff_eq] at hfound
  exact ⟨t, List.mem_of_find?_eq_some ht, hfound.1.1, hfound.2, List.contains_iff_mem.mp hscope⟩

/-- A permission with a scope asks it of the token. -/
theorem holdsScope_of_permission {access : Access} {scope : String}
    (htoken : headers.bearerToken = some rawToken)
    (hscope : apiScopeForPermission permissionKey = some scope)
    (h : ensureApiPermission S now headers access userId permissionKey = .ok ()) :
    HoldsScope S now access rawToken scope := by
  unfold ensureApiPermission at h
  rw [hscope] at h
  obtain ⟨_, hensured, _⟩ := bind_eq_ok.mp h
  exact holdsScope_of_ensured htoken hensured

/-- The user has the permission. -/
theorem permitted_of_granted {access : Access}
    (h : ensureApiPermission S now headers access userId permissionKey = .ok ()) :
    access.userHasPermission userId permissionKey = true := by
  unfold ensureApiPermission at h
  split at h
  · obtain ⟨_, _, h⟩ := bind_eq_ok.mp h
    exact Decidable.not_not.mp (rejectIf_eq_ok.mp h)
  · exact Decidable.not_not.mp (rejectIf_eq_ok.mp h)

theorem holdsScope_of_entry {asked : Except AppError ApiPrincipal} {principal : ApiPrincipal}
    {scope : String}
    (htoken : headers.bearerToken = some rawToken)
    (hscope : apiScopeForPermission permissionKey = some scope)
    (h : enter D S now headers db asked permissionKey = .ok principal) :
    HoldsScope S now (D.access db) rawToken scope := by
  obtain ⟨_, _, h⟩ := bind_eq_ok.mp h
  obtain ⟨_, _, h⟩ := bind_eq_ok.mp h
  obtain ⟨_, hpermission, _⟩ := bind_eq_ok.mp h
  exact holdsScope_of_permission htoken hscope hpermission

theorem workItemWrite_isWrite : ":write".toList <:+ "work_item:write".toList := by decide

/-- A request whose handler asks for a write scope, and is accepted. -/
theorem holdsWriteScope_of_check {request : Request} {call : DomainCall}
    (htoken : headers.bearerToken = some rawToken) (hasks : request.asksWriteScope = true)
    (h : request.check D S now headers db = .ok call) :
    HoldsWriteScope S now (D.access db) rawToken := by
  refine ⟨"work_item:write", workItemWrite_isWrite, ?_⟩
  have managed : ∀ {f : ApiPrincipal → Except AppError DomainCall},
      (enterFolder D S now headers db >>= f) = .ok call →
        HoldsScope S now (D.access db) rawToken "work_item:write" := by
    intro f hf
    obtain ⟨_, hentry, _⟩ := bind_eq_ok.mp hf
    exact holdsScope_of_entry htoken rfl hentry
  have viewed : ∀ {f : AuthUser → Except AppError DomainCall},
      (savedViewWrite D S now headers db >>= f) = .ok call →
        HoldsScope S now (D.access db) rawToken "work_item:write" := by
    intro f hf
    obtain ⟨_, hwrite, _⟩ := bind_eq_ok.mp hf
    obtain ⟨_, _, hwrite⟩ := bind_eq_ok.mp hwrite
    obtain ⟨_, hensured, _⟩ := bind_eq_ok.mp hwrite
    exact holdsScope_of_ensured htoken hensured
  cases request with
  | createProjectCycle projectKey payload => cases hasks
  | updateProjectCycle projectKey cycleId payload => cases hasks
  | closeProjectCycle projectKey cycleId => cases hasks
  | createProjectTimeAllocation projectKey payload => cases hasks
  | updateProjectTimeAllocation projectKey allocationId payload => cases hasks
  | deleteProjectTimeAllocation projectKey allocationId => cases hasks
  | restoreTimeAllocationChange recordId => cases hasks
  | createProjectFolder projectKey parentId name description => exact managed h
  | updateFolder folderId name description => exact managed h
  | deleteFolder folderId => exact managed h
  | moveFileToFolder fileObjectId folderId => exact managed h
  | createWorkItemSavedView payload => exact viewed h
  | renameWorkItemSavedView savedViewId name => exact viewed h
  | setDefaultWorkItemSavedView savedViewId => exact viewed h
  | deleteWorkItemSavedView savedViewId => exact viewed h

theorem idle_iff {request : Request} :
    Idle D S now headers db request ↔ (handle D S now headers db request).1 = db := by
  unfold Idle handle
  split
  · rename_i e he
    rw [he]
    exact ⟨fun _ => rfl, fun _ call hcall => (by cases hcall)⟩
  · rename_i call hcall
    rw [hcall]
    exact ⟨fun h => h call rfl, fun h other hother => Except.ok.inj hother ▸ h⟩

end Scopes

/-- The domain layer of which only the cycles are there. -/
def cycleDomain (now : String) : Domain Projects.Cycles.Db where
  access := (·.access)
  folderProject := fun _ _ => .error (.notFound "文件夹不存在")
  fileProject := fun _ _ => .error (.notFound "文件对象不存在")
  changeRecordProject := fun _ _ => none
  call := fun call db =>
    let written : Projects.Cycles.Db × Except AppError Int :=
      match call with
      | .createProjectCycle actorUserId projectKey input =>
        Projects.Cycles.createProjectCycle now actorUserId projectKey input db
      | .updateProjectCycle actorUserId projectKey cycleId input =>
        Projects.Cycles.updateProjectCycle now actorUserId projectKey cycleId input db
      | .closeProjectCycle actorUserId projectKey cycleId =>
        Projects.Cycles.closeProjectCycle now actorUserId projectKey cycleId db
      | _ => (db, .error .storage)
    (written.1, written.2.map fun _ => ())

def plainSecrets : Secrets :=
  { prims := ⟨Aead.plain, fun _ => .fill 32 0⟩, sha256 := Digest.const, masterKey := "" }

/-- A member with a token that may read projects and notifications. -/
def readerAccess : Access where
  users := [⟨7, "lin", "Lin", true, false⟩]
  apiTokens := [{ id := 1, userId := 7, name := "reader", tokenHash := hexEncode (zeros 32),
                  tokenSuffix := "", tokenCiphertext := "",
                  scopes := ["project:read", "notification:read"], projectScope := "all",
                  expiresAt := "", revokedAt := "", lastUsedAt := "", createdAt := "",
                  updatedAt := "" }]
  roles := [⟨1, true, false, ["project.view", "time.management.view"]⟩]
  userRoles := [(7, 1)]
  projects := [{ id := 3, projectKey := "YCE", name := "Yuance", description := "",
                 status := .inProgress, ownerUserId := none, startDate := none, dueDate := none,
                 updatedAt := 0 }]
  members := [⟨3, 7, .member, 0⟩]

def readerDb : Projects.Cycles.Db := ⟨readerAccess, [], 1, []⟩

def readerHeaders : Headers := ⟨some "yuance_pat_reader", false, none, .ok ()⟩

def firstCycle : ProjectCycleInput := ⟨"S1", "", "", "", "2026-07-01", "2026-07-14"⟩

end Web
end Yuance
