import Yuance.Lib.Scan
import Yuance.Projects.Tables
import Yuance.Tokens.Model

/-!
# Yuance.Web.Access

Who may do what in `api/src/web/api/mod.rs`: the principal of a request, the scopes and the projects
of an access token, the permissions of `api/src/domains/rbac.rs` and the roles in a project. The time
of the last use of a token and the audit log are left out; a browser session or a device credential
enters by the user it stands for.

* `requireD2ApiPrincipal`: the user and, for a token, its name.
* `ensureApiPermission`, `ensureApiTokenScope`: the scope of the token, and the permission of the user.
* `ensureApiProjectAccess`, `ensureApiProjectContentWriteAccess`: the project.
-/

namespace Yuance
namespace Web

open Lib Platform
open Tokens (Secrets ApiTokenRow UserRow hashToken tokenHead eqIgnoreAsciiCase)
open Projects (Project Member MemberRole toAsciiUppercase)

/-! ## Tables -/

/-- A row of `roles`, with the keys of its permissions. -/
structure Role where
  id : Int
  /-- `status = 'active'`. -/
  active : Bool
  /-- `data_scope_type = 'all'`. -/
  allData : Bool
  permissionKeys : List String
  deriving DecidableEq, Repr

structure Access where
  users : List UserRow
  apiTokens : List ApiTokenRow
  roles : List Role
  /-- The users and the ids of their roles. -/
  userRoles : List (Int × Int)
  projects : List Project
  members : List Member
  deriving DecidableEq

structure AuthUser where
  id : Int
  username : String
  displayName : String
  isSuperAdmin : Bool
  deriving DecidableEq, Repr

/-- The name of an access token that is shown for its user, if the request carries one. -/
structure ApiPrincipal where
  user : AuthUser
  tokenActor : Option String
  deriving DecidableEq, Repr

/-- What the headers of a request say. -/
structure Headers where
  /-- `bearer_token`, unless it is the access token of a device. -/
  bearerToken : Option String
  /-- The request carries the access token of a device. -/
  fromDevice : Bool
  /-- The user of the device or of the browser session. -/
  login : Option AuthUser
  /-- `csrf::verify`; the request of a device passes. -/
  csrf : Except AppError Unit

namespace Access

variable (db : Access)

def user (id : Int) : Option UserRow := db.users.find? (·.id == id)

/-- A token that is neither revoked nor expired. -/
def isUsable (now : String) (t : ApiTokenRow) : Bool :=
  t.revokedAt == "" && (t.expiresAt == "" || now < t.expiresAt)

/-- The usable token of the user. -/
def tokenOf (S : Secrets) (now rawToken : String) (userId : Int) : Option ApiTokenRow :=
  db.apiTokens.find? fun t => t.tokenHash == hashToken S rawToken && t.userId == userId
    && isUsable now t

/-- `authenticated_token_from_bearer_token`. -/
def authenticatedToken (S : Secrets) (now rawToken : String) : Option (ApiTokenRow × UserRow) :=
  if hasHead tokenHead rawToken then
    (db.apiTokens.find? fun t => t.tokenHash == hashToken S rawToken && isUsable now t
      && (db.user t.userId).any (·.active)).bind fun t =>
        (db.user t.userId).map fun u => (t, u)
  else none

def isSuperAdmin (userId : Int) : Bool :=
  (db.user userId).any fun u => u.active && u.isSuperAdmin

def userHasPermission (userId : Int) (permissionKey : String) : Bool :=
  db.isSuperAdmin userId || db.userRoles.any fun assigned => assigned.1 == userId
    && db.roles.any fun r => r.id == assigned.2 && r.active && r.permissionKeys.contains permissionKey

def userHasAllDataScope (userId : Int) : Bool :=
  db.isSuperAdmin userId || (db.user userId).any (·.active) && db.userRoles.any fun assigned =>
    assigned.1 == userId && db.roles.any fun r => r.id == assigned.2 && r.active && r.allData

def project (id : Int) : Option Project := db.projects.find? (·.id == id)

def projectKeyed (projectKey : String) : Option Project :=
  db.projects.find? (·.projectKey == projectKey)

def isProjectMember (projectId userId : Int) : Bool :=
  db.members.any fun m => m.projectId == projectId && m.userId == userId

def projectMemberRole (projectId userId : Int) : Option MemberRole :=
  (db.members.find? fun m => m.projectId == projectId && m.userId == userId).map (·.role)

def userCanManageProjectTime (projectId userId : Int) (isSuperAdmin : Bool) : Bool :=
  isSuperAdmin || (db.projectMemberRole projectId userId).any fun role =>
    role == .owner || role == .maintainer

def userCanWriteProjectContent (projectId userId : Int) (isSuperAdmin : Bool) : Bool :=
  isSuperAdmin || (db.projectMemberRole projectId userId).any fun role =>
    role == .owner || role == .maintainer || role == .member

end Access

/-! ## The principal -/

/-- `api_token_actor_display_name`. -/
def apiTokenActorDisplayName (user : UserRow) (tokenName : String) : String :=
  let owner := if trim user.displayName = "" then trim user.username else trim user.displayName
  trim tokenName ++ "（" ++ owner ++ "）"

def authUser (u : UserRow) : AuthUser :=
  { id := u.id, username := u.username, displayName := u.displayName, isSuperAdmin := u.isSuperAdmin }

section Checks

variable (S : Secrets) (now : String) (headers : Headers) (db : Access)

/-- `require_d2_api_principal`: devices are admitted. -/
def requireD2ApiPrincipal : Except AppError ApiPrincipal :=
  match headers.bearerToken with
  | some rawToken => do
    let (token, user) ← okOr (db.authenticatedToken S now rawToken) .unauthorized
    pure { user := authUser user, tokenActor := some (apiTokenActorDisplayName user token.name) }
  | none => do
    let user ← okOr headers.login .unauthorized
    pure { user := user, tokenActor := none }

def requireApiPrincipal : Except AppError ApiPrincipal := do
  rejectIf (headers.fromDevice = true) (.forbidden "设备 access token 未授权访问此业务 API")
  requireD2ApiPrincipal S now headers db

def ApiPrincipal.actorDisplayNameSnapshot (principal : ApiPrincipal) : String :=
  principal.tokenActor.getD ""

def ensureApiCsrf : Except AppError Unit :=
  match headers.bearerToken with
  | some _ => .ok ()
  | none => headers.csrf

/-! ## Scopes of a token -/

def tokenHasScopeForUser (rawToken : String) (userId : Int) (requiredScope : String) : Bool :=
  (db.tokenOf S now rawToken userId).any fun t => t.scopes.contains requiredScope

def ensureApiTokenScope (userId : Int) (requiredScope : String) : Except AppError Unit :=
  match headers.bearerToken with
  | none => .ok ()
  | some rawToken =>
    rejectIf (¬ tokenHasScopeForUser S now db rawToken userId requiredScope)
      (.forbidden ("访问 Token 缺少 scope：" ++ requiredScope))

def apiScopeForPermission (permissionKey : String) : Option String :=
  if permissionKey = "project.view" then some "project:read"
  else if permissionKey = "work_item.view" then some "work_item:read"
  else if permissionKey = "work_item.manage" then some "work_item:write"
  else if permissionKey = "project.manage" then some "project:write"
  else if hasHead "system." permissionKey then some "system:admin"
  else none

def ensureApiPermission (userId : Int) (permissionKey : String) : Except AppError Unit := do
  match apiScopeForPermission permissionKey with
  | some requiredScope => ensureApiTokenScope S now headers db userId requiredScope
  | none => .ok ()
  rejectIf (¬ db.userHasPermission userId permissionKey) (.forbidden "缺少操作权限")

/-! ## Projects of a token -/

def projectScopeKeys (projectScope : String) : List String :=
  (((splitAll ',' projectScope.toList).map fun piece => trim (String.ofList piece)).filter
    (· ≠ "")).map toAsciiUppercase

def tokenAllowsProject (rawToken : String) (userId projectId : Int) : Bool :=
  match db.tokenOf S now rawToken userId with
  | none => false
  | some t =>
    t.projectScope == "all" || (db.project projectId).any fun p =>
      (projectScopeKeys t.projectScope).any fun key => eqIgnoreAsciiCase key p.projectKey

def ensureApiTokenProjectScope (userId projectId : Int) : Except AppError Unit :=
  match headers.bearerToken with
  | none => .ok ()
  | some rawToken =>
    rejectIf (¬ tokenAllowsProject S now db rawToken userId projectId)
      (.forbidden "访问 Token 不允许访问该项目")

/-- `token_project_scope_keys`. -/
def tokenProjectScopeKeys (rawToken : String) (userId : Int) : Option (List String) :=
  match db.tokenOf S now rawToken userId with
  | none => some []
  | some t =>
    if eqIgnoreAsciiCase (trim t.projectScope) "all" then none
    else some (projectScopeKeys t.projectScope)

def apiTokenProjectScopeKeys (userId : Int) : Option (List String) :=
  headers.bearerToken.bind fun rawToken => tokenProjectScopeKeys S now db rawToken userId

def projectKeyInTokenScope (projectScope : Option (List String)) (projectKey : String) : Bool :=
  match projectScope with
  | none => true
  | some allowedProjectKeys => allowedProjectKeys.any fun key => eqIgnoreAsciiCase key projectKey

/-! ## Access to a project -/

def apiUserCanAccessAllProjects (user : AuthUser) : Bool :=
  user.isSuperAdmin || db.userHasAllDataScope user.id

def apiUserCanAccessAllTimeManagement (user : AuthUser) : Bool :=
  apiUserCanAccessAllProjects db user || db.userHasPermission user.id "time.management.view"

def ensureApiProjectAccess (user : AuthUser) (projectId : Int) : Except AppError Unit :=
  if user.isSuperAdmin ∨ db.userHasAllDataScope user.id ∨ db.isProjectMember projectId user.id then
    ensureApiTokenProjectScope S now headers db user.id projectId
  else .error (.forbidden "无权访问该项目")

def ensureApiProjectContentWriteAccess (user : AuthUser) (projectId : Int) : Except AppError Unit :=
  rejectIf (¬ ((apiUserCanAccessAllProjects db user ∧ db.userHasPermission user.id "work_item.manage") ∨
      db.userCanWriteProjectContent projectId user.id user.isSuperAdmin))
    (.forbidden "只读项目成员不能执行写入操作")

def ensureApiTimeManagementWriteAccess (user : AuthUser) (projectId : Int) : Except AppError Unit :=
  rejectIf (¬ (db.userHasPermission user.id "time.management.edit" ∨
      db.userCanManageProjectTime projectId user.id user.isSuperAdmin))
    (.forbidden "缺少时间排期管理权限")

def ensureApiTimeManagementProjectAccess (user : AuthUser) (projectId : Int) :
    Except AppError Unit :=
  if db.userHasPermission user.id "time.management.edit" then
    ensureApiTokenProjectScope S now headers db user.id projectId
  else do
    ensureApiProjectAccess S now headers db user projectId
    ensureApiTimeManagementWriteAccess db user projectId

end Checks

end Web
end Yuance
