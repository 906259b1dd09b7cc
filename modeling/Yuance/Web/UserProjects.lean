import Yuance.Projects.Memberships
import Yuance.Web.TokenScopes

/-!
# Yuance.Web.UserProjects

The two requests of `api/src/web/api/mod.rs` that change several projects of a user at once. Both loop
over the calls for one project; each call is a transaction of its own, and what the calls before it
wrote stays where one fails. The request that removes looks at all projects before the loop, by rules
of its own. The audit log and the other fields of a user are left out.

* `assignSystemUserProjects`, `removeSystemUserProjects`: the requests.
* `NamesOpenProject`, `Unblocked`: the keys that the loops get through.
-/

namespace Yuance
namespace Web

open Lib Platform
open Tokens (Secrets ApiTokenRow UserRow)
open Projects (MemberRole ProjectStatus UserProjectMembershipSummary ProjectAssignedPendingCount
  SameChecks NamesOpenProject Constrained alone addProjectMember removeProjectMember
  checkAddProjectMember checkRemoveProjectMember validateUsernameRef validateProjectKey
  validateMemberRole ensureProjectAcceptsWrites)

/-! ## Accounts -/

/-- What the tables of the projects do not say about the users. -/
structure Accounts where
  /-- `is_super_admin = 1`. -/
  superAdmins : List Int
  apiTokens : List ApiTokenRow
  roles : List Role
  userRoles : List (Int × Int)

def Accounts.userRow (accounts : Accounts) (u : Projects.User) : UserRow :=
  { id := u.id, username := u.username, displayName := u.displayName, active := u.active,
    isSuperAdmin := accounts.superAdmins.contains u.id }

/-- The tables that the access checks read. -/
def Accounts.access (accounts : Accounts) (db : Projects.Db) : Access :=
  { users := db.users.map accounts.userRow, apiTokens := accounts.apiTokens,
    roles := accounts.roles, userRoles := accounts.userRoles, projects := db.projects,
    members := db.members }

/-- `users::get_user_summary_by_username`. -/
def getUserSummaryByUsername (accounts : Accounts) (db : Projects.Db) (username : String) :
    Except AppError (Option UserRow) := do
  let username ← validateUsernameRef username
  pure ((db.userNamed username).map accounts.userRow)

def requireManageableSystemUser (accounts : Accounts) (db : Projects.Db) (username : String) :
    Except AppError UserRow := do
  let user ← getUserSummaryByUsername accounts db username
  let user ← okOr user (.badRequest "用户不存在")
  rejectIf (user.isSuperAdmin = true)
    (.badRequest "超级管理员默认拥有全项目访问，无需管理项目关系")
  pure user

/-! ## The projects of a user -/

structure SystemUserProjectPayload where
  key : String
  name : String
  status : ProjectStatus
  roleCode : MemberRole
  activeAssignedCount : Nat
  canRemove : Bool
  canUpdateRole : Bool
  removeBlockReason : String
  deriving DecidableEq, Repr

structure SystemUserViewPayload where
  user : UserRow
  assignedProjects : List SystemUserProjectPayload
  deriving DecidableEq, Repr

/-- `collect::<HashMap<_, _>>().get(key)`: of two entries with one key, the later one. -/
def collectedAt {α : Type} (entries : List (String × α)) (key : String) : Option α :=
  (entries.reverse.find? (·.1 == key)).map (·.2)

def activeCount (activeCounts : List ProjectAssignedPendingCount) (projectKey : String) : Nat :=
  (collectedAt (activeCounts.map fun entry => (entry.projectKey, entry.total)) projectKey).getD 0

def systemUserProjectPayload (project : UserProjectMembershipSummary)
    (activeCounts : List ProjectAssignedPendingCount) : SystemUserProjectPayload :=
  let activeAssignedCount := activeCount activeCounts project.projectKey
  let canUpdateRole := project.memberRole != .owner
  let canRemove := canUpdateRole && activeAssignedCount == 0
  let removeBlockReason :=
    if !canUpdateRole then "该成员当前是项目负责人，请先在项目详情中转移负责人"
    else if canRemove then ""
    else "该成员在此项目仍有 " ++ toString activeAssignedCount ++
      " 个待处理 / 进行中 / 待确认工作项，需先转交处理人"
  { key := project.projectKey, name := project.projectName, status := project.projectStatus,
    roleCode := project.memberRole, activeAssignedCount, canRemove, canUpdateRole,
    removeBlockReason }

def systemUserViewPayload (db : Projects.Db) (user : UserRow) : SystemUserViewPayload :=
  if user.isSuperAdmin then { user, assignedProjects := [] }
  else
    let activeCounts := db.countPendingAssignedWorkItemsByProject user.id false
    { user
      assignedProjects := (db.listUserProjectMemberships user.id).map fun project =>
        systemUserProjectPayload project activeCounts }

/-- The check of one key in `ensure_system_user_projects_removable`. -/
def ensureRemovable (memberships : List UserProjectMembershipSummary)
    (activeCounts : List ProjectAssignedPendingCount) (projectKey : String) :
    Except AppError Unit := do
  let project ← okOr (collectedAt (memberships.map fun p => (p.projectKey, p)) projectKey)
    (.badRequest ("用户当前未加入项目 " ++ projectKey))
  let relation := systemUserProjectPayload project activeCounts
  rejectIf (relation.canRemove = false) (.badRequest relation.removeBlockReason)

def ensureSystemUserProjectsRemovable (db : Projects.Db) (userId : Int)
    (projectKeys : List String) : Except AppError Unit :=
  forEach (ensureRemovable (db.listUserProjectMemberships userId)
    (db.countPendingAssignedWorkItemsByProject userId false)) projectKeys

/-- `normalize_unique_non_empty_strings`, where `seen` was met before. -/
def uniqueNonEmptyStrings (seen : List String) : List String → List String
  | [] => []
  | value :: rest =>
    if trim value = "" ∨ trim value ∈ seen then uniqueNonEmptyStrings seen rest
    else trim value :: uniqueNonEmptyStrings (trim value :: seen) rest

def normalizeUniqueNonEmptyStrings (values : List String) : List String :=
  uniqueNonEmptyStrings [] values

/-! ## The requests -/

section Requests

variable (S : Secrets) (now : String) (headers : Headers) (accounts : Accounts) (db : Projects.Db)

def ensureSystemUserProjectManagement (actor : AuthUser) : Except AppError Unit := do
  ensureApiPermission S now headers (accounts.access db) actor.id "system.users.manage"
  ensureApiPermission S now headers (accounts.access db) actor.id "project.manage"
  rejectIf (¬ apiUserCanAccessAllProjects (accounts.access db) actor)
    (.forbidden "需要全项目管理权限才能管理用户项目关系")

/-- What both requests check first: the actor, the user and the keys. -/
def enterUserProjects (username : String) (projectKeys : List String) (noneSelected : String) :
    Except AppError (AuthUser × UserRow × List String) := do
  let principal ← requireApiPrincipal S now headers (accounts.access db)
  ensureApiCsrf headers
  ensureSystemUserProjectManagement S now headers accounts db principal.user
  let target ← requireManageableSystemUser accounts db username
  let projectKeys := normalizeUniqueNonEmptyStrings projectKeys
  rejectIf (projectKeys = []) (.badRequest noneSelected)
  pure (principal.user, target, projectKeys)

def enterAssign (username : String) (projectKeys : List String) :
    Except AppError (AuthUser × UserRow × List String) :=
  enterUserProjects S now headers accounts db username projectKeys "请至少选择一个要分配的项目"

def enterRemove (username : String) (projectKeys : List String) :
    Except AppError (AuthUser × UserRow × List String) :=
  enterUserProjects S now headers accounts db username projectKeys "请至少选择一个要移除的项目"

/-- What the call answers is not looked at. -/
def silent {α : Type} (outcome : Projects.Db × Except AppError α) :
    Projects.Db × Except AppError Unit :=
  (outcome.1, outcome.2.map fun _ => ())

def assignOne (time actorUserId : Int) (username memberRole projectKey : String)
    (db : Projects.Db) : Projects.Db × Except AppError Unit :=
  silent (alone time (addProjectMember actorUserId projectKey username memberRole) db)

def removeOne (time actorUserId : Int) (username projectKey : String) (db : Projects.Db) :
    Projects.Db × Except AppError Unit :=
  alone time (removeProjectMember actorUserId projectKey username) db

/-- The answer of both requests behind their loop. -/
def viewed (target : UserRow) (outcome : Projects.Db × Except AppError Unit) :
    Projects.Db × Except AppError SystemUserViewPayload :=
  (outcome.1, outcome.2.map fun _ => systemUserViewPayload outcome.1 target)

structure AssignSystemUserProjectsRequest where
  projectKeys : List String
  memberRole : String

/-- `time` is the time of the transactions. -/
def assignSystemUserProjects (time : Int) (username : String)
    (payload : AssignSystemUserProjectsRequest) :
    Projects.Db × Except AppError SystemUserViewPayload :=
  commit (enterAssign S now headers accounts db username payload.projectKeys)
    (fun (actor, target, projectKeys) => viewed target
      (eachIn (assignOne time actor.id target.username payload.memberRole) projectKeys db)) db

/-- The checks of `remove_system_user_projects` before its loop. -/
def admitRemoval (username : String) (projectKeys : List String) :
    Except AppError (AuthUser × UserRow × List String) := do
  let (actor, target, projectKeys) ← enterRemove S now headers accounts db username projectKeys
  ensureSystemUserProjectsRemovable db target.id projectKeys
  pure (actor, target, projectKeys)

def removeSystemUserProjects (time : Int) (username : String) (projectKeys : List String) :
    Projects.Db × Except AppError SystemUserViewPayload :=
  commit (admitRemoval S now headers accounts db username projectKeys)
    (fun (actor, target, projectKeys) => viewed target
      (eachIn (removeOne time actor.id target.username) projectKeys db)) db

end Requests

/-! ## What a request knows behind its checks -/

section Entered

variable {S : Secrets} {now : String} {headers : Headers} {accounts : Accounts} {db : Projects.Db}
  {username noneSelected : String} {projectKeys keys : List String} {actor : AuthUser}
  {target : UserRow}

theorem user_isSome_of_row {row : UserRow} (h : row ∈ (accounts.access db).users) :
    (db.user row.id).isSome = true := by
  obtain ⟨u, hu, rfl⟩ := List.mem_map.mp h
  unfold Projects.Db.user
  rw [List.find?_isSome]
  exact ⟨u, hu, beq_self_eq_true _⟩

/-- The actor is a user of the tables. -/
theorem principal_isSome {principal : ApiPrincipal}
    (hlogin : ∀ user, headers.login = some user → (db.user user.id).isSome = true)
    (h : requireApiPrincipal S now headers (accounts.access db) = .ok principal) :
    (db.user principal.user.id).isSome = true := by
  obtain ⟨_, _, h⟩ := bind_eq_ok.mp h
  unfold requireD2ApiPrincipal at h
  split at h
  · obtain ⟨⟨token, user⟩, hfound, h⟩ := bind_eq_ok.mp h
    cases h
    rw [okOr_eq_ok] at hfound
    unfold Access.authenticatedToken at hfound
    split at hfound
    · obtain ⟨t, _, hfound⟩ := Option.bind_eq_some_iff.mp hfound
      obtain ⟨u, hu, heq⟩ := Option.map_eq_some_iff.mp hfound
      cases heq
      exact user_isSome_of_row (List.mem_of_find?_eq_some hu)
    · cases hfound
  · obtain ⟨user, hfound, h⟩ := bind_eq_ok.mp h
    cases h
    exact hlogin user (okOr_eq_ok.mp hfound)

/-- The user whose projects change. -/
theorem manageable_user (h : requireManageableSystemUser accounts db username = .ok target) :
    ∃ u, db.userNamed target.username = some u ∧ accounts.userRow u = target ∧
      validateUsernameRef target.username = .ok target.username := by
  obtain ⟨found, hfound, h⟩ := bind_eq_ok.mp h
  obtain ⟨row, hrow, h⟩ := bind_eq_ok.mp h
  obtain ⟨_, _, h⟩ := bind_eq_ok.mp h
  cases h
  obtain ⟨name, hname, hfound⟩ := bind_eq_ok.mp hfound
  cases hfound
  rw [okOr_eq_ok] at hrow
  obtain ⟨u, hu, rfl⟩ := Option.map_eq_some_iff.mp hrow
  have hun : (accounts.userRow u).username = name := (Projects.userNamed_mem hu).2
  rw [hun]
  exact ⟨u, hu, rfl, Projects.validateUsernameRef_idem hname⟩

structure Entered (accounts : Accounts) (db : Projects.Db) (projectKeys : List String)
    (actor : AuthUser) (target : UserRow) (keys : List String) : Prop where
  known : (db.user actor.id).isSome = true
  named : ∃ u, db.userNamed target.username = some u ∧ accounts.userRow u = target
  valid : validateUsernameRef target.username = .ok target.username
  listed : keys = normalizeUniqueNonEmptyStrings projectKeys

theorem entered (hlogin : ∀ user, headers.login = some user → (db.user user.id).isSome = true)
    (h : enterUserProjects S now headers accounts db username projectKeys noneSelected =
      .ok (actor, target, keys)) :
    Entered accounts db projectKeys actor target keys := by
  obtain ⟨principal, hprincipal, h⟩ := bind_eq_ok.mp h
  obtain ⟨_, _, h⟩ := bind_eq_ok.mp h
  obtain ⟨_, _, h⟩ := bind_eq_ok.mp h
  obtain ⟨row, hrow, h⟩ := bind_eq_ok.mp h
  obtain ⟨_, _, h⟩ := bind_eq_ok.mp h
  cases h
  obtain ⟨u, hu, hur, hname⟩ := manageable_user hrow
  exact ⟨principal_isSome hlogin hprincipal, ⟨u, hu, hur⟩, hname, rfl⟩

theorem mem_uniqueNonEmptyStrings {seen values : List String} {value : String} (h : value ∈ values)
    (hvalue : trim value ≠ "") : trim value ∈ seen ∨ trim value ∈ uniqueNonEmptyStrings seen values := by
  induction values generalizing seen with
  | nil => cases h
  | cons first rest ih =>
    unfold uniqueNonEmptyStrings
    by_cases hskip : trim first = "" ∨ trim first ∈ seen
    · rw [if_pos hskip]
      rcases List.mem_cons.mp h with rfl | hrest
      · exact .inl (hskip.resolve_left hvalue)
      · exact ih hrest
    · rw [if_neg hskip]
      rcases List.mem_cons.mp h with rfl | hrest
      · exact .inr List.mem_cons_self
      · have hin : trim value ∈ trim first :: seen ∨
            trim value ∈ uniqueNonEmptyStrings (trim first :: seen) rest := ih hrest
        rcases hin with hseen | hlater
        · rcases List.mem_cons.mp hseen with heq | hseen
          · exact .inr (heq ▸ List.mem_cons_self)
          · exact .inl hseen
        · exact .inr (List.mem_cons_of_mem _ hlater)

/-- A key that the calls would read is among the keys that the loop gets. -/
theorem mem_normalized {values : List String} {value key : String} (h : value ∈ values)
    (hkey : validateProjectKey value = .ok key) :
    trim value ∈ normalizeUniqueNonEmptyStrings values ∧
      validateProjectKey (trim value) = .ok key := by
  have hne : trim value ≠ "" := by
    intro hempty
    unfold validateProjectKey at hkey
    rw [hempty] at hkey
    cases hkey
  refine ⟨(mem_uniqueNonEmptyStrings h hne).resolve_left List.not_mem_nil, ?_⟩
  unfold validateProjectKey at hkey ⊢
  rw [trim_trim]
  exact hkey

end Entered

/-! ## The check before a removal -/

section Precheck

variable {db : Projects.Db} {userId : Int} {projectKeys : List String} {key : String}

theorem collectedAt_mem {α : Type} {entries : List (String × α)} {a : α}
    (h : collectedAt entries key = some a) : (key, a) ∈ entries := by
  obtain ⟨⟨k, b⟩, hfind, rfl⟩ := Option.map_eq_some_iff.mp h
  have hkey : (k == key) = true := List.find?_some (p := fun e : String × α => e.1 == key) hfind
  rw [← beq_iff_eq.mp hkey]
  exact List.mem_reverse.mp (List.mem_of_find?_eq_some hfind)

/-- A project that has a pending work item of the user has a count above zero. -/
theorem activeCount_pos {all : Bool} {wi : Projects.WorkItem}
    (h : (key, wi) ∈ db.pendingAssigned userId all) :
    activeCount (db.countPendingAssignedWorkItemsByProject userId all) key ≠ 0 := by
  unfold activeCount Projects.Db.countPendingAssignedWorkItemsByProject
  dsimp only
  rw [List.map_map]
  cases hfound : collectedAt (((db.pendingAssigned userId all).map (·.1)).dedup.map
      ((fun entry : ProjectAssignedPendingCount => (entry.projectKey, entry.total)) ∘
        fun projectKey => { projectKey, total :=
          ((db.pendingAssigned userId all).filter (·.1 == projectKey)).length })) key with
  | none =>
    have hkeys := Option.map_eq_none_iff.mp hfound
    rw [List.find?_eq_none] at hkeys
    refine absurd (beq_self_eq_true key) (hkeys (key,
      ((db.pendingAssigned userId all).filter (·.1 == key)).length) ?_)
    rw [List.mem_reverse, List.mem_map]
    exact ⟨key, List.mem_dedup.mpr (List.mem_map_of_mem h), rfl⟩
  | some total =>
    obtain ⟨k, _, hk⟩ := List.mem_map.mp (collectedAt_mem hfound)
    cases hk
    have hin : (k, wi) ∈ (db.pendingAssigned userId all).filter (·.1 == k) :=
      List.mem_filter.mpr ⟨h, beq_self_eq_true k⟩
    exact Nat.ne_of_gt (List.length_pos_of_mem hin)

/-- A key that the check lets through names a project where the user is a member without the role of
an owner and without unfinished work items. -/
theorem removable_of_checked (hdb : Constrained db)
    (h : ensureSystemUserProjectsRemovable db userId projectKeys = .ok ()) :
    ∀ key ∈ projectKeys, ∃ p, db.projectKeyed key = some p ∧
      validateProjectKey key = .ok key ∧ db.countActiveAssigned p.id userId = 0 := by
  intro key hkey
  unfold ensureSystemUserProjectsRemovable at h
  rw [forEach_eq_ok] at h
  have hone := h key hkey
  unfold ensureRemovable at hone
  obtain ⟨summary, hsummary, hone⟩ := bind_eq_ok.mp hone
  have hcan := rejectIf_eq_ok.mp hone
  obtain ⟨x, hx, heq⟩ := List.mem_map.mp (collectedAt_mem (okOr_eq_ok.mp hsummary))
  cases heq
  obtain ⟨p, hp, m, hm, huser, hproject, rfl⟩ := Projects.mem_listUserProjectMemberships hx
  have hzero : activeCount (db.countPendingAssignedWorkItemsByProject userId false) p.projectKey =
      0 := by
    unfold systemUserProjectPayload at hcan
    simp only [Bool.not_eq_false, Bool.and_eq_true, beq_iff_eq] at hcan
    exact hcan.2
  refine ⟨p, find?_of_mem hdb.projectKeys hp, hdb.validKeys p hp, ?_⟩
  rw [Projects.countActiveAssigned_eq_zero]
  intro wi hwi hin hassignee hdeleted
  by_contra hactive
  have hmember : db.isMember p.id userId = true := by
    unfold Projects.Db.isMember
    rw [List.any_eq_true]
    exact ⟨m, hm, by simp [huser, hproject]⟩
  exact activeCount_pos (Projects.mem_pendingAssigned hdb hp hwi hin hassignee
    (Bool.not_eq_false _ ▸ hactive) hdeleted hmember) hzero

end Precheck

/-! ## The loops -/

/-- The project that the key names accepts writes, and the user does not own it. -/
def Unblocked (db : Projects.Db) (userId : Int) (projectKey : String) : Prop :=
  ∀ p, db.projectKeyed projectKey = some p →
    ensureProjectAcceptsWrites p.status = .ok () ∧ p.ownerUserId ≠ some userId

section Loops

variable {db d d' : Projects.Db} {time actorUserId : Int} {username memberRole key : String}
  {user : Projects.User}

theorem assignOne_ok {r : Projects.Project × List Projects.User × MemberRole}
    (hdb : Constrained db) (hname : validateUsernameRef username = .ok username)
    (huser : db.userNamed username = some user) (hactor : (db.user actorUserId).isSome = true)
    (h : checkAddProjectMember db key username memberRole = .ok r) :
    assignOne time actorUserId username memberRole key db =
      (db.addMembers r.1.id actorUserId [user] r.2.2 time, .ok ()) := by
  obtain ⟨m, hrun⟩ := @Projects.addProjectMember_ok _ time _ _ _ _ _ _ hdb hname huser hactor h
  unfold assignOne
  rw [hrun]
  rfl

/-- The loop of the request that assigns. -/
theorem assign_stepwise (hdb : Constrained db)
    (hname : validateUsernameRef username = .ok username)
    (huser : db.userNamed username = some user) (hactor : (db.user actorUserId).isSome = true) :
    Stepwise (assignOne time actorUserId username memberRole) (SameChecks db)
      (fun key => ∃ r, checkAddProjectMember db key username memberRole = .ok r)
      (fun d => d.activities.length) := by
  constructor
  · rintro key d hd ⟨r, hr⟩
    have hnamed : d.userNamed username = some user := by
      rw [← huser]
      exact congrArg (List.find? _) hd.1
    have hcheck := hr
    rw [← Projects.checkAddProjectMember_congr hd] at hcheck
    have hknown : (d.user actorUserId).isSome = true := by
      rw [Projects.user_congr hd]
      exact hactor
    have hkept := @Projects.upsertMember_checks d time r.1.id user.id r.2.2
    refine ⟨_, assignOne_ok (hdb.congr hd) hname hnamed hknown hcheck, hd.trans hkept.1, ?_⟩
    show d.activities.length < (_ ++ _ : List _).length
    rw [List.length_append, hkept.2, List.length_map]
    exact Nat.lt_succ_self _
  · intro key d hd hr
    unfold assignOne silent
    rw [Projects.addProjectMember_alone, Projects.checkAddProjectMember_congr hd]
    cases hcheck : checkAddProjectMember db key username memberRole with
    | error e => exact ⟨e, rfl⟩
    | ok r => exact absurd ⟨r, hcheck⟩ hr

/-- The loop of the request that removes. -/
theorem remove_stepwise (hactor : (db.user actorUserId).isSome = true) :
    Stepwise (removeOne time actorUserId username) (SameChecks db)
      (fun key => ∃ r, checkRemoveProjectMember db key username = .ok r)
      (fun d => d.activities.length) := by
  constructor
  · rintro key d hd ⟨r, hr⟩
    rw [← Projects.checkRemoveProjectMember_congr hd] at hr
    have hknown : (d.user actorUserId).isSome = true := by
      rw [Projects.user_congr hd]
      exact hactor
    refine ⟨_, Projects.removeProjectMember_ok hknown hr, hd, ?_⟩
    show d.activities.length < (_ ++ _ : List _).length
    rw [List.length_append]
    exact Nat.lt_succ_self _
  · intro key d hd hr
    unfold removeOne
    rw [Projects.removeProjectMember_alone, Projects.checkRemoveProjectMember_congr hd]
    cases hcheck : checkRemoveProjectMember db key username with
    | error e => exact ⟨e, rfl⟩
    | ok r => exact absurd ⟨r, hcheck⟩ hr

end Loops

/-! ## All or nothing -/

section Outcomes

variable {db d' : Projects.Db} {target : UserRow} {outcome : Projects.Db × Except AppError Unit}

theorem viewed_error {e : AppError} :
    viewed target outcome = (d', .error e) ↔ outcome = (d', .error e) := by
  obtain ⟨d, e' | u⟩ := outcome
  · unfold viewed
    simp [Except.map]
  · unfold viewed
    simp [Except.map]

theorem viewed_ok {view : SystemUserViewPayload} (h : viewed target outcome = (d', .ok view)) :
    outcome = (d', .ok ()) := by
  obtain ⟨d, e' | u⟩ := outcome
  · cases h
  · cases h
    rfl

/-- A loop that fails leaves the members and the log alone exactly if it leaves the state alone. -/
theorem kept_iff {step : String → Projects.Db → Projects.Db × Except AppError Unit}
    {Fits : String → Prop} {keys : List String} {I : Projects.Db → Prop}
    (h : Stepwise step I Fits fun d => d.activities.length) (hd : I db) :
    (∀ d' e, viewed target (eachIn step keys db) = (d', .error e) →
      d'.members = db.members ∧ d'.activities = db.activities) ↔ AllOrNothing Fits keys := by
  constructor
  · intro hkept
    refine (h.unchanged_iff hd).mp fun d' e hrun => ?_
    rw [(hkept d' e (viewed_error.mpr hrun)).2]
  · intro hfits d' e hrun
    rw [h.unchanged hd hfits (viewed_error.mp hrun)]
    exact ⟨rfl, rfl⟩

end Outcomes

/-! ## What the loops get through -/

section Fits

variable {db d d' : Projects.Db} {time actorUserId : Int} {username memberRole key : String}
  {user : Projects.User} {projectKeys : List String}

theorem assigned_iff (hdb : Constrained db) (hname : validateUsernameRef username = .ok username)
    (huser : db.userNamed username = some user) :
    (∃ r, checkAddProjectMember db key username memberRole = .ok r) ↔
      user.active = true ∧ (∃ role, validateMemberRole memberRole = .ok role) ∧
        NamesOpenProject db key := by
  constructor
  · rintro ⟨r, hr⟩
    obtain ⟨hactive, _, hrole, hopen⟩ :=
      (Projects.checkAddProjectMember_ok hdb hname huser).mp hr
    obtain ⟨key', hkey, hp, hwrites⟩ := hopen
    exact ⟨hactive, ⟨_, hrole⟩, key', _, hkey, hp, hwrites⟩
  · rintro ⟨hactive, ⟨role, hrole⟩, key', p, hkey, hp, hwrites⟩
    exact ⟨(p, [user], role), (Projects.checkAddProjectMember_ok hdb hname huser).mpr
      ⟨hactive, rfl, hrole, key', hkey, hp, hwrites⟩⟩

/-- Behind its check, a removal only looks at the status and the owner of the project. -/
theorem removed_iff (hdb : Constrained db) (hname : validateUsernameRef username = .ok username)
    (huser : db.userNamed username = some user)
    (hchecked : ensureSystemUserProjectsRemovable db user.id projectKeys = .ok ()) :
    ∀ key ∈ projectKeys, (∃ r, checkRemoveProjectMember db key username = .ok r) ↔
      Unblocked db user.id key := by
  intro key hkey
  obtain ⟨p, hp, hvalid, hcount⟩ := removable_of_checked hdb hchecked key hkey
  constructor
  · rintro ⟨r, hr⟩ q hq
    obtain ⟨_, howner, _, key', hkey', hr', hwrites⟩ :=
      (Projects.checkRemoveProjectMember_ok hname huser).mp hr
    rw [hvalid] at hkey'
    cases hkey'
    rw [hq] at hr'
    cases hr'
    exact ⟨hwrites, howner⟩
  · intro hfree
    obtain ⟨hwrites, howner⟩ := hfree p hp
    exact ⟨(p, user, username), (Projects.checkRemoveProjectMember_ok hname huser).mpr
      ⟨rfl, howner, hcount, key, hvalid, hp, hwrites⟩⟩

theorem removeOne_written (h : removeOne time actorUserId username key d = (d', .ok ())) :
    ∃ r, checkRemoveProjectMember d key username = .ok r ∧
      d' = d.removeMember r.1.id r.2.1.id actorUserId r.2.2 time := by
  unfold removeOne at h
  rw [Projects.removeProjectMember_alone, commit_eq_ok] at h
  obtain ⟨⟨p, u, name⟩, hr, h⟩ := h
  refine ⟨(p, u, name), hr, ?_⟩
  dsimp only at h ⊢
  unfold Projects.Db.byUser at h
  split at h
  · cases h
    rfl
  · cases h

theorem isMember_removeMember {projectId userId projectId' userId' : Int} :
    (d.removeMember projectId userId actorUserId username time).isMember projectId' userId' =
      (d.isMember projectId' userId' && !(projectId' == projectId && userId' == userId)) := by
  unfold Projects.Db.removeMember Projects.Db.record Projects.Db.isMember
  rw [Bool.eq_iff_iff]
  simp only [List.any_eq_true, List.mem_filter, Bool.and_eq_true, beq_iff_eq, Bool.not_eq_true',
    Bool.and_eq_false_iff, beq_eq_false_iff_ne]
  constructor
  · rintro ⟨m, ⟨hm, hother⟩, rfl, rfl⟩
    exact ⟨⟨m, hm, rfl, rfl⟩, hother⟩
  · rintro ⟨⟨m, hm, rfl, rfl⟩, hother⟩
    exact ⟨m, ⟨hm, hother⟩, rfl, rfl⟩

/-- Behind the loop the user is a member of none of the projects. -/
theorem removed_from_all (hdb : Constrained db)
    (hname : validateUsernameRef username = .ok username)
    (huser : db.userNamed username = some user) (hactor : (db.user actorUserId).isSome = true)
    (hrun : eachIn (removeOne time actorUserId username) projectKeys db = (d', .ok ())) :
    ∀ key ∈ projectKeys, ∀ p ∈ db.projects, validateProjectKey key = .ok p.projectKey →
      d'.isMember p.id user.id = false := by
  refine (remove_stepwise hactor).forall_mem (P := fun key d => ∀ p ∈ db.projects,
    validateProjectKey key = .ok p.projectKey → d.isMember p.id user.id = false)
    ⟨rfl, rfl, rfl⟩ ?_ ?_ hrun
  · intro key d d' hd hstep p hp hkey
    obtain ⟨r, hr, rfl⟩ := removeOne_written hstep
    rw [Projects.checkRemoveProjectMember_congr hd] at hr
    obtain ⟨hfound, _, _, key', hkey', hr', _⟩ :=
      (Projects.checkRemoveProjectMember_ok hname huser).mp hr
    rw [hkey] at hkey'
    cases hkey'
    obtain ⟨hmem, hsame⟩ := Projects.projectKeyed_mem hr'
    have hrp : r.1 = p := eq_of_key hdb.projectKeys hmem hp hsame
    rw [isMember_removeMember, hrp, hfound]
    simp
  · intro key other d d' _ hkept hstep p hp hkey
    obtain ⟨r, _, rfl⟩ := removeOne_written hstep
    rw [isMember_removeMember, hkept p hp hkey, Bool.false_and]

end Fits

section Claim

variable (S : Secrets) (now : String) (headers : Headers) (accounts : Accounts) (db : Projects.Db)
  (time : Int) (username : String)

/-- No key of an open project comes before one that is none, where the user is enabled and the role is
a role. -/
def AssignsEvenly (payload : AssignSystemUserProjectsRequest) : Prop :=
  ∀ actor target keys,
    enterAssign S now headers accounts db username payload.projectKeys = .ok (actor, target, keys) →
    target.active = true → (∃ role, validateMemberRole payload.memberRole = .ok role) →
      AllOrNothing (NamesOpenProject db) keys

/-- No project that lets the user go comes before one that is closed or that the user owns. -/
def RemovesEvenly (projectKeys : List String) : Prop :=
  ∀ actor target keys,
    admitRemoval S now headers accounts db username projectKeys = .ok (actor, target, keys) →
      AllOrNothing (Unblocked db target.id) keys

variable {S now headers accounts db time username}

theorem assign_kept_iff {payload : AssignSystemUserProjectsRequest} (hdb : Constrained db)
    (hlogin : ∀ user, headers.login = some user → (db.user user.id).isSome = true) :
    (∀ db' e, assignSystemUserProjects S now headers accounts db time username payload =
        (db', .error e) → db'.members = db.members ∧ db'.activities = db.activities) ↔
      AssignsEvenly S now headers accounts db username payload := by
  unfold assignSystemUserProjects AssignsEvenly
  cases henter : enterAssign S now headers accounts db username payload.projectKeys with
  | error e =>
    constructor
    · intro _ actor target keys h
      cases h
    · intro _ db' e' h
      cases h
      exact ⟨rfl, rfl⟩
  | ok entry =>
    obtain ⟨actor, target, keys⟩ := entry
    have hentered := entered hlogin henter
    obtain ⟨u, hu, hur⟩ := hentered.named
    have hactive : target.active = u.active := by rw [← hur]; rfl
    rw [commit_ok, kept_iff (assign_stepwise hdb hentered.valid hu hentered.known) ⟨rfl, rfl, rfl⟩,
      allOrNothing_congr fun key _ => assigned_iff hdb hentered.valid hu]
    constructor
    · intro hfits actor' target' keys' heq htarget hrole
      cases heq
      refine (allOrNothing_congr fun key _ => ?_).mp hfits
      exact ⟨fun h => h.2.2, fun h => ⟨hactive ▸ htarget, hrole, h⟩⟩
    · intro heven
      cases keys with
      | nil => trivial
      | cons first rest =>
        rintro ⟨hon, hrole, hfirst⟩ key hkey
        exact ⟨hon, hrole, heven actor target _ rfl (hactive.trans hon) hrole hfirst key hkey⟩

theorem admitted {projectKeys keys : List String} {actor : AuthUser} {target : UserRow}
    (hlogin : ∀ user, headers.login = some user → (db.user user.id).isSome = true)
    (h : admitRemoval S now headers accounts db username projectKeys = .ok (actor, target, keys)) :
    Entered accounts db projectKeys actor target keys ∧
      ensureSystemUserProjectsRemovable db target.id keys = .ok () := by
  obtain ⟨⟨actor', target', keys'⟩, henter, h⟩ := bind_eq_ok.mp h
  obtain ⟨_, hchecked, h⟩ := bind_eq_ok.mp h
  cases h
  exact ⟨entered hlogin henter, hchecked⟩

theorem remove_kept_iff {projectKeys : List String} (hdb : Constrained db)
    (hlogin : ∀ user, headers.login = some user → (db.user user.id).isSome = true) :
    (∀ db' e, removeSystemUserProjects S now headers accounts db time username projectKeys =
        (db', .error e) → db'.members = db.members ∧ db'.activities = db.activities) ↔
      RemovesEvenly S now headers accounts db username projectKeys := by
  unfold removeSystemUserProjects RemovesEvenly
  cases hadmit : admitRemoval S now headers accounts db username projectKeys with
  | error e =>
    constructor
    · intro _ actor target keys h
      cases h
    · intro _ db' e' h
      cases h
      exact ⟨rfl, rfl⟩
  | ok entry =>
    obtain ⟨actor, target, keys⟩ := entry
    obtain ⟨hentered, hchecked⟩ := admitted hlogin hadmit
    obtain ⟨u, hu, hur⟩ := hentered.named
    have hid : target.id = u.id := by rw [← hur]; rfl
    rw [commit_ok, kept_iff (remove_stepwise hentered.known) ⟨rfl, rfl, rfl⟩,
      allOrNothing_congr (removed_iff hdb hentered.valid hu (hid ▸ hchecked)), ← hid]
    constructor
    · intro heven actor' target' keys' heq
      cases heq
      exact heven
    · exact fun heven => heven actor target keys rfl

theorem removed_everywhere {projectKeys : List String} {db' : Projects.Db}
    {view : SystemUserViewPayload} (hdb : Constrained db)
    (hlogin : ∀ user, headers.login = some user → (db.user user.id).isSome = true)
    (h : removeSystemUserProjects S now headers accounts db time username projectKeys =
      (db', .ok view)) {user : Projects.User}
    (hname : validateUsernameRef username = .ok user.username)
    (huser : db.userNamed user.username = some user) :
    ∀ raw ∈ projectKeys, ∀ p ∈ db.projects, validateProjectKey raw = .ok p.projectKey →
      db'.isMember p.id user.id = false := by
  obtain ⟨⟨actor, target, keys⟩, hadmit, hrun⟩ := commit_eq_ok.mp h
  obtain ⟨hentered, _⟩ := admitted hlogin hadmit
  obtain ⟨u, hu, hur⟩ := hentered.named
  have htarget : u = user := by
    obtain ⟨⟨actor', target', keys'⟩, henter, hrest⟩ := bind_eq_ok.mp hadmit
    obtain ⟨_, _, hrest⟩ := bind_eq_ok.mp hrest
    cases hrest
    obtain ⟨principal, _, henter⟩ := bind_eq_ok.mp henter
    obtain ⟨_, _, henter⟩ := bind_eq_ok.mp henter
    obtain ⟨_, _, henter⟩ := bind_eq_ok.mp henter
    obtain ⟨row, hrow, henter⟩ := bind_eq_ok.mp henter
    obtain ⟨_, _, henter⟩ := bind_eq_ok.mp henter
    cases henter
    obtain ⟨found, hfound, hrow⟩ := bind_eq_ok.mp hrow
    obtain ⟨row', hrow', hrow⟩ := bind_eq_ok.mp hrow
    obtain ⟨_, _, hrow⟩ := bind_eq_ok.mp hrow
    cases hrow
    unfold getUserSummaryByUsername at hfound
    rw [hname, ok_bind, huser] at hfound
    cases hfound
    cases hrow'
    have hun : (accounts.userRow user).username = user.username := rfl
    rw [hun, huser] at hu
    exact (Option.some.inj hu).symm
  obtain rfl := htarget
  intro raw hraw p hp hkey
  obtain ⟨hin, hvalid⟩ := mem_normalized hraw hkey
  rw [← hentered.listed] at hin
  exact removed_from_all hdb hentered.valid hu hentered.known (viewed_ok hrun) (trim raw) hin p hp
    hvalid

theorem precheck_iff {actorUserId : Int} {user : Projects.User} {keys : List String}
    (hdb : Constrained db) (hactor : (db.user actorUserId).isSome = true)
    (hname : validateUsernameRef user.username = .ok user.username)
    (huser : db.userNamed user.username = some user) :
    (ensureSystemUserProjectsRemovable db user.id keys = .ok () →
        ∃ db', eachIn (removeOne time actorUserId user.username) keys db = (db', .ok ())) ↔
      (ensureSystemUserProjectsRemovable db user.id keys = .ok () →
        ∀ key ∈ keys, Unblocked db user.id key) := by
  refine imp_congr_right fun hchecked => ?_
  rw [(remove_stepwise hactor).ok_iff ⟨rfl, rfl, rfl⟩]
  exact forall₂_congr (removed_iff hdb hname huser hchecked)

variable (S now headers accounts db time username)

/-- A request that assigns and fails leaves the members and the log alone exactly if `AssignsEvenly`;
one that removes, exactly if `RemovesEvenly`; where a removal goes through the user is a member of none
of the projects; and the check before a removal is the rules of the calls behind it exactly if the
projects that it lets through accept writes and have another owner. -/
theorem bulk_changes_all_or_nothing (payload : AssignSystemUserProjectsRequest)
    (projectKeys : List String) (hdb : Constrained db)
    (hlogin : ∀ user, headers.login = some user → (db.user user.id).isSome = true) :
    ((∀ db' e, assignSystemUserProjects S now headers accounts db time username payload =
          (db', .error e) → db'.members = db.members ∧ db'.activities = db.activities) ↔
        AssignsEvenly S now headers accounts db username payload) ∧
      ((∀ db' e, removeSystemUserProjects S now headers accounts db time username projectKeys =
          (db', .error e) → db'.members = db.members ∧ db'.activities = db.activities) ↔
        RemovesEvenly S now headers accounts db username projectKeys) ∧
      (∀ db' view, removeSystemUserProjects S now headers accounts db time username projectKeys =
          (db', .ok view) →
        ∀ user, validateUsernameRef username = .ok user.username →
          db.userNamed user.username = some user → ∀ raw ∈ projectKeys, ∀ p ∈ db.projects,
          validateProjectKey raw = .ok p.projectKey → db'.isMember p.id user.id = false) ∧
      ∀ actorUserId (user : Projects.User) keys, (db.user actorUserId).isSome = true →
        validateUsernameRef user.username = .ok user.username →
        db.userNamed user.username = some user →
        ((ensureSystemUserProjectsRemovable db user.id keys = .ok () →
            ∃ db', eachIn (removeOne time actorUserId user.username) keys db = (db', .ok ())) ↔
          (ensureSystemUserProjectsRemovable db user.id keys = .ok () →
            ∀ key ∈ keys, Unblocked db user.id key)) := by
  refine ⟨assign_kept_iff hdb hlogin, remove_kept_iff hdb hlogin, ?_, ?_⟩
  · intro db' view hrun user hname huser
    exact removed_everywhere hdb hlogin hrun hname huser
  · intro actorUserId user keys hactor hname huser
    exact precheck_iff hdb hactor hname huser

end Claim

/-! ## Two projects -/

def sampleProject (id : Int) (projectKey : String) (status : ProjectStatus) : Projects.Project :=
  { id, projectKey, name := projectKey, description := "", status, ownerUserId := some 1,
    startDate := none, dueDate := none, updatedAt := 0 }

/-- A member of an open project and of one on hold. -/
def twoProjects : Projects.Db where
  users := [⟨1, "admin", "Admin", true⟩, ⟨2, "wang", "Wang", true⟩]
  projects := [sampleProject 1 "PA" .inProgress, sampleProject 2 "PB" .onHold]
  nextProject := 3
  members := [⟨1, 2, .member, 0⟩, ⟨2, 2, .member, 0⟩]
  workItems := []
  nextWorkItem := 1
  cycles := []
  comments := []
  activities := []
  unavailable := []

def adminAccounts : Accounts := ⟨[1], [], [], []⟩

def adminHeaders : Headers := ⟨none, false, some ⟨1, "admin", "Admin", true⟩, .ok ()⟩

theorem twoProjects_constrained : Constrained twoProjects := by
  refine ⟨by decide, by decide, by decide, ?_⟩
  intro p hp
  simp only [twoProjects, List.mem_cons, List.not_mem_nil, or_false] at hp
  rcases hp with rfl | rfl
  · decide +kernel
  · decide +kernel

theorem bulk_changes_all_or_nothing_open :
    ∃ db', eachIn (removeOne 7 1 "wang") ["PA"] twoProjects = (db', .ok ()) := by
  have hlogin : ∀ user, adminHeaders.login = some user →
      (twoProjects.user user.id).isSome = true := by
    intro user huser
    cases huser
    rfl
  refine ((bulk_changes_all_or_nothing plainSecrets "" adminHeaders adminAccounts twoProjects 7 "wang"
    ⟨[], ""⟩ [] twoProjects_constrained hlogin).2.2.2 1 ⟨2, "wang", "Wang", true⟩ ["PA"] rfl
    (by decide +kernel) rfl).mpr ?_ (by decide +kernel)
  intro _ key hkey p hp
  obtain rfl := List.mem_singleton.mp hkey
  cases hp
  exact ⟨rfl, by decide⟩

/-- The second key fails, and what was done for the first stays. -/
theorem failed_requests_change_members :
    let assigned := assignSystemUserProjects plainSecrets "" adminHeaders adminAccounts
      { twoProjects with members := [] } 7 "wang" ⟨["PA", "PX"], "member"⟩
    let removed := removeSystemUserProjects plainSecrets "" adminHeaders adminAccounts twoProjects 7
      "wang" ["PA", "PB"]
    (assigned.2.isOk = false ∧ assigned.1.members = [⟨1, 2, .member, 7⟩]) ∧
      removed.2.isOk = false ∧ removed.1.members = [⟨2, 2, .member, 0⟩] := by
  decide +kernel

end Web
end Yuance
