import Yuance.Lib.Loops
import Yuance.Projects.Operations

/-!
# Yuance.Projects.Memberships

The projects of one user in `api/src/domains/projects.rs`: the lists of its memberships and of its
unfinished work items, and what a call that adds it to a project or removes it does when no other call
runs beside it.

* `checkAddProjectMember`, `checkRemoveProjectMember`: what the calls check before they write.
* `addProjectMember_alone`, `removeProjectMember_alone`: the calls are their checks and their
  transactions.
-/

namespace Yuance
namespace Projects

open Lib Platform

/-! ## Lists -/

structure UserProjectMembershipSummary where
  projectId : Int
  projectKey : String
  projectName : String
  projectStatus : ProjectStatus
  memberRole : MemberRole
  deriving DecidableEq, Repr

structure ProjectAssignedPendingCount where
  projectKey : String
  total : Nat
  deriving DecidableEq, Repr

def membershipSummary (joined : Project × Member) : UserProjectMembershipSummary :=
  { projectId := joined.1.id, projectKey := joined.1.projectKey, projectName := joined.1.name,
    projectStatus := joined.1.status, memberRole := joined.2.role }

namespace Db

variable (db : Db)

/-- `project_members pm JOIN projects p`. -/
def joinedMembers (userId : Int) : List (Project × Member) :=
  (db.members.filter (·.userId == userId)).filterMap fun m =>
    (db.project m.projectId).map fun p => (p, m)

def listUserProjectMemberships (userId : Int) : List UserProjectMembershipSummary :=
  (orderBy (descending (fun j : Project × Member => j.1.updatedAt) fun j => j.1.id)
    (db.joinedMembers userId)).map membershipSummary

/-- The unfinished, undeleted work items of the user, in the projects it may see, by their project. -/
def pendingAssigned (userId : Int) (canAccessAllProjects : Bool) : List (String × WorkItem) :=
  (db.workItems.filter fun wi => wi.assigneeUserId == some userId
    && (canAccessAllProjects || db.isMember wi.projectId userId) && wi.status.isActive
    && wi.deletedAt.isNone).filterMap fun wi =>
      (db.project wi.projectId).map fun p => (p.projectKey, wi)

def countPendingAssignedWorkItemsByProject (userId : Int) (canAccessAllProjects : Bool) :
    List ProjectAssignedPendingCount :=
  let rows := db.pendingAssigned userId canAccessAllProjects
  (rows.map (·.1)).dedup.map fun projectKey =>
    { projectKey, total := (rows.filter (·.1 == projectKey)).length }

end Db

/-! ## Alone -/

/-- A call that no other call runs beside and whose statements all go through. -/
def alone {α : Type} (now : Int) (p : Task α) (db : Db) : Db × Except AppError α :=
  p.solo perform { now, fault := none } db

def addProjectMember (actorUserId : Int) (projectKey username memberRole : String) :
    Task (User × Member) := do
  let username ← Call.ofExcept (validateUsernameRef username)
  let members ← addProjectMembers actorUserId projectKey [username] memberRole
  Call.okOr members.getLast? (.notFound "项目成员添加后未找到")

/-- The checks of `add_project_member`. -/
def checkAddProjectMember (db : Db) (projectKey username memberRole : String) :
    Except AppError (Project × List User × MemberRole) := do
  let username ← validateUsernameRef username
  let projectKey ← validateProjectKey projectKey
  let role ← validateMemberRole memberRole
  let project ← okOr (db.projectKeyed projectKey) (.notFound "项目不存在")
  ensureProjectAcceptsWrites project.status
  let selected ← selectUsers db.users [] [username]
  rejectIf (selected = []) (.badRequest "请至少选择一个要加入的项目成员")
  pure (project, selected, role)

/-- The checks of `remove_project_member`. -/
def checkRemoveProjectMember (db : Db) (projectKey username : String) :
    Except AppError (Project × User × String) := do
  let projectKey ← validateProjectKey projectKey
  let username ← validateUsernameRef username
  let project ← okOr (db.projectKeyed projectKey) (.notFound "项目不存在")
  ensureProjectAcceptsWrites project.status
  let user ← okOr (db.userNamed username) (.badRequest "用户不存在")
  rejectIf (project.ownerUserId = some user.id) (.badRequest "项目负责人不能从项目成员中移除")
  let assigned := db.countActiveAssigned project.id user.id
  rejectIf (assigned > 0) (.badRequest ("该成员仍负责 " ++ toString assigned ++
    " 个待处理 / 进行中 / 待确认工作项，请先转交处理人"))
  pure (project, user, username)

section Alone

variable {db : Db} {now actorUserId : Int} {projectKey username memberRole : String}

theorem alone_ofExcept_bind {α β : Type} {x : Except AppError α} {f : α → Task β} :
    alone now (Call.ofExcept x >>= f) db = commit x (fun a => alone now (f a) db) db :=
  Call.solo_ofExcept_bind

theorem alone_okOr_bind {α β : Type} {o : Option α} {e : AppError} {f : α → Task β} :
    alone now (Call.okOr o e >>= f) db = commit (okOr o e) (fun a => alone now (f a) db) db :=
  Call.solo_okOr_bind

theorem alone_rejectIf_bind {β : Type} {c : Prop} [Decidable c] {e : AppError} {f : Unit → Task β} :
    alone now (Call.rejectIf c e >>= f) db =
      commit (rejectIf c e) (fun a => alone now (f a) db) db :=
  Call.solo_rejectIf_bind

theorem alone_query_bind {β : Type} {s : Statement} {a : s.Answer} {db' : Db} {f : s.Answer → Task β}
    (h : execute now db s = (db', .ok a)) :
    alone now (query s >>= f) db = alone now (f a) db' :=
  Call.solo_make_bind h

theorem getProjectDetail_alone {β : Type} {e : AppError} {f : Project → Task β} :
    alone now (getProjectDetail projectKey e >>= f) db =
      commit (okOr (db.projectKeyed projectKey) e) (fun p => alone now (f p) db) db := by
  unfold getProjectDetail
  rw [Call.bind_bind]
  exact (alone_query_bind rfl).trans alone_okOr_bind

theorem removeProjectMember_alone :
    alone now (removeProjectMember actorUserId projectKey username) db =
      commit (checkRemoveProjectMember db projectKey username)
        (fun (project, user, username) => db.byUser actorUserId
          (db.removeMember project.id user.id actorUserId username now, .ok ())) db := by
  unfold removeProjectMember checkRemoveProjectMember
  rw [alone_ofExcept_bind, commit_bind]
  refine commit_congr fun key _ => ?_
  rw [alone_ofExcept_bind, commit_bind]
  refine commit_congr fun name _ => ?_
  rw [getProjectDetail_alone, commit_bind]
  refine commit_congr fun project _ => ?_
  rw [alone_ofExcept_bind, commit_bind]
  refine commit_congr fun _ _ => ?_
  rw [alone_query_bind rfl, alone_okOr_bind, commit_bind]
  refine commit_congr fun user _ => ?_
  rw [alone_rejectIf_bind, commit_bind]
  refine commit_congr fun _ _ => ?_
  rw [alone_query_bind rfl, alone_rejectIf_bind, commit_bind]
  refine commit_congr fun _ _ => ?_
  exact Call.solo_make

/-- What `add_project_members` leaves behind its checks. -/
theorem addProjectMember_alone :
    alone now (addProjectMember actorUserId projectKey username memberRole) db =
      commit (checkAddProjectMember db projectKey username memberRole)
        (fun (project, selected, role) =>
          alone now (do
            query (.addMembers project.id actorUserId selected role)
            let members ← readMembers project.id selected
            Call.okOr members.getLast? (.notFound "项目成员添加后未找到")) db) db := by
  unfold addProjectMember checkAddProjectMember addProjectMembers
  rw [alone_ofExcept_bind, commit_bind]
  refine commit_congr fun name _ => ?_
  simp only [Call.bind_bind]
  rw [alone_ofExcept_bind, commit_bind]
  refine commit_congr fun key _ => ?_
  rw [alone_ofExcept_bind, commit_bind]
  refine commit_congr fun role _ => ?_
  rw [getProjectDetail_alone, commit_bind]
  refine commit_congr fun project _ => ?_
  rw [alone_ofExcept_bind, commit_bind]
  refine commit_congr fun _ _ => ?_
  rw [alone_query_bind rfl, alone_ofExcept_bind, commit_bind]
  refine commit_congr fun selected _ => ?_
  rw [alone_rejectIf_bind, commit_bind]
  refine commit_congr fun _ _ => ?_
  rfl

end Alone

/-! ## What the calls take -/

/-- The constraints of the tables; a project has a key that `create_project` drew. -/
structure Constrained (db : Db) : Prop where
  usernames : (db.users.map (·.username)).Nodup
  projectIds : (db.projects.map (·.id)).Nodup
  projectKeys : (db.projects.map (·.projectKey)).Nodup
  validKeys : ∀ p ∈ db.projects, validateProjectKey p.projectKey = .ok p.projectKey

/-- The key names a project that accepts writes. -/
def NamesOpenProject (db : Db) (projectKey : String) : Prop :=
  ∃ key p, validateProjectKey projectKey = .ok key ∧ db.projectKeyed key = some p ∧
    ensureProjectAcceptsWrites p.status = .ok ()

/-- The tables that the calls read to check. -/
def SameChecks (db db' : Db) : Prop :=
  db'.users = db.users ∧ db'.projects = db.projects ∧ db'.workItems = db.workItems

section Takes

variable {db db' : Db} {now actorUserId : Int} {projectKey username memberRole : String}
  {user : User}

theorem userNamed_mem (h : db.userNamed username = some user) :
    user ∈ db.users ∧ user.username = username :=
  ⟨List.mem_of_find?_eq_some h,
    beq_iff_eq.mp (List.find?_some (p := fun u : User => u.username == username) h)⟩

theorem projectKeyed_mem {p : Project} (h : db.projectKeyed projectKey = some p) :
    p ∈ db.projects ∧ p.projectKey = projectKey :=
  ⟨List.mem_of_find?_eq_some h,
    beq_iff_eq.mp (List.find?_some (p := fun q : Project => q.projectKey == projectKey) h)⟩

theorem project_isSome {p : Project} (h : p ∈ db.projects) : (db.project p.id).isSome = true := by
  unfold Db.project
  rw [List.find?_isSome]
  exact ⟨p, h, beq_self_eq_true _⟩

/-- A name that was accepted once is accepted again. -/
theorem validateUsernameRef_idem {raw : String} (h : validateUsernameRef raw = .ok username) :
    validateUsernameRef username = .ok username := by
  obtain rfl := validateUsernameRef_trim h
  unfold validateUsernameRef at h ⊢
  rw [trim_trim]
  exact h

theorem username_ne_empty (h : validateUsernameRef username = .ok username) : trim username ≠ "" := by
  intro hempty
  unfold validateUsernameRef at h
  rw [hempty] at h
  cases h

/-- The enabled user with the name. -/
theorem selectUsers_single (hdb : Constrained db) (hname : validateUsernameRef username = .ok username)
    (huser : db.userNamed username = some user) :
    selectUsers db.users [] [username] =
      if user.active then .ok [user] else .error (.badRequest "用户不存在或未启用") := by
  have htrim : trim username = username := (validateUsernameRef_trim hname).symm
  obtain ⟨hmem, hun⟩ := userNamed_mem huser
  unfold selectUsers
  rw [if_neg (username_ne_empty hname), htrim, hname, ok_bind, if_neg (by simp)]
  by_cases hactive : user.active = true
  · have hfind : db.users.find? (fun u => u.username == username && u.active) = some user := by
      have hall := find?_of_mem hdb.usernames hmem
      rw [hun] at hall
      rw [List.find?_eq_some_iff_append] at hall ⊢
      obtain ⟨_, before, after, heq, hbefore⟩ := hall
      refine ⟨by simp [hun, hactive], before, after, heq, fun u hu => ?_⟩
      have := hbefore u hu
      simp only [Bool.not_eq_true'] at this ⊢
      rw [this, Bool.false_and]
    rw [hfind, if_pos hactive]
    rfl
  · have hfind : db.users.find? (fun u => u.username == username && u.active) = none := by
      rw [List.find?_eq_none]
      intro u hu hboth
      rw [Bool.and_eq_true, beq_iff_eq] at hboth
      have heq : u = user := eq_of_key hdb.usernames hu hmem (hboth.1.trans hun.symm)
      exact hactive (heq ▸ hboth.2)
    rw [hfind, if_neg hactive]
    rfl

/-- `add_project_member` takes a role and the key of an open project, for an enabled user. -/
theorem checkAddProjectMember_ok (hdb : Constrained db)
    (hname : validateUsernameRef username = .ok username)
    (huser : db.userNamed username = some user) {r : Project × List User × MemberRole} :
    checkAddProjectMember db projectKey username memberRole = .ok r ↔
      user.active = true ∧ r.2.1 = [user] ∧ validateMemberRole memberRole = .ok r.2.2 ∧
        ∃ key, validateProjectKey projectKey = .ok key ∧ db.projectKeyed key = some r.1 ∧
          ensureProjectAcceptsWrites r.1.status = .ok () := by
  unfold checkAddProjectMember
  rw [hname, ok_bind, selectUsers_single hdb hname huser]
  obtain ⟨p, selected, role⟩ := r
  constructor
  · intro h
    obtain ⟨key, hkey, h⟩ := bind_eq_ok.mp h
    obtain ⟨role', hrole, h⟩ := bind_eq_ok.mp h
    obtain ⟨p', hp, h⟩ := bind_eq_ok.mp h
    obtain ⟨_, hopen, h⟩ := bind_eq_ok.mp h
    obtain ⟨selected', hselected, h⟩ := bind_eq_ok.mp h
    obtain ⟨_, _, h⟩ := bind_eq_ok.mp h
    cases h
    split at hselected
    · rename_i hactive
      cases hselected
      exact ⟨hactive, rfl, hrole, key, hkey, okOr_eq_ok.mp hp, hopen⟩
    · cases hselected
  · rintro ⟨hactive, hselected, hrole, key, hkey, hp, hopen⟩
    dsimp only at hselected hrole hp hopen
    rw [hkey, ok_bind, hrole, ok_bind, hp, if_pos hactive, hselected]
    show (ensureProjectAcceptsWrites p.status >>= _) = _
    rw [hopen]
    rfl

/-- `remove_project_member` takes the key of an open project that the user does not own and where it
has no unfinished work item. -/
theorem checkRemoveProjectMember_ok (hname : validateUsernameRef username = .ok username)
    (huser : db.userNamed username = some user) {r : Project × User × String} :
    checkRemoveProjectMember db projectKey username = .ok r ↔
      r.2 = (user, username) ∧ r.1.ownerUserId ≠ some user.id ∧
        db.countActiveAssigned r.1.id user.id = 0 ∧
        ∃ key, validateProjectKey projectKey = .ok key ∧ db.projectKeyed key = some r.1 ∧
          ensureProjectAcceptsWrites r.1.status = .ok () := by
  unfold checkRemoveProjectMember
  rw [hname]
  obtain ⟨p, found, name⟩ := r
  constructor
  · intro h
    obtain ⟨key, hkey, h⟩ := bind_eq_ok.mp h
    obtain ⟨name', hname', h⟩ := bind_eq_ok.mp h
    cases hname'
    obtain ⟨p', hp, h⟩ := bind_eq_ok.mp h
    obtain ⟨_, hopen, h⟩ := bind_eq_ok.mp h
    obtain ⟨found', hfound, h⟩ := bind_eq_ok.mp h
    obtain ⟨_, howner, h⟩ := bind_eq_ok.mp h
    obtain ⟨_, hcount, h⟩ := bind_eq_ok.mp h
    cases h
    rw [okOr_eq_ok, huser] at hfound
    cases hfound
    refine ⟨rfl, rejectIf_eq_ok.mp howner, ?_, key, hkey, okOr_eq_ok.mp hp, hopen⟩
    exact Nat.eq_zero_of_not_pos (rejectIf_eq_ok.mp hcount)
  · rintro ⟨hr, howner, hcount, key, hkey, hp, hopen⟩
    cases hr
    dsimp only at howner hcount hp hopen
    rw [hkey, ok_bind, ok_bind, hp]
    show (ensureProjectAcceptsWrites p.status >>= _) = _
    rw [hopen, ok_bind, huser]
    show (rejectIf (p.ownerUserId = some user.id) _ >>= _) = _
    rw [rejectIf_neg howner, ok_bind]
    dsimp only
    rw [hcount, rejectIf_neg (Nat.lt_irrefl 0)]
    rfl

theorem isMember_upsertMember (projectId userId : Int) (role : MemberRole) :
    (db.upsertMember projectId userId role now).isMember projectId userId = true := by
  unfold Db.upsertMember
  by_cases hin : db.isMember projectId userId = true
  · rw [if_pos hin]
    unfold Db.isMember updateWhere at *
    obtain ⟨m, hm, hkey⟩ := List.any_eq_true.mp hin
    rw [List.any_eq_true]
    refine ⟨_, List.mem_map_of_mem hm, ?_⟩
    rw [if_pos hkey]
    exact hkey
  · rw [if_neg hin]
    unfold Db.isMember
    rw [List.any_append, Bool.or_eq_true]
    exact .inr (by simp)

theorem member_of_isMember {projectId userId : Int} (h : db.isMember projectId userId = true) :
    ∃ m, db.member projectId userId = some m := by
  unfold Db.isMember at h
  unfold Db.member
  obtain ⟨m, hm, hkey⟩ := List.any_eq_true.mp h
  exact Option.isSome_iff_exists.mp (List.find?_isSome.mpr ⟨m, hm, hkey⟩)

theorem upsertMember_checks (projectId userId : Int) (role : MemberRole) :
    SameChecks db (db.upsertMember projectId userId role now) ∧
      (db.upsertMember projectId userId role now).activities = db.activities := by
  unfold Db.upsertMember
  split
  · exact ⟨⟨rfl, rfl, rfl⟩, rfl⟩
  · exact ⟨⟨rfl, rfl, rfl⟩, rfl⟩

/-- The transaction of `add_project_member`, and the member that is read back. -/
theorem addedMember_alone {p : Project} {role : MemberRole}
    (huser : db.userNamed user.username = some user) (hactor : (db.user actorUserId).isSome = true)
    (hp : p ∈ db.projects) : ∃ member,
      alone now (do
        query (.addMembers p.id actorUserId [user] role)
        let members ← readMembers p.id [user]
        Call.okOr members.getLast? (.notFound "项目成员添加后未找到")) db =
      (db.addMembers p.id actorUserId [user] role now, .ok (user, member)) := by
  have hrun : execute now db (.addMembers p.id actorUserId [user] role) =
      (db.addMembers p.id actorUserId [user] role now, .ok ()) := by
    show (if (db.project p.id).isSome = true then _ else _) = _
    rw [if_pos (project_isSome hp)]
    unfold Db.byUser
    rw [if_pos hactor]
  have hmember : (db.upsertMember p.id user.id role now).isMember p.id user.id = true :=
    isMember_upsertMember p.id user.id role
  have hkept : SameChecks db (db.upsertMember p.id user.id role now) :=
    (upsertMember_checks p.id user.id role).1
  obtain ⟨m, hm⟩ := member_of_isMember hmember
  have hnamed : (db.addMembers p.id actorUserId [user] role now).memberNamed p.id user.username =
      some (user, m) := by
    have hnames : (db.addMembers p.id actorUserId [user] role now).userNamed user.username =
        some user := by
      rw [← huser]
      exact congrArg (List.find? _) hkept.1
    have hread : (db.addMembers p.id actorUserId [user] role now).member p.id user.id = some m := hm
    unfold Db.memberNamed
    rw [hnames, Option.bind_some, hread]
    rfl
  refine ⟨m, ?_⟩
  rw [alone_query_bind hrun]
  unfold readMembers getProjectMember
  simp only [Call.bind_bind]
  rw [alone_query_bind (a := some (user, m)) (by rw [← hnamed]; rfl)]
  rfl

theorem checkAddProjectMember_congr (h : SameChecks db db') :
    checkAddProjectMember db' projectKey username memberRole =
      checkAddProjectMember db projectKey username memberRole := by
  obtain ⟨husers, hprojects, _⟩ := h
  unfold checkAddProjectMember Db.projectKeyed
  rw [husers, hprojects]

theorem checkRemoveProjectMember_congr (h : SameChecks db db') :
    checkRemoveProjectMember db' projectKey username =
      checkRemoveProjectMember db projectKey username := by
  obtain ⟨husers, hprojects, hitems⟩ := h
  unfold checkRemoveProjectMember Db.projectKeyed Db.userNamed Db.countActiveAssigned
  rw [husers, hprojects, hitems]

theorem user_congr (h : SameChecks db db') (id : Int) : db'.user id = db.user id := by
  unfold Db.user
  rw [h.1]

theorem SameChecks.trans {db'' : Db} (h : SameChecks db db') (h' : SameChecks db' db'') :
    SameChecks db db'' :=
  ⟨h'.1.trans h.1, h'.2.1.trans h.2.1, h'.2.2.trans h.2.2⟩

theorem Constrained.congr (h : SameChecks db db') (hdb : Constrained db) : Constrained db' := by
  obtain ⟨husers, hprojects, _⟩ := h
  constructor
  · rw [husers]
    exact hdb.usernames
  · rw [hprojects]
    exact hdb.projectIds
  · rw [hprojects]
    exact hdb.projectKeys
  · rw [hprojects]
    exact hdb.validKeys

/-- A call that adds a member whose checks pass. -/
theorem addProjectMember_ok {r : Project × List User × MemberRole} (hdb : Constrained db)
    (hname : validateUsernameRef username = .ok username)
    (huser : db.userNamed username = some user) (hactor : (db.user actorUserId).isSome = true)
    (h : checkAddProjectMember db projectKey username memberRole = .ok r) : ∃ member,
      alone now (addProjectMember actorUserId projectKey username memberRole) db =
        (db.addMembers r.1.id actorUserId [user] r.2.2 now, .ok (user, member)) := by
  obtain ⟨_, hselected, _, _, _, hp, _⟩ := (checkAddProjectMember_ok hdb hname huser).mp h
  obtain ⟨p, selected, role⟩ := r
  dsimp only at hselected hp ⊢
  rw [addProjectMember_alone, h, commit_ok, hselected]
  have hun : user.username = username := (userNamed_mem huser).2
  exact addedMember_alone (hun.symm ▸ huser) hactor (projectKeyed_mem hp).1

/-- A call that removes a member whose checks pass. -/
theorem removeProjectMember_ok {r : Project × User × String}
    (hactor : (db.user actorUserId).isSome = true)
    (h : checkRemoveProjectMember db projectKey username = .ok r) :
    alone now (removeProjectMember actorUserId projectKey username) db =
      (db.removeMember r.1.id r.2.1.id actorUserId r.2.2 now, .ok ()) := by
  obtain ⟨p, found, name⟩ := r
  rw [removeProjectMember_alone, h, commit_ok]
  dsimp only
  unfold Db.byUser
  rw [if_pos hactor]

end Takes

/-! ## Counts -/

section Counts

variable {db : Db} {userId : Int}

/-- A project with its member, as the list has them. -/
theorem mem_listUserProjectMemberships {summary : UserProjectMembershipSummary}
    (h : summary ∈ db.listUserProjectMemberships userId) :
    ∃ p ∈ db.projects, ∃ m ∈ db.members, m.userId = userId ∧ m.projectId = p.id ∧
      summary = membershipSummary (p, m) := by
  unfold Db.listUserProjectMemberships at h
  obtain ⟨j, hj, rfl⟩ := List.mem_map.mp h
  rw [mem_orderBy] at hj
  unfold Db.joinedMembers at hj
  obtain ⟨m, hm, hjoin⟩ := List.mem_filterMap.mp hj
  obtain ⟨p, hp, rfl⟩ := Option.map_eq_some_iff.mp hjoin
  obtain ⟨hmem, huser⟩ := List.mem_filter.mp hm
  refine ⟨p, List.mem_of_find?_eq_some hp, m, hmem, beq_iff_eq.mp huser, ?_, rfl⟩
  exact (beq_iff_eq.mp (List.find?_some (p := fun q : Project => q.id == m.projectId) hp)).symm

/-- An unfinished work item of the user counts for its project, where the user is a member. -/
theorem mem_pendingAssigned (hdb : Constrained db) {p : Project} (hp : p ∈ db.projects)
    {wi : WorkItem} (hwi : wi ∈ db.workItems) (hproject : wi.projectId = p.id)
    (hassignee : wi.assigneeUserId = some userId) (hactive : wi.status.isActive = true)
    (hdeleted : wi.deletedAt = none) (hmember : db.isMember p.id userId = true) :
    (p.projectKey, wi) ∈ db.pendingAssigned userId false := by
  have hfind : db.project wi.projectId = some p := by
    rw [hproject]
    exact find?_of_mem hdb.projectIds hp
  unfold Db.pendingAssigned
  rw [List.mem_filterMap]
  refine ⟨wi, List.mem_filter.mpr ⟨hwi, ?_⟩, by rw [hfind]; rfl⟩
  rw [hproject, hmember, hassignee, hactive, hdeleted, beq_self_eq_true]
  rfl

theorem countActiveAssigned_eq_zero {projectId : Int} : db.countActiveAssigned projectId userId = 0 ↔
    ∀ wi ∈ db.workItems, wi.projectId = projectId → wi.assigneeUserId = some userId →
      wi.deletedAt = none → wi.status.isActive = false := by
  unfold Db.countActiveAssigned
  rw [List.length_eq_zero_iff, List.filter_eq_nil_iff]
  refine forall₂_congr fun wi _ => ?_
  simp only [Bool.and_eq_true, beq_iff_eq, Option.isNone_iff_eq_none, Bool.not_eq_true, not_and]
  tauto

end Counts

end Projects
end Yuance
