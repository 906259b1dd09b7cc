import Yuance.Lib.Pages
import Yuance.Tokens.Limits
import Yuance.Web.Dashboard

/-!
# Yuance.Web.DashboardFigures

When the figures of the dashboard agree with each other.

* `of_count`, `of_pending`: what the two grouped queries count of one type.
* `assigned_length`: how long the list of the assigned items is under a condition.
* `figures_agree_iff`: they agree where no item falls to the cut or to the missing restriction.
-/

namespace Yuance
namespace Web
namespace Dashboard

open Lib Platform
open Tokens (Secrets plainSecrets)
open Projects (WorkItem WorkItemType ItemRow toAsciiUppercase
  listProjectSummariesForUserPaginated)
open Projects.ItemLists (TimedDb before)

/-! ## Counts of one type -/

def WorkItemAssignmentCounts.of (counts : WorkItemAssignmentCounts) : WorkItemType → Nat
  | .requirement => counts.requirements
  | .task => counts.tasks
  | .bug => counts.bugs

def ProjectPendingCounts.of (counts : ProjectPendingCounts) : WorkItemType → Nat
  | .requirement => counts.requirements
  | .task => counts.tasks
  | .bug => counts.bugs

theorem of_assign (counts : WorkItemAssignmentCounts) (entry : WorkItemType × Nat)
    (itemType : WorkItemType) :
    (counts.assign entry).of itemType =
      if entry.1 = itemType then entry.2 else counts.of itemType := by
  obtain ⟨entryType, count⟩ := entry
  cases entryType <;> cases itemType <;> rfl

/-- The types of the rows differ, so that no row overwrites another's count. -/
theorem of_foldl_assign {entries : List (WorkItemType × Nat)}
    (hnodup : (entries.map Prod.fst).Nodup) (counts : WorkItemAssignmentCounts)
    (itemType : WorkItemType) :
    (entries.foldl WorkItemAssignmentCounts.assign counts).of itemType =
      ((entries.find? fun e => e.1 = itemType).map Prod.snd).getD (counts.of itemType) := by
  induction entries generalizing counts with
  | nil => rfl
  | cons entry rest ih =>
    rw [List.map_cons, List.nodup_cons] at hnodup
    rw [List.foldl_cons, ih hnodup.2, List.find?_cons, of_assign]
    by_cases htype : entry.1 = itemType
    · have hrest : rest.find? (fun e => e.1 = itemType) = none := by
        apply List.find?_eq_none.mpr
        intro e he heq
        have hsame : e.1 = entry.1 := (of_decide_eq_true heq).trans htype.symm
        exact hnodup.1 (hsame ▸ List.mem_map_of_mem he)
      rw [hrest, if_pos htype, decide_eq_true htype]
      rfl
    · rw [if_neg htype, decide_eq_false htype]

theorem find?_counts {α κ : Type} [DecidableEq κ] (key : α → κ) (t : List α) (k : κ) :
    ((((grouped key t).map fun g => (g.1, g.2.length)).find? fun e => e.1 = k).map
      Prod.snd).getD 0 = (t.filter fun x => key x = k).length := by
  rw [← find?_grouped key t k, List.find?_map]
  have hsame : (grouped key t).find?
      ((fun e : κ × Nat => decide (e.1 = k)) ∘ fun g => (g.1, g.2.length)) =
      (grouped key t).find? fun g => g.1 = k := rfl
  rw [hsame]
  cases (grouped key t).find? fun g => g.1 = k with
  | none => rfl
  | some g => rfl

/-! ## What each query counts -/

/-- Every work item belongs to a project: `project_id .. REFERENCES projects (id)`. -/
def InProjects (db : TimedDb) : Prop := ∀ wi ∈ db.workItems, ∃ p ∈ db.projects, p.id = wi.projectId

theorem project_isSome {db : TimedDb} (hin : InProjects db) {wi : WorkItem}
    (hwi : wi ∈ db.workItems) : ∃ p, db.project wi.projectId = some p := by
  obtain ⟨p, hp, hid⟩ := hin wi hwi
  apply Option.isSome_iff_exists.mp
  unfold Projects.Db.project
  exact List.find?_isSome.mpr ⟨p, hp, beq_iff_eq.mpr hid⟩

/-- The unfinished items of the user, where it may access the project. -/
def accessible (db : Tables) (userId : Int) (canAccessAllProjects : Bool) : List WorkItem :=
  (db.openItems userId).filter fun wi => canAccessAllProjects || db.isMember wi.projectId userId

section Counts

variable {db : Tables} {userId : Int} (hin : InProjects db.toTimedDb)

theorem of_pending (projectId : Int) (itemType : WorkItemType) :
    (pendingOf (db.listProjectPendingCountsForUser userId) projectId).of itemType =
      (((db.openItems userId).filter (·.itemType = itemType)).filter
        (·.projectId = projectId)).length := by
  have hrows := find?_grouped (fun wi : WorkItem => wi.projectId) (db.openItems userId) projectId
  rw [List.filter_filter, List.filter_congr fun wi _ => Bool.and_comm _ _, ← List.filter_filter,
    ← hrows]
  unfold pendingOf Tables.listProjectPendingCountsForUser
  rw [List.find?_map]
  cases hfind : (grouped (fun wi : WorkItem => wi.projectId) (db.openItems userId)).find?
      fun g => g.1 = projectId with
  | none =>
    have hnone : (grouped (fun wi : WorkItem => wi.projectId) (db.openItems userId)).find?
        ((fun p : ProjectPendingCounts => decide (p.projectId = projectId)) ∘ fun g =>
          { projectId := g.1
            requirements := (g.2.filter (·.itemType = .requirement)).length
            tasks := (g.2.filter (·.itemType = .task)).length
            bugs := (g.2.filter (·.itemType = .bug)).length }) = none := hfind
    rw [hnone]
    cases itemType <;> rfl
  | some g =>
    have hsome : (grouped (fun wi : WorkItem => wi.projectId) (db.openItems userId)).find?
        ((fun p : ProjectPendingCounts => decide (p.projectId = projectId)) ∘ fun g =>
          { projectId := g.1
            requirements := (g.2.filter (·.itemType = .requirement)).length
            tasks := (g.2.filter (·.itemType = .task)).length
            bugs := (g.2.filter (·.itemType = .bug)).length }) = some g := hfind
    rw [hsome]
    cases itemType <;> rfl

include hin

theorem of_count (all : Bool) (itemType : WorkItemType) :
    (db.countPendingAssignedWorkItems userId all none).of itemType =
      ((accessible db userId all).filter (·.itemType = itemType)).length := by
  have hnodup (rows : List (String × WorkItem)) :
      (((grouped (fun row => row.2.itemType) rows).map fun g => (g.1, g.2.length)).map
        Prod.fst).Nodup := by
    rw [List.map_map]
    exact nodup_grouped _ rows
  have hempty : ({} : WorkItemAssignmentCounts).of itemType = 0 := by
    cases itemType <;> rfl
  have hkey : toAsciiUppercase (trim ((none : Option String).getD "")) = "" := by decide
  unfold Tables.countPendingAssignedWorkItems
  dsimp only
  rw [of_foldl_assign (hnodup _), hempty, find?_counts, hkey, List.filter_filter]
  unfold Projects.Db.pendingAssigned accessible Tables.openItems
  rw [@length_filter_filterMap _ _ _ _ _ fun wi => decide (wi.itemType = itemType)]
  · rw [List.filter_filter, List.filter_filter, List.filter_filter]
    congr 1
    apply List.filter_congr
    intro wi _
    ac_rfl
  · intro wi hwi
    obtain ⟨p, hp⟩ := project_isSome hin (List.mem_filter.mp hwi).1
    exact ⟨(p.projectKey, wi), by rw [hp]; rfl, by simp⟩

/-- A condition on the summaries of the assigned items that is one on the items. -/
theorem assigned_length (p : Projects.ItemLists.WorkItemSummary → Bool) (q : WorkItem → Bool)
    (hpq : ∀ row, p (db.summary row) = q row.item) :
    ((db.listAssignedWorkItemSummaries userId none).filter p).length =
      (db.workItems.filter fun wi => q wi && (wi.assigneeUserId == some userId
        && wi.deletedAt.isNone)).length := by
  unfold Tables.listAssignedWorkItemSummaries
  rw [List.filter_map, List.length_map, ((orderBy_perm _).filter _).length_eq, List.filter_filter]
  apply length_filter_filterMap
  intro wi hwi
  obtain ⟨p', hp'⟩ := project_isSome hin hwi
  refine ⟨{ item := wi, project := p', assignee := wi.assigneeUserId.bind db.user }, ?_, ?_⟩
  · unfold Projects.Db.itemRow
    rw [hp']
    rfl
  · rw [Function.comp_apply, hpq]
    rw [Option.all_none, Bool.and_true]

theorem unfinished_length :
    ((db.listAssignedWorkItemSummaries userId none).filter fun item =>
      !isFinished item.status).length = (db.openItems userId).length := by
  rw [assigned_length hin _ (fun wi => !isFinished wi.status) fun _ => rfl]
  unfold Tables.openItems
  congr 1
  apply List.filter_congr
  intro wi _
  unfold isFinished Projects.WorkItemStatus.isActive
  ac_rfl

theorem high_length :
    ((db.listAssignedWorkItemSummaries userId none).filter fun item =>
      isHighPriority item.priority && !isFinished item.status).length =
        ((db.openItems userId).filter fun wi => isHighPriority wi.priority).length := by
  rw [assigned_length hin _ (fun wi => isHighPriority wi.priority && !isFinished wi.status)
    fun _ => rfl]
  unfold Tables.openItems
  rw [List.filter_filter]
  congr 1
  apply List.filter_congr
  intro wi _
  unfold isFinished Projects.WorkItemStatus.isActive
  ac_rfl

end Counts

theorem length_filter_split {α : Type} (p q : α → Bool) (t : List α) :
    (t.filter p).length = ((t.filter q).filter p).length + ((t.filter (!q ·)).filter p).length := by
  rw [List.filter_comm p q, List.filter_comm p (!q ·)]
  exact List.length_eq_length_filter_add q

/-- Every item is of one of the three types. -/
theorem length_by_type (items : List WorkItem) :
    (items.filter (·.itemType = .requirement)).length + (items.filter (·.itemType = .task)).length
      + (items.filter (·.itemType = .bug)).length = items.length := by
  induction items with
  | nil => rfl
  | cons wi items ih =>
    rw [List.length_cons, ← ih]
    cases htype : wi.itemType <;> simp [htype] <;> omega

/-! ## The response -/

section Response

variable {S : Secrets} {now : String} {headers : Headers} {db : Tables} {principal : ApiPrincipal}
  {payload : DashboardPayload}

/-- What the metrics and the projects of a response are made of. -/
structure MadeOf (db : Tables) (user : AuthUser) (payload : DashboardPayload) : Prop where
  projects : ∃ summaries,
    db.listProjectSummariesForUser user.id (apiUserCanAccessAllProjects db.access user) =
      .ok summaries ∧
    payload.projects =
      summaries.map (dashboardProjectPayload (db.listProjectPendingCountsForUser user.id))
  counts : ∀ assigned, assigned = db.countPendingAssignedWorkItems user.id
      (apiUserCanAccessAllProjects db.access user) none →
    payload.metrics.requirements = assigned.of .requirement ∧
    payload.metrics.tasks = assigned.of .task ∧ payload.metrics.bugs = assigned.of .bug
  assignedTotal : payload.metrics.assignedTotal =
    min dashboardAssignedItemLimit ((db.listAssignedWorkItemSummaries user.id none).filter
      fun item => !isFinished item.status).length
  highPriority : payload.metrics.highPriority =
    ((db.listAssignedWorkItemSummaries user.id none).filter fun item =>
      isHighPriority item.priority && !isFinished item.status).length

theorem visibleSummaries_eq {user : AuthUser} {all : Bool}
    {summaries : List Projects.ProjectSummary}
    (h : visibleSummaries S now headers db user all true = .ok summaries) :
    db.listProjectSummariesForUser user.id all = .ok summaries := by
  unfold visibleSummaries at h
  rw [if_pos rfl] at h
  obtain ⟨_, _, h⟩ := bind_eq_ok.mp h
  exact h

theorem visiblePendingCounts_eq {user : AuthUser} {counts : List ProjectPendingCounts}
    (h : visiblePendingCounts S now headers db user true = .ok counts) :
    counts = db.listProjectPendingCountsForUser user.id := by
  unfold visiblePendingCounts at h
  rw [if_pos rfl] at h
  obtain ⟨_, _, h⟩ := bind_eq_ok.mp h
  exact (Except.ok.inj h).symm

theorem getDashboard_madeOf
    (hprincipal : requireD2ApiPrincipal S now headers db.access = .ok principal)
    (hprojects : db.access.userHasPermission principal.user.id "project.view" = true)
    (hitems : db.access.userHasPermission principal.user.id "work_item.view" = true)
    (h : getDashboard S now headers db = .ok payload) : MadeOf db principal.user payload := by
  unfold getDashboard at h
  rw [hprincipal, ok_bind] at h
  dsimp only at h
  rw [hprojects, hitems] at h
  obtain ⟨summaries, hsummaries, h⟩ := bind_eq_ok.mp h
  obtain ⟨pendingByProject, hpending, h⟩ := bind_eq_ok.mp h
  obtain ⟨_, _, h⟩ := bind_eq_ok.mp h
  cases visiblePendingCounts_eq hpending
  cases h
  refine ⟨⟨summaries, visibleSummaries_eq hsummaries, rfl⟩, ?_, ?_, rfl⟩
  · rintro _ rfl
    exact ⟨rfl, rfl, rfl⟩
  · exact (List.length_map _).trans List.length_take

/-! ## The figures -/

/-- The figures of the response agree with each other and with the unfinished items of the user. -/
structure FiguresAgree (db : Tables) (user : AuthUser) (payload : DashboardPayload) : Prop where
  assignedTotal : payload.metrics.assignedTotal =
    payload.metrics.requirements + payload.metrics.tasks + payload.metrics.bugs
  total : payload.metrics.assignedTotal =
    (accessible db user.id (apiUserCanAccessAllProjects db.access user)).length
  highPriority : payload.metrics.highPriority =
    ((accessible db user.id (apiUserCanAccessAllProjects db.access user)).filter fun wi =>
      isHighPriority wi.priority).length
  byProject : apiUserCanAccessAllProjects db.access user = true →
    (payload.projects.map (·.pendingRequirements)).sum = payload.metrics.requirements ∧
    (payload.projects.map (·.pendingTasks)).sum = payload.metrics.tasks ∧
    (payload.projects.map (·.pendingBugs)).sum = payload.metrics.bugs

/-- The unfinished items of the user in projects that it may not access. -/
def inaccessible (db : Tables) (user : AuthUser) : List WorkItem :=
  (db.openItems user.id).filter fun wi =>
    !(apiUserCanAccessAllProjects db.access user || db.isMember wi.projectId user.id)

/-- No unfinished item lies in a project that the user may not access and none falls to the cut; or
the cut leaves as many as the user may access, and none of the others has a high priority. -/
def Unaffected (db : Tables) (user : AuthUser) : Prop :=
  let within := accessible db user.id (apiUserCanAccessAllProjects db.access user)
  (inaccessible db user = [] ∧ within.length ≤ dashboardAssignedItemLimit) ∨
    (inaccessible db user ≠ [] ∧ within.length = dashboardAssignedItemLimit ∧
      ∀ wi ∈ inaccessible db user, isHighPriority wi.priority = false)

/-- The counts of the listed projects add up to the counts of the items. -/
theorem sum_pending (hdb : Projects.Stored db.toDb) (hin : InProjects db.toTimedDb) (userId : Int)
    (itemType : WorkItemType) :
    (db.recent.map fun p => (pendingOf (db.listProjectPendingCountsForUser userId) p.id).of
      itemType).sum = ((db.openItems userId).filter (·.itemType = itemType)).length := by
  have hids : (db.recent.map (·.id)).Nodup :=
    ((orderBy_perm _).map _).nodup_iff.mpr hdb.ids
  have hcover : ∀ wi ∈ (db.openItems userId).filter (·.itemType = itemType),
      wi.projectId ∈ db.recent.map (·.id) := by
    intro wi hwi
    obtain ⟨p, hp, hid⟩ := hin wi (List.mem_filter.mp (List.mem_filter.mp hwi).1).1
    exact List.mem_map.mpr ⟨p, Projects.mem_recent.mpr hp, hid⟩
  rw [← @sum_counts WorkItem Int _ (·.projectId) _ _ hids hcover, List.map_map]
  congr 1
  apply List.map_congr_left
  intro p _
  exact of_pending p.id itemType

/-- An administrator's list shows every project. -/
theorem summaries_eq (hdb : Projects.Stored db.toDb) (userId : Int) :
    db.listProjectSummariesForUser userId true = .ok (db.recent.map db.toDb.summary) := by
  have hfilter : Projects.normalizeProjectFilter { status := "", keyword := "" } =
      .ok { status := none, keyword := "", keywordLike := "" } := rfl
  have hpagination : Projects.normalizePagination { page := 1, perPage := Int64.maxValue } =
      .ok { page := 1, perPage := Int64.maxValue } := rfl
  unfold Tables.listProjectSummariesForUser listProjectSummariesForUserPaginated
  rw [if_pos rfl]
  unfold Projects.listProjectSummariesPaginated
  rw [hfilter, ok_bind, hpagination, ok_bind]
  have hall : db.recent.filter (fun p =>
      Projects.NormalizedProjectFilter.hasStatus ⟨none, "", ""⟩ p &&
        Projects.NormalizedProjectFilter.hasKeyword ⟨none, "", ""⟩ p) = db.recent :=
    List.filter_eq_self.mpr fun _ _ => rfl
  rw [Projects.wholePage hdb, hall]
  rfl

variable (hdb : Projects.Stored db.toDb) (hin : InProjects db.toTimedDb)
include hdb hin

theorem byProject_sums {user : AuthUser} (h : MadeOf db user payload)
    (hall : apiUserCanAccessAllProjects db.access user = true) :
    (payload.projects.map (·.pendingRequirements)).sum = payload.metrics.requirements ∧
    (payload.projects.map (·.pendingTasks)).sum = payload.metrics.tasks ∧
    (payload.projects.map (·.pendingBugs)).sum = payload.metrics.bugs := by
  obtain ⟨summaries, hsummaries, hprojects⟩ := h.projects
  rw [hall, summaries_eq hdb, Except.ok.injEq] at hsummaries
  obtain ⟨hrequirements, htasks, hbugs⟩ := h.counts _ rfl
  have hwhole : accessible db user.id true = db.openItems user.id := by
    unfold accessible
    exact List.filter_eq_self.mpr fun _ _ => rfl
  have hsum := sum_pending hdb hin user.id
  rw [hprojects, ← hsummaries, hrequirements, htasks, hbugs, hall, of_count hin, of_count hin,
    of_count hin, hwhole]
  simp only [List.map_map]
  exact ⟨hsum .requirement, hsum .task, hsum .bug⟩

theorem figures_agree_iff
    (hprincipal : requireD2ApiPrincipal S now headers db.access = .ok principal)
    (hprojects : db.access.userHasPermission principal.user.id "project.view" = true)
    (hitems : db.access.userHasPermission principal.user.id "work_item.view" = true)
    (h : getDashboard S now headers db = .ok payload) :
    FiguresAgree db principal.user payload ↔ Unaffected db principal.user := by
  have hmade := getDashboard_madeOf hprincipal hprojects hitems h
  obtain ⟨hrequirements, htasks, hbugs⟩ := hmade.counts _ rfl
  rw [of_count hin] at hrequirements htasks hbugs
  have htotal := hmade.assignedTotal
  rw [unfinished_length hin] at htotal
  have hhigh := hmade.highPriority
  rw [high_length hin] at hhigh
  have htypes := length_by_type
    (accessible db principal.user.id (apiUserCanAccessAllProjects db.access principal.user))
  rw [← hrequirements, ← htasks, ← hbugs] at htypes
  -- the unfinished items are those that the user may access and the others
  have hlength : (db.openItems principal.user.id).length =
      (accessible db principal.user.id
        (apiUserCanAccessAllProjects db.access principal.user)).length +
      (inaccessible db principal.user).length :=
    List.length_eq_length_filter_add _
  have hhighs : ((db.openItems principal.user.id).filter fun wi =>
      isHighPriority wi.priority).length =
      ((accessible db principal.user.id
        (apiUserCanAccessAllProjects db.access principal.user)).filter fun wi =>
          isHighPriority wi.priority).length +
      ((inaccessible db principal.user).filter fun wi => isHighPriority wi.priority).length := by
    exact length_filter_split _ _ _
  constructor
  · intro hagree
    have hcut := hagree.total
    have hsame := hagree.highPriority
    rw [htotal, hlength] at hcut
    rw [hhigh, hhighs] at hsame
    by_cases hnone : inaccessible db principal.user = []
    · refine .inl ⟨hnone, ?_⟩
      rw [hnone, List.length_nil] at hcut
      omega
    · refine .inr ⟨hnone, ?_, ?_⟩
      · have hpos := List.length_pos_iff.mpr hnone
        omega
      · intro wi hwi
        have hzero : ((inaccessible db principal.user).filter fun wi =>
            isHighPriority wi.priority).length = 0 := by omega
        have hnot := List.filter_eq_nil_iff.mp (List.length_eq_zero_iff.mp hzero) wi hwi
        exact Bool.eq_false_iff.mpr hnot
  · intro hunaffected
    have hcut : payload.metrics.assignedTotal = (accessible db principal.user.id
        (apiUserCanAccessAllProjects db.access principal.user)).length := by
      rw [htotal, hlength]
      rcases hunaffected with ⟨hnone, hle⟩ | ⟨_, heq, _⟩
      · rw [hnone, List.length_nil]
        omega
      · omega
    refine ⟨hcut.trans htypes.symm, hcut, ?_, byProject_sums hdb hin hmade⟩
    rw [hhigh, hhighs]
    have hzero : ((inaccessible db principal.user).filter fun wi =>
        isHighPriority wi.priority).length = 0 := by
      rcases hunaffected with ⟨hnone, _⟩ | ⟨_, _, hlow⟩
      · rw [hnone]
        rfl
      · apply List.length_eq_zero_iff.mpr
        apply List.filter_eq_nil_iff.mpr
        intro wi hwi hpriority
        rw [hlow wi hwi] at hpriority
        cases hpriority
    omega

end Response

/-! ## Cases -/

/-- One member of one project, who is assigned the given number of open tasks. -/
def assignedTasks (count : Nat) : Tables where
  users := [{ id := 1, username := "ann", displayName := "Ann", active := true }]
  projects := [{ id := 1, projectKey := "PA", name := "Alpha", description := ""
                 status := .inProgress, ownerUserId := some 1, startDate := none, dueDate := none
                 updatedAt := 0 }]
  nextProject := 2
  members := [{ projectId := 1, userId := 1, role := .member, joinedAt := 0 }]
  workItems := (List.range count).map fun i =>
    { id := i + 1, projectId := 1, itemKey := "PA-" ++ toString i, itemType := .task, title := "t"
      description := "", status := .opened, priority := .p2, assigneeUserId := some 1
      reporterUserId := some 1, parentWorkItemId := none, cycleId := none, dueDate := none
      completedAt := none, deletedAt := none, deletedByUserId := none }
  nextWorkItem := count + 1
  cycles := []
  comments := []
  activities := []
  unavailable := []
  createdAt _ := 0
  updatedAt _ := 0
  accounts :=
    { superAdmins := [], apiTokens := []
      roles := [{ id := 1, active := true, allData := false
                  permissionKeys := ["project.view", "work_item.view"] }]
      userRoles := [(1, 1)] }
  notifications := []
  activityLog := []

def ann : AuthUser := { id := 1, username := "ann", displayName := "Ann", isSuperAdmin := false }

/-- A request from a browser session. -/
def annHeaders : Headers where
  bearerToken := none
  fromDevice := false
  login := some ann
  csrf := .ok ()

theorem assignedTasks_stored (count : Nat) : Projects.Stored (assignedTasks count).toDb where
  ids := List.nodup_singleton 1
  range := by
    intro p hp
    rw [List.mem_singleton.mp hp]
    decide

theorem assignedTasks_inProjects (count : Nat) : InProjects (assignedTasks count).toTimedDb := by
  intro wi hwi
  obtain ⟨_, _, rfl⟩ := List.mem_map.mp hwi
  exact ⟨_, List.mem_singleton.mpr rfl, rfl⟩

theorem assignedTasks_principal (count : Nat) :
    requireD2ApiPrincipal plainSecrets "now" annHeaders (assignedTasks count).access =
      .ok { user := ann, tokenActor := none } := rfl

/-- A request that the session and the permissions of the user admit. -/
theorem figures_agree_two_tasks :
    ∃ payload, getDashboard plainSecrets "now" annHeaders (assignedTasks 2) = .ok payload ∧
      FiguresAgree (assignedTasks 2) ann payload := by
  cases hrun : getDashboard plainSecrets "now" annHeaders (assignedTasks 2) with
  | error e =>
    have hok : (getDashboard plainSecrets "now" annHeaders
        (assignedTasks 2)).toOption.isSome = true := by decide +kernel
    rw [hrun] at hok
    cases hok
  | ok payload =>
    refine ⟨payload, rfl, ?_⟩
    have hiff := @figures_agree_iff plainSecrets "now" annHeaders (assignedTasks 2)
      { user := ann, tokenActor := none } payload (assignedTasks_stored 2)
      (assignedTasks_inProjects 2) (assignedTasks_principal 2) (by decide +kernel)
      (by decide +kernel) hrun
    exact hiff.mpr (.inl ⟨by decide +kernel, by decide +kernel⟩)

/-- Of seven open tasks, the total that is reported leaves out one. -/
theorem seventh_task_uncounted :
    ¬ ∀ (S : Secrets) (now : String) (headers : Headers) (db : Tables) (principal : ApiPrincipal)
      (payload : DashboardPayload), Projects.Stored db.toDb → InProjects db.toTimedDb →
      requireD2ApiPrincipal S now headers db.access = .ok principal →
      db.access.userHasPermission principal.user.id "project.view" = true →
      db.access.userHasPermission principal.user.id "work_item.view" = true →
      getDashboard S now headers db = .ok payload → FiguresAgree db principal.user payload := by
  intro hall
  have hfigures : ((getDashboard plainSecrets "now" annHeaders (assignedTasks 7)).toOption.map
      fun payload => (payload.metrics.assignedTotal, payload.metrics.requirements +
        payload.metrics.tasks + payload.metrics.bugs)) = some (6, 7) := by decide +kernel
  cases hrun : getDashboard plainSecrets "now" annHeaders (assignedTasks 7) with
  | error e =>
    rw [hrun] at hfigures
    cases hfigures
  | ok payload =>
    have hagree := hall _ _ _ _ _ payload (assignedTasks_stored 7) (assignedTasks_inProjects 7)
      (assignedTasks_principal 7) (by decide +kernel) (by decide +kernel) hrun
    rw [hrun] at hfigures
    have hpair := Prod.mk.inj (Option.some.inj hfigures)
    have htotal := hagree.assignedTotal
    rw [hpair.1, hpair.2] at htotal
    cases htotal

end Dashboard
end Web
end Yuance
