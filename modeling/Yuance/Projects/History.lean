import Yuance.Projects.Operations

/-!
# Yuance.Projects.History

The statuses that a work item goes through while calls run beside each other. A call checks the next
status against the row that it read before its transaction, and the transaction does not look at the
row again.

* `Checked`: what every transaction of a call has checked, on the row that it read.
* `StillRead`: the row is as it was read.
* `LegalCommit`: what should hold of a transaction and the rows it finds.
-/

namespace Yuance
namespace Projects

open Lib Platform

/-- The `previous_status` of a log entry. -/
def ActivityKind.previousStatus? : ActivityKind → Option WorkItemStatus
  | statusUpdated _ previousStatus => some previousStatus
  | handoff _ previousStatus _ => some previousStatus
  | assigned _ previousStatus _ _ => some previousStatus
  | itemUpdated _ previousStatus _ _ _ _ => some previousStatus
  | _ => none

/-- The table of the transitions, or no transition. -/
def Allowed (source target : WorkItemStatus) : Prop :=
  target = source ∨ target ∈ allowedWorkItemStatusTransitions source

theorem allowed_of_ok {source target : WorkItemStatus} {u : Unit}
    (h : ensureWorkItemStatusTransition source target = .ok u) : Allowed source target := by
  have h' := Classical.not_not.mp (rejectIf_eq_ok.mp h)
  rcases h' with rfl | hmem
  · exact .inl rfl
  · exact .inr hmem

/-- A change of status was checked and is recorded, both with the row that was read; only a batch
looks at the type of the work item too. -/
structure ItemWrite.Checked (batch : Bool) (w : ItemWrite) (s : WorkItemStatus) : Prop where
  allowed : Allowed w.read.status s
  recorded : w.activities.filterMap (·.kind.previousStatus?) = [w.read.status]
  kept : ∀ u, w.change = .handoff s (.kept u) → u = w.read.assigneeUserId
  supported : w.change = .batchStatus s →
    batch = true ∧ s ∈ workItemStatusSupported w.read.itemType

/-- What a call has checked of its transaction. -/
def Checked (batch : Bool) : Statement → Prop
  | .writeItems _ writes => ∀ w ∈ writes, ∀ s, w.change.status? = some s → w.Checked batch s
  | .setMemberRole _ _ _ _ _ role => role ≠ .owner
  | _ => True

/-- The statement is not a transaction. -/
def IsRead : Statement → Prop
  | .insertProject _ => False
  | .updateProject _ => False
  | .addMembers .. => False
  | .removeMember .. => False
  | .setMemberRole .. => False
  | .insertItem _ => False
  | .writeItems .. => False
  | .archiveItem .. => False
  | .restoreItem .. => False
  | _ => True

theorem perform_read {st : Statement} (h : IsRead st) (m : Moment) (db : Db) :
    (perform m st db).1 = db := by
  rcases perform_written m st db with heq | heq
  · exact heq
  · rw [heq]
    cases st with
    | insertProject _ => exact absurd h id
    | updateProject _ => exact absurd h id
    | addMembers _ _ _ _ => exact absurd h id
    | removeMember _ _ _ _ => exact absurd h id
    | setMemberRole _ _ _ _ _ _ => exact absurd h id
    | insertItem _ => exact absurd h id
    | writeItems _ _ => exact absurd h id
    | archiveItem _ _ => exact absurd h id
    | restoreItem _ _ => exact absurd h id
    | _ => rfl

/-! ## Every call checks before it writes -/

section Calls

/-- Every statement of the call meets `P`. -/
def Makes (P : Statement → Prop) {α : Type} (p : Task α) : Prop := Issues P (fun _ => True) p

/-- Each transaction of the call was checked. -/
def Reads (batch : Bool) {α : Type} (p : Task α) : Prop := Makes (Checked batch) p

/-- The call makes no transaction. -/
def Looks {α : Type} (p : Task α) : Prop := Makes IsRead p

variable {P : Statement → Prop} {batch : Bool}

/-- A call that only looks follows every rule that lookups follow. -/
theorem Looks.makes {α : Type} {p : Task α} (h : Looks p) (hread : ∀ s, IsRead s → P s) :
    Makes P p := issues_mono h hread

theorem checked_of_read {s : Statement} (hs : IsRead s) : Checked batch s := by
  cases s with
  | writeItems actorUserId writes => exact absurd hs id
  | setMemberRole projectId userId actorUserId username oldRole role => exact absurd hs id
  | _ => trivial

theorem Looks.reads {α : Type} {p : Task α} (h : Looks p) : Reads batch p :=
  h.makes fun _ => checked_of_read

theorem makes_query {s : Statement} (h : P s) : Makes P (query s) := issues_make h fun _ => trivial

theorem makes_bind {α β : Type} {p : Task α} {f : α → Task β} (h : Makes P p)
    (hf : ∀ a, Makes P (f a)) : Makes P (p >>= f) := issues_bind h fun a _ => hf a

theorem makes_check {α : Type} {x : Except AppError α} : Makes P (Call.ofExcept x) :=
  issues_check fun _ _ => trivial

theorem makes_okOr {α : Type} {o : Option α} {e : AppError} : Makes P (Call.okOr o e) :=
  issues_okOr fun _ _ => trivial

theorem makes_rejectIf {c : Prop} [Decidable c] {e : AppError} : Makes P (Call.rejectIf c e) :=
  issues_rejectIf fun _ => trivial

theorem makes_done {α : Type} {a : α} : Makes P (pure a) := issues_done trivial

/-- A read and the error where it finds nothing. -/
theorem makes_found {s : Statement} {α : Type} {o : s.Answer → Option α} {e : AppError}
    (h : P s) : Makes P (query s >>= fun a => Call.okOr (o a) e) :=
  makes_bind (makes_query h) fun _ => makes_okOr

theorem getProjectDetail_looks (projectKey : String) (missing : AppError) :
    Looks (getProjectDetail projectKey missing) := makes_found trivial

theorem getItem_looks (itemKey : String) : Looks (getItem itemKey) := makes_found trivial

theorem getWorkItemDetail_looks (itemKey : String) (missing : AppError) :
    Looks (getWorkItemDetail itemKey missing) := by
  unfold getWorkItemDetail
  refine makes_bind (makes_query trivial) fun _ => ?_
  exact makes_bind makes_okOr fun _ => makes_done

theorem resolveProjectMember_looks (projectId : Int) (username : String) :
    Looks (resolveProjectMember projectId username) := by
  unfold resolveProjectMember
  exact makes_bind makes_check fun _ => makes_found trivial

theorem resolveProjectCycle_looks (projectId : Int) (cycleId : Option Int) :
    Looks (resolveProjectCycle projectId cycleId) := by
  cases cycleId with
  | none => exact makes_done
  | some cycleId =>
    unfold resolveProjectCycle
    refine makes_bind makes_rejectIf fun _ => ?_
    refine makes_bind (makes_query trivial) fun _ => ?_
    exact makes_bind makes_okOr fun _ => makes_done

theorem resolveParentWorkItemId_looks (projectId : Int) (itemType : WorkItemType)
    (parentItemKey : String) :
    Looks (resolveParentWorkItemId projectId itemType parentItemKey) := by
  unfold resolveParentWorkItemId
  split
  · exact makes_done
  · refine makes_bind makes_rejectIf fun _ => ?_
    refine makes_bind makes_check fun _ => ?_
    refine makes_bind (makes_query trivial) fun _ => ?_
    exact makes_bind makes_okOr fun _ => makes_done

theorem getProjectMember_looks (projectId : Int) (username : String) (missing : AppError) :
    Looks (getProjectMember projectId username missing) := makes_found trivial

theorem readMembers_looks (projectId : Int) (users : List User) :
    Looks (readMembers projectId users) := by
  induction users with
  | nil => exact makes_done
  | cons user rest ih =>
    refine makes_bind (getProjectMember_looks _ _ _) fun _ => ?_
    exact makes_bind ih fun _ => makes_done

/-! The calls whose transaction rests on nothing that was read make it under any rule that allows it
and every lookup. -/

section Rules

variable (hread : ∀ s, IsRead s → P s)

include hread in
theorem createAttempts_makes (hinsert : ∀ p, P (.insertProject p)) (insert : String → ProjectInsert)
    (keys : Nat → String) (n left : Nat) : Makes P (createAttempts insert keys n left) := by
  induction left generalizing n with
  | zero => exact issues_fail
  | succ left ih =>
    unfold createAttempts
    refine makes_bind (makes_query (hinsert _)) fun projectId => ?_
    cases projectId with
    | none => exact ih (n + 1)
    | some _ => exact (getProjectDetail_looks _ _).makes hread

include hread in
theorem createProject_makes (hinsert : ∀ p, P (.insertProject p)) (actorUserId : Int)
    (input : CreateProjectInput) (keys : Nat → String) :
    Makes P (createProject actorUserId input keys) :=
  makes_bind makes_check fun _ => createAttempts_makes hread hinsert _ _ _ _

include hread in
theorem updateProject_makes (hupdate : ∀ u, P (.updateProject u)) (actorUserId : Int)
    (projectKey : String) (input : UpdateProjectInput) :
    Makes P (updateProject actorUserId projectKey input) := by
  unfold updateProject
  refine makes_bind makes_check fun checked => ?_
  refine makes_bind ((getProjectDetail_looks _ _).makes hread) fun project => ?_
  refine makes_bind makes_check fun _ => ?_
  refine makes_bind (makes_query (hread _ trivial)) fun _ => ?_
  refine makes_bind makes_okOr fun _ => ?_
  exact makes_bind (makes_query (hupdate _)) fun _ => (getProjectDetail_looks _ _).makes hread

include hread in
theorem addProjectMembers_makes
    (hadd : ∀ projectId actorUserId selected role,
      P (.addMembers projectId actorUserId selected role))
    (actorUserId : Int) (projectKey : String) (usernames : List String) (memberRole : String) :
    Makes P (addProjectMembers actorUserId projectKey usernames memberRole) := by
  unfold addProjectMembers
  refine makes_bind makes_check fun _ => ?_
  refine makes_bind makes_check fun role => ?_
  refine makes_bind ((getProjectDetail_looks _ _).makes hread) fun project => ?_
  refine makes_bind makes_check fun _ => ?_
  refine makes_bind (makes_query (hread _ trivial)) fun _ => ?_
  refine makes_bind makes_check fun selected => ?_
  refine makes_bind makes_rejectIf fun _ => ?_
  exact makes_bind (makes_query (hadd _ _ _ _)) fun _ => (readMembers_looks _ _).makes hread

include hread in
theorem updateProjectMemberRole_makes
    (hset : ∀ projectId userId actorUserId username oldRole role, role ≠ .owner →
      P (.setMemberRole projectId userId actorUserId username oldRole role))
    (actorUserId : Int) (projectKey username memberRole : String) :
    Makes P (updateProjectMemberRole actorUserId projectKey username memberRole) := by
  unfold updateProjectMemberRole
  refine makes_bind makes_check fun _ => ?_
  refine makes_bind makes_check fun username => ?_
  refine makes_bind makes_check fun role => ?_
  apply issues_bind (Q := fun _ => role ≠ .owner)
  · exact issues_rejectIf fun h => h
  intro _ hrole
  refine makes_bind ((getProjectDetail_looks _ _).makes hread) fun project => ?_
  refine makes_bind makes_check fun _ => ?_
  refine makes_bind ((getProjectMember_looks _ _ _).makes hread) fun found => ?_
  unfold changeRole
  refine makes_bind makes_rejectIf fun _ => ?_
  split
  · exact (getProjectMember_looks _ _ _).makes hread
  · refine makes_bind (makes_query (hset _ _ _ _ _ _ hrole)) fun _ => ?_
    exact (getProjectMember_looks _ _ _).makes hread

include hread in
theorem archiveWorkItem_makes (harchive : ∀ read actorUserId, P (.archiveItem read actorUserId))
    (actorUserId : Int) (itemKey : String) : Makes P (archiveWorkItem actorUserId itemKey) := by
  unfold archiveWorkItem
  refine makes_bind (makes_query (hread _ trivial)) fun _ => ?_
  refine makes_bind makes_okOr fun row => ?_
  refine makes_bind makes_check fun _ => ?_
  split
  · exact (getWorkItemDetail_looks _ _).makes hread
  · refine makes_bind (makes_query (harchive _ _)) fun _ => ?_
    exact (getWorkItemDetail_looks _ _).makes hread

include hread in
theorem restoreWorkItem_makes
    (hrestore : ∀ itemKey actorUserId, P (.restoreItem itemKey actorUserId)) (actorUserId : Int)
    (itemKey : String) : Makes P (restoreWorkItem actorUserId itemKey) :=
  makes_bind (makes_query (hrestore _ _)) fun _ => (getWorkItemDetail_looks _ _).makes hread

include hread in
theorem removeProjectMember_makes
    (hremove : ∀ projectId userId actorUserId username,
      P (.removeMember projectId userId actorUserId username))
    (actorUserId : Int) (projectKey username : String) :
    Makes P (removeProjectMember actorUserId projectKey username) := by
  unfold removeProjectMember
  refine makes_bind makes_check fun _ => ?_
  refine makes_bind makes_check fun _ => ?_
  refine makes_bind ((getProjectDetail_looks _ _).makes hread) fun project => ?_
  refine makes_bind makes_check fun _ => ?_
  refine makes_bind (makes_query (hread _ trivial)) fun _ => ?_
  refine makes_bind makes_okOr fun user => ?_
  refine makes_bind makes_rejectIf fun _ => ?_
  refine makes_bind (makes_query (hread _ trivial)) fun _ => ?_
  exact makes_bind makes_rejectIf fun _ => makes_query (hremove _ _ _ _)

include hread in
theorem createWorkItem_makes (hinsert : ∀ insert, P (.insertItem insert)) (actorUserId : Int)
    (input : CreateWorkItemInput) : Makes P (createWorkItem actorUserId input) := by
  unfold createWorkItem createWorkItemWithCycle
  refine makes_bind makes_check fun checked => ?_
  refine makes_bind ((getProjectDetail_looks _ _).makes hread) fun project => ?_
  refine makes_bind makes_check fun _ => ?_
  refine makes_bind ((resolveParentWorkItemId_looks _ _ _).makes hread) fun _ => ?_
  refine makes_bind ((resolveProjectCycle_looks _ _).makes hread) fun _ => ?_
  refine makes_bind ?_ fun _ => ?_
  · unfold newAssignee
    split
    · exact makes_done
    · exact makes_bind ((resolveProjectMember_looks _ _).makes hread) fun _ => makes_done
  exact makes_bind (makes_query (hinsert _)) fun _ => (getWorkItemDetail_looks _ _).makes hread

end Rules

theorem updateWorkItemStatus_reads (actorUserId : Int) (itemKey status : String) :
    Reads batch (updateWorkItemStatus actorUserId itemKey status) := by
  unfold updateWorkItemStatus
  refine makes_bind makes_check fun status => ?_
  refine makes_bind (getItem_looks itemKey).reads fun row => ?_
  refine makes_bind makes_check fun _ => ?_
  apply issues_bind (Q := fun _ => Allowed row.item.status status)
  · exact issues_check fun _ h => allowed_of_ok h
  intro _ hallowed
  refine makes_bind (makes_query ?_) fun _ => (getWorkItemDetail_looks _ _).reads
  intro w hw s hs
  obtain rfl := List.mem_singleton.mp hw
  obtain rfl := Option.some.inj hs
  refine ⟨hallowed, rfl, ?_, ?_⟩
  · intro u h
    cases h
  · intro h
    cases h

theorem handoffAssignee_issues (row : ItemRow) (assigneeUsername : String) :
    Issues (Checked batch) (fun next => ∀ u, next.1 = .kept u → u = row.item.assigneeUserId)
      (handoffAssignee row assigneeUsername) := by
  unfold handoffAssignee
  split
  · apply issues_done
    intro u h
    cases h
    rfl
  · apply issues_bind (resolveProjectMember_looks _ _).reads
    intro user _
    apply issues_done
    intro u h
    cases h

theorem handoffWorkItem_reads (actorUserId : Int) (itemKey : String)
    (input : HandoffWorkItemInput) : Reads batch (handoffWorkItem actorUserId itemKey input) := by
  unfold handoffWorkItem
  refine makes_bind makes_check fun status => ?_
  refine makes_bind makes_check fun body => ?_
  refine makes_bind (getItem_looks itemKey).reads fun row => ?_
  unfold applyHandoff
  refine makes_bind makes_check fun _ => ?_
  apply issues_bind (Q := fun _ => Allowed row.item.status status)
  · exact issues_check fun _ h => allowed_of_ok h
  intro _ hallowed
  refine makes_bind ?_ fun _ => ?_
  · cases input.sourceCommentId with
    | none => exact makes_done
    | some commentId =>
      refine makes_bind (makes_query trivial) fun _ => ?_
      exact makes_bind makes_okOr fun _ => makes_done
  apply issues_bind (handoffAssignee_issues row _)
  intro next hkept
  refine makes_bind makes_rejectIf fun _ => ?_
  refine makes_bind (makes_query ?_) fun _ => (getWorkItemDetail_looks _ _).reads
  intro w hw s hs
  obtain rfl := List.mem_singleton.mp hw
  obtain rfl := Option.some.inj hs
  refine ⟨hallowed, rfl, ?_, ?_⟩
  · intro u h
    exact hkept u (ItemChange.handoff.inj h).2
  · intro h
    cases h

/-- An edit records the status once, beside the cycle. -/
theorem editActivities_recorded (actorUserId : Int) (item : WorkItem) (edit : ItemEdit)
    (assigneeUsername dueDate parentItemKey : String) :
    (editActivities actorUserId item edit assigneeUsername dueDate parentItemKey).filterMap
      (·.kind.previousStatus?) = [item.status] := by
  unfold editActivities
  split
  · rfl
  · rfl

theorem updateWorkItem_reads (actorUserId : Int) (itemKey : String) (input : UpdateWorkItemInput) :
    Reads batch (updateWorkItem actorUserId itemKey input) := by
  unfold updateWorkItem
  refine makes_bind makes_check fun checked => ?_
  refine makes_bind (getItem_looks itemKey).reads fun row => ?_
  unfold applyEdit
  refine makes_bind makes_rejectIf fun _ => ?_
  refine makes_bind makes_check fun _ => ?_
  apply issues_bind (Q := fun _ => Allowed row.item.status checked.1.status)
  · exact issues_check fun _ h => allowed_of_ok h
  intro _ hallowed
  refine makes_bind (resolveParentWorkItemId_looks _ _ _).reads fun _ => ?_
  refine makes_bind ?_ fun _ => ?_
  · unfold editAssignee
    split
    · exact makes_done
    · exact makes_bind (resolveProjectMember_looks _ _).reads fun _ => makes_done
  refine makes_bind (resolveProjectCycle_looks _ _).reads fun _ => ?_
  refine makes_bind (makes_query ?_) fun _ => (getWorkItemDetail_looks _ _).reads
  intro w hw s hs
  obtain rfl := List.mem_singleton.mp hw
  obtain rfl := Option.some.inj hs
  refine ⟨hallowed, editActivities_recorded _ _ _ _ _ _, ?_, ?_⟩
  · intro u h
    cases h
  · intro h
    cases h

/-- What the target of a batch says about the rows of the batch. -/
def TargetChecked (itemType : WorkItemType) (rows : List ItemRow) : BatchActionTarget → Prop
  | .status status => status ∈ workItemStatusSupported itemType ∧
      ∀ row ∈ rows, Allowed row.item.status status
  | _ => True

theorem checkBatchStatus_checked {itemType : WorkItemType} {status : WorkItemStatus}
    {rows : List ItemRow} {u : Unit} (h : checkBatchStatus itemType status rows = .ok u) :
    TargetChecked itemType rows (.status status) := by
  obtain ⟨_, hsupported, hrows⟩ := bind_eq_ok.mp h
  refine ⟨Classical.not_not.mp (rejectIf_eq_ok.mp hsupported), ?_⟩
  intro row hrow
  obtain ⟨_, _, hstep⟩ := bind_eq_ok.mp (forEach_eq_ok.mp hrows row hrow)
  exact allowed_of_ok hstep

theorem batchTarget_issues (project : Project) (itemType : WorkItemType) (rows : List ItemRow)
    (input : BatchUpdateWorkItemsInput) (action : BatchAction) :
    Issues (Checked batch) (TargetChecked itemType rows)
      (batchTarget project itemType rows input action) := by
  cases action with
  | assignee =>
    refine issues_bind (resolveProjectMember_looks _ _).reads fun member _ => ?_
    refine issues_bind (makes_query trivial) fun user _ => ?_
    refine issues_bind makes_okOr fun user _ => ?_
    exact issues_bind makes_check fun _ _ => issues_done trivial
  | status =>
    refine issues_bind makes_check fun status _ => ?_
    refine issues_bind (Q := fun _ => TargetChecked itemType rows (.status status)) ?_ ?_
    · exact issues_check fun _ h => checkBatchStatus_checked h
    · exact fun _ h => issues_done h
  | priority =>
    refine issues_bind makes_check fun priority _ => ?_
    exact issues_bind makes_check fun _ _ => issues_done trivial
  | cycle =>
    refine issues_bind (resolveProjectCycle_looks _ _).reads fun cycle _ => ?_
    exact issues_bind makes_check fun _ _ => issues_done trivial

/-- The rows of a batch that passed its check have the type of the batch. -/
theorem itemType_of_checked {project : Project} {itemType : WorkItemType} {rows : List ItemRow}
    {u : Unit} (h : forEach (checkBatchRow project itemType) rows = .ok u) :
    ∀ row ∈ rows, row.item.itemType = itemType := by
  intro row hrow
  obtain ⟨_, _, hrest⟩ := bind_eq_ok.mp (forEach_eq_ok.mp h row hrow)
  obtain ⟨_, htype, _⟩ := bind_eq_ok.mp hrest
  exact Classical.not_not.mp (rejectIf_eq_ok.mp htype)

theorem batchWrite_checked {actorUserId : Int} {itemType : WorkItemType} {rows : List ItemRow}
    {target : BatchActionTarget} (htypes : ∀ row ∈ rows, row.item.itemType = itemType)
    (h : TargetChecked itemType rows target) :
    Checked true (.writeItems actorUserId (rows.map (batchWrite actorUserId target))) := by
  intro w hw s hs
  obtain ⟨row, hrow, rfl⟩ := List.mem_map.mp hw
  cases target with
  | status status =>
    obtain rfl := Option.some.inj hs
    refine ⟨h.2 row hrow, rfl, ?_, ?_⟩
    · intro u hu
      cases hu
    · intro _
      refine ⟨rfl, ?_⟩
      change status ∈ workItemStatusSupported row.item.itemType
      rw [htypes row hrow]
      exact h.1
  | assignee user => cases hs
  | priority priority => cases hs
  | cycle cycle => cases hs

theorem batchUpdateWorkItems_reads (actorUserId : Int) (input : BatchUpdateWorkItemsInput) :
    Reads true (batchUpdateWorkItems actorUserId input) := by
  unfold batchUpdateWorkItems
  refine makes_bind makes_check fun _ => ?_
  refine makes_bind makes_check fun itemType => ?_
  refine makes_bind makes_check fun action => ?_
  refine makes_bind makes_check fun itemKeys => ?_
  refine makes_bind (getProjectDetail_looks _ _).reads fun project => ?_
  refine makes_bind makes_check fun _ => ?_
  unfold applyBatch
  refine makes_bind (makes_query trivial) fun rows => ?_
  refine makes_bind makes_rejectIf fun _ => ?_
  apply issues_bind (Q := fun _ => ∀ row ∈ rows, row.item.itemType = itemType)
  · exact issues_check fun _ h => itemType_of_checked h
  intro _ htypes
  apply issues_bind (batchTarget_issues project itemType rows input action)
  intro target htarget
  exact makes_bind (makes_query (batchWrite_checked htypes htarget)) fun _ => makes_done

/-- The request sets several work items at once. -/
def Request.isBatch : Request → Bool
  | .batchUpdateWorkItems .. => true
  | _ => false

theorem start_reads (request : Request) : Reads request.isBatch (start request) := by
  have hread : ∀ s, IsRead s → Checked request.isBatch s := fun _ => checked_of_read
  cases request with
  | createProject actorUserId input keys =>
    exact makes_bind (createProject_makes hread (fun _ => trivial) _ _ _) fun _ => makes_done
  | updateProject actorUserId projectKey input =>
    exact makes_bind (updateProject_makes hread (fun _ => trivial) _ _ _) fun _ => makes_done
  | addProjectMembers actorUserId projectKey usernames memberRole =>
    exact makes_bind (addProjectMembers_makes hread (fun _ _ _ _ => trivial) _ _ _ _) fun _ => makes_done
  | removeProjectMember actorUserId projectKey username =>
    exact makes_bind (removeProjectMember_makes hread (fun _ _ _ _ => trivial) _ _ _) fun _ => makes_done
  | updateProjectMemberRole actorUserId projectKey username memberRole =>
    refine makes_bind (updateProjectMemberRole_makes hread ?_ _ _ _ _) fun _ => makes_done
    exact fun _ _ _ _ _ _ hrole => hrole
  | createWorkItem actorUserId input =>
    exact makes_bind (createWorkItem_makes hread (fun _ => trivial) _ _) fun _ => makes_done
  | updateWorkItemStatus actorUserId itemKey status =>
    exact makes_bind (updateWorkItemStatus_reads _ _ _) fun _ => makes_done
  | closeWorkItem actorUserId itemKey =>
    exact makes_bind (updateWorkItemStatus_reads _ _ _) fun _ => makes_done
  | handoffWorkItem actorUserId itemKey input =>
    exact makes_bind (handoffWorkItem_reads _ _ _) fun _ => makes_done
  | updateWorkItem actorUserId itemKey input =>
    exact makes_bind (updateWorkItem_reads _ _ _) fun _ => makes_done
  | batchUpdateWorkItems actorUserId input =>
    exact makes_bind (batchUpdateWorkItems_reads _ _) fun _ => makes_done
  | archiveWorkItem actorUserId itemKey =>
    exact makes_bind (archiveWorkItem_makes hread (fun _ _ => trivial) _ _) fun _ => makes_done
  | restoreWorkItem actorUserId itemKey =>
    exact makes_bind (restoreWorkItem_makes hread (fun _ _ => trivial) _ _) fun _ => makes_done

theorem Checked.asBatch {st : Statement} (h : Checked batch st) : Checked true st := by
  cases st with
  | writeItems actorUserId writes =>
    intro w hw s hs
    obtain ⟨h1, h2, h3, h4⟩ := h w hw s hs
    exact ⟨h1, h2, h3, fun hb => ⟨rfl, (h4 hb).2⟩⟩
  | setMemberRole projectId userId actorUserId username oldRole role => exact h
  | _ => trivial

theorem start_checked (request : Request) : Reads true (start request) :=
  issues_mono (start_reads request) fun _ h => h.asBatch

end Calls

/-! ## Every transaction that finds the rows as they were read is legal -/

/-- The row of a change of status is as it was read: it has the status, and the assignee where the
change writes this back. -/
def StillRead (db : Db) : Statement → Prop
  | .writeItems _ writes => ∀ w ∈ writes, ∀ s r, w.change.status? = some s →
      db.workItem w.read.id = some r → r.status = w.read.status ∧
        ∀ u, w.change = .handoff s (.kept u) → r.assigneeUserId = w.read.assigneeUserId
  | _ => True

/-- What a statement may do to the statuses of the rows that it finds, and what it records. -/
structure LegalCommit (db : Db) (st : Statement) : Prop where
  transition : ∀ m id r r', db.workItem id = some r → (perform m st db).1.workItem id = some r' →
    Allowed r.status r'.status
  recorded : ∀ actorUserId writes, st = .writeItems actorUserId writes → ∀ w ∈ writes, ∀ s r,
    w.change.status? = some s → db.workItem w.read.id = some r →
    w.activities.filterMap (·.kind.previousStatus?) = [r.status]
  kept : ∀ actorUserId w s u, st = .writeItems actorUserId [w] →
    w.change = .handoff s (.kept u) → ∀ m r r', db.workItem w.read.id = some r →
    (perform m st db).1.workItem w.read.id = some r' → r'.assigneeUserId = r.assigneeUserId

/-- A change either sets the status that it says or leaves the status alone. -/
theorem apply_status (now : Int) (change : ItemChange) (wi : WorkItem) :
    (change.apply now wi).status = change.status?.getD wi.status := by
  cases change <;> rfl

section Commits

variable {db : Db}

theorem rewritten_allowed {now : Int} {writes : List ItemWrite} {r : WorkItem}
    (h : ∀ w ∈ writes, w.read.id = r.id → ∀ s, w.change.status? = some s → Allowed r.status s) :
    Allowed r.status (rewritten now writes r).status := by
  have hinv := @rewritten_induction now (fun r' => r'.id = r.id ∧ Allowed r.status r'.status) writes r
    ⟨rfl, .inl rfl⟩ ?_
  · exact hinv.2
  intro w hw r' ⟨hid, hallowed⟩ hread
  refine ⟨by rw [apply_id, hid], ?_⟩
  rw [apply_status]
  cases hs : w.change.status? with
  | none => exact hallowed
  | some s => exact h w hw (hread.symm.trans hid) s hs

/-- The statements beside `writeItems` leave alone what an archive and a restore of a row leave alone. -/
theorem written_field {β : Type} (f : WorkItem → β)
    (hdeleted : ∀ r deletedAt deletedByUserId, f { r with deletedAt, deletedByUserId } = f r)
    {now : Int} {st : Statement}
    (hwrites : ∀ actorUserId writes, st ≠ .writeItems actorUserId writes) {id : Int}
    {r r' : WorkItem} (hr : db.workItem id = some r)
    (hr' : (st.written now db).workItem id = some r') : f r' = f r := by
  have same : ∀ db' : Db, db'.workItems = db.workItems → db'.workItem id = some r' → f r' = f r := by
    intro db' hitems h
    unfold Db.workItem at h hr
    rw [hitems, hr] at h
    cases h
    rfl
  cases st with
  | writeItems actorUserId writes => exact absurd rfl (hwrites actorUserId writes)
  | insertProject p => exact same _ (insertProject_workItems db p now) hr'
  | addMembers projectId actorUserId selected role =>
    simp only [Statement.written] at hr'
    split at hr'
    · exact same _ (addMembers_workItems db projectId actorUserId selected role now) hr'
    · exact same _ rfl hr'
  | updateProject u => exact same _ rfl hr'
  | removeMember projectId userId actorUserId username => exact same _ rfl hr'
  | setMemberRole projectId userId actorUserId username oldRole role => exact same _ rfl hr'
  | archiveItem read actorUserId =>
    change (db.archiveItem read actorUserId now).workItem id = some r' at hr'
    rw [archiveItem_workItem, hr] at hr'
    cases hr'
    dsimp only
    split
    · exact hdeleted _ _ _
    · rfl
  | restoreItem itemKey actorUserId =>
    change (db.restoreItem itemKey actorUserId now).1.workItem id = some r' at hr'
    rcases @restoreItem_fst db now itemKey actorUserId with h | ⟨row, _, _, h⟩
    · exact same _ (by rw [h]) hr'
    · rw [h, undelete_workItem, hr] at hr'
      cases hr'
      dsimp only
      split
      · exact hdeleted _ _ _
      · rfl
  | insertItem i =>
    change (db.insertItem i now).1.workItem id = some r' at hr'
    rcases @insertItem_fst db now i with h | ⟨itemKey, h, _, _⟩
    · exact same _ (by rw [h]) hr'
    · unfold Db.workItem at hr hr'
      rw [h, List.find?_append, hr] at hr'
      cases hr'
      rfl
  | _ => exact same _ rfl hr'

theorem legal_of_read {st : Statement} (hchecked : Checked true st) (hread : StillRead db st) :
    LegalCommit db st := by
  constructor
  · intro m id r r' hr hr'
    rcases perform_written m st db with h | h
    · rw [h, hr] at hr'
      cases hr'
      exact .inl rfl
    rw [h] at hr'
    by_cases hwrites : ∃ actorUserId writes, st = .writeItems actorUserId writes
    · obtain ⟨actorUserId, writes, rfl⟩ := hwrites
      change (db.writeItems writes m.now).workItem id = some r' at hr'
      rw [writeItems_workItem, hr] at hr'
      cases hr'
      apply rewritten_allowed
      intro w hw hid s hs
      have hfound : db.workItem w.read.id = some r := by rw [hid, workItem_id hr, hr]
      have hstatus := (hread w hw s r hs hfound).1
      rw [hstatus]
      exact (hchecked w hw s hs).allowed
    · refine .inl (written_field WorkItem.status (fun _ _ _ => rfl) (fun actorUserId writes heq => ?_)
        hr hr')
      exact hwrites ⟨actorUserId, writes, heq⟩
  · rintro actorUserId writes rfl w hw s r hs hr
    rw [(hread w hw s r hs hr).1]
    exact (hchecked w hw s hs).recorded
  · rintro actorUserId w s u rfl hchange m r r' hr hr'
    rcases perform_written m (.writeItems actorUserId [w]) db with h | h
    · rw [h, hr] at hr'
      cases hr'
      rfl
    rw [h] at hr'
    change (db.writeItems [w] m.now).workItem w.read.id = some r' at hr'
    rw [writeItems_workItem, hr] at hr'
    cases hr'
    have hs : w.change.status? = some s := by rw [hchange]; rfl
    have hw : w ∈ [w] := List.mem_singleton.mpr rfl
    have hu := (hchecked w hw s hs).kept u hchange
    have hassignee := (hread w hw s r hs hr).2 u hchange
    rw [rewritten_cons, if_pos (beq_iff_eq.mpr (workItem_id hr)), hchange, hassignee, ← hu]
    rfl

end Commits

/-- In every run in which each transaction finds the statuses, and the assignees that it writes
back, as its call read them, every change of status is legal and recorded. -/
theorem status_history_is_legal (db : Db) (tr : List (Entry Server (Turn Request Moment) Unit))
    (s : Server) (hrun : Run (serve perform start) { db := db, calls := [] } tr s)
    (hok : ∀ x ∈ tr, Meets StillRead x.pre x.event) :
    ∀ x ∈ tr, Meets LegalCommit x.pre x.event := by
  have hissued := serve_issues start_checked hrun
  intro x hx
  have hcheck := hissued x hx
  have hread := hok x hx
  cases hevent : x.event with
  | begin request => trivial
  | resume i m =>
    rw [hevent] at hcheck hread
    intro st hst
    exact legal_of_read (hcheck st hst) (hread st hst)

/-- A work item of the first project. -/
def sampleItem (itemType : WorkItemType) (status : WorkItemStatus) (assigneeUserId : Option Int) :
    WorkItem where
  id := 1
  projectId := 1
  itemKey := "PA-1"
  itemType := itemType
  title := "item"
  description := ""
  status := status
  priority := .p2
  assigneeUserId := assigneeUserId
  reporterUserId := some 1
  parentWorkItemId := none
  cycleId := none
  dueDate := none
  completedAt := none
  deletedAt := none
  deletedByUserId := none

/-- Two users, a project that the first owns, and one work item. -/
def itemDb (members : List Member) (item : WorkItem) : Db where
  users := [⟨1, "alice", "Alice", true⟩, ⟨2, "bob", "Bob", true⟩]
  projects := [
    { id := 1, projectKey := "PA", name := "Alpha", description := "", status := .inProgress,
      ownerUserId := some 1, startDate := none, dueDate := none, updatedAt := 0 }]
  nextProject := 2
  members := ⟨1, 1, .owner, 0⟩ :: members
  workItems := [item]
  nextWorkItem := 2
  cycles := []
  comments := []
  activities := []
  unavailable := []

def calm : Moment := { now := 0, fault := none }

/-- A task in progress. -/
def taskDb : Db := itemDb [] (sampleItem .task .inProgress (some 1))

def doneTurns : List (Turn Request Moment) :=
  [.begin (.updateWorkItemStatus 1 "PA-1" "done"), .resume 0 calm, .resume 0 calm]

theorem finished_task_is_legal :
    ∃ tr s, exec (serve perform start) ({ db := taskDb, calls := [] } : Server) doneTurns =
        some (tr, s) ∧ s.db.workItems.map (·.status) = [.done] ∧
      ∀ x ∈ tr, Meets LegalCommit x.pre x.event := by
  obtain ⟨r, hr⟩ : ∃ r, exec (serve perform start) ({ db := taskDb, calls := [] } : Server)
      doneTurns = some r := ⟨_, rfl⟩
  have hdone : (exec (serve perform start) ({ db := taskDb, calls := [] } : Server)
      doneTurns).map (fun r => r.2.db.workItems.map (·.status)) = some [.done] := by
    decide +kernel
  rw [hr] at hdone
  refine ⟨r.1, r.2, hr, Option.some.inj hdone, ?_⟩
  apply status_history_is_legal taskDb r.1 r.2 (run_of_exec hr)
  intro x hx
  refine checks_exec (C := Meets StillRead) hr ?_ hx
  refine ⟨trivial, meets_resume rfl trivial, meets_resume rfl ?_, trivial⟩
  intro w hw s r _ hr
  obtain rfl := List.mem_singleton.mp hw
  cases hr
  refine ⟨rfl, ?_⟩
  intro u hu
  cases hu

/-- Both calls read the task in progress; one has finished it when the other reopens it. -/
def racingTurns : List (Turn Request Moment) :=
  [.begin (.updateWorkItemStatus 1 "PA-1" "done"), .begin (.updateWorkItemStatus 1 "PA-1" "open"),
    .resume 0 calm, .resume 1 calm, .resume 0 calm]

/-- The status of the row before and behind the next statement of the second call. -/
def secondCommit (s : Server) : Option (WorkItemStatus × WorkItemStatus) := do
  let st ← nextStatement s 1
  let row ← s.db.workItem 1
  let row' ← (perform calm st s.db).1.workItem 1
  pure (row.status, row'.status)

/-- A task that is done is set back to open, which no transition allows. -/
theorem stale_read_breaks_the_history :
    ∃ db tr s, Run (serve perform start) ({ db := db, calls := [] } : Server) tr s ∧
      ∃ x ∈ tr, ¬Meets LegalCommit x.pre x.event := by
  obtain ⟨r, hr⟩ : ∃ r, exec (serve perform start) ({ db := taskDb, calls := [] } : Server)
      racingTurns = some r := ⟨_, rfl⟩
  have hcommit : (exec (serve perform start) ({ db := taskDb, calls := [] } : Server)
      racingTurns).bind (fun r => secondCommit r.2) = some (.done, .opened) := by
    decide +kernel
  obtain ⟨u, hu⟩ : ∃ u, (exec (serve perform start) ({ db := taskDb, calls := [] } : Server)
      racingTurns).bind (fun r => serve perform start r.2 (.resume 1 calm)) = some u := ⟨_, rfl⟩
  rw [hr] at hcommit hu
  have hstep : serve perform start r.2 (.resume 1 calm) = some (u.1, u.2) := hu
  refine ⟨taskDb, _, u.1, (run_of_exec hr).next hstep, _, List.mem_append_right _ List.mem_cons_self, ?_⟩
  intro hlegal
  have hsecond : secondCommit r.2 = some (.done, .opened) := hcommit
  obtain ⟨st, hst, hrest⟩ := Option.bind_eq_some_iff.mp hsecond
  obtain ⟨row, hrow, hrest⟩ := Option.bind_eq_some_iff.mp hrest
  obtain ⟨row', hrow', hrest⟩ := Option.bind_eq_some_iff.mp hrest
  have hallowed := (hlegal st hst).transition calm 1 row row' hrow hrow'
  obtain ⟨h1, h2⟩ := Prod.mk.inj (Option.some.inj hrest)
  rw [h1, h2] at hallowed
  rcases hallowed with h | h
  · cases h
  · exact absurd h (by decide)

end Projects
end Yuance
