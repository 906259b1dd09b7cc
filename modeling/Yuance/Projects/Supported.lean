import Yuance.Projects.History

/-!
# Yuance.Projects.Supported

The statuses that a work item may have by its type. A batch checks that the type supports the status;
`update_work_item_status`, `handoff_work_item` and `update_work_item` do not.

* `AsksSupported`: a change of status outside a batch is to a status that the type supports.
* `Later`: a work item keeps its type, so that what a batch read of it stays true.
-/

namespace Yuance
namespace Projects
namespace Supported

open Lib Platform

structure Inv (db : Db) : Prop where
  bound : ∀ r ∈ db.workItems, r.id < db.nextWorkItem
  ids : (db.workItems.map (·.id)).Nodup
  supported : ∀ r ∈ db.workItems, r.status ∈ workItemStatusSupported r.itemType

/-- A work item keeps its type, and new ones have new numbers. -/
structure Later (db db' : Db) : Prop where
  next : db.nextWorkItem ≤ db'.nextWorkItem
  types : ∀ r' ∈ db'.workItems,
    (∃ r ∈ db.workItems, r.id = r'.id ∧ r.itemType = r'.itemType) ∨ db.nextWorkItem ≤ r'.id

theorem Later.refl (db : Db) : Later db db :=
  ⟨le_refl _, fun r hr => .inl ⟨r, hr, rfl, rfl⟩⟩

theorem Later.trans {a b c : Db} (hab : Later a b) (hbc : Later b c) : Later a c := by
  refine ⟨hab.next.trans hbc.next, ?_⟩
  intro r'' hr''
  rcases hbc.types r'' hr'' with ⟨r', hr', hid', htype'⟩ | hnew
  · rcases hab.types r' hr' with ⟨r, hr, hid, htype⟩ | hnew
    · exact .inl ⟨r, hr, hid.trans hid', htype.trans htype'⟩
    · exact .inr (by rw [← hid']; exact hnew)
  · exact .inr (hab.next.trans hnew)

/-- A change of status outside a batch asks for a status that the type of the work item supports. -/
def AsksSupported (db : Db) : Statement → Prop
  | .writeItems _ writes => ∀ w ∈ writes, ∀ s, w.change.status? = some s →
      w.change ≠ .batchStatus s → ∀ r, db.workItem w.read.id = some r →
      s ∈ workItemStatusSupported r.itemType
  | _ => True

/-- Every change of status, in a batch or not. -/
def WritesSupported (db : Db) : Statement → Prop
  | .writeItems _ writes => ∀ w ∈ writes, ∀ s, w.change.status? = some s →
      ∀ r, db.workItem w.read.id = some r → s ∈ workItemStatusSupported r.itemType
  | _ => True

section Steps

variable {db : Db}

/-- Tables with the same work items. -/
theorem keeps_same {db' : Db} (h : Inv db) (hitems : db'.workItems = db.workItems)
    (hnext : db'.nextWorkItem = db.nextWorkItem) : Inv db' ∧ Later db db' := by
  refine ⟨⟨?_, ?_, ?_⟩, ⟨by rw [hnext], ?_⟩⟩
  · rw [hitems, hnext]
    exact h.bound
  · rw [hitems]
    exact h.ids
  · rw [hitems]
    exact h.supported
  · intro r hr
    rw [hitems] at hr
    exact .inl ⟨r, hr, rfl, rfl⟩

/-- An update that keeps the number and the type of each work item, and a supported status. -/
theorem keeps_map {db' : Db} (h : Inv db) {f : WorkItem → WorkItem}
    (hitems : db'.workItems = db.workItems.map f) (hnext : db'.nextWorkItem = db.nextWorkItem)
    (hid : ∀ r ∈ db.workItems, (f r).id = r.id)
    (htype : ∀ r ∈ db.workItems, (f r).itemType = r.itemType)
    (hstatus : ∀ r ∈ db.workItems, (f r).status ∈ workItemStatusSupported r.itemType) :
    Inv db' ∧ Later db db' := by
  refine ⟨⟨?_, ?_, ?_⟩, ⟨by rw [hnext], ?_⟩⟩
  · intro r' hr'
    rw [hitems] at hr'
    obtain ⟨r, hr, rfl⟩ := List.mem_map.mp hr'
    rw [hid r hr, hnext]
    exact h.bound r hr
  · rw [hitems, List.map_map]
    have hcongr : db.workItems.map ((·.id) ∘ f) = db.workItems.map (·.id) :=
      List.map_congr_left hid
    rw [hcongr]
    exact h.ids
  · intro r' hr'
    rw [hitems] at hr'
    obtain ⟨r, hr, rfl⟩ := List.mem_map.mp hr'
    rw [htype r hr]
    exact hstatus r hr
  · intro r' hr'
    rw [hitems] at hr'
    obtain ⟨r, hr, rfl⟩ := List.mem_map.mp hr'
    exact .inl ⟨r, hr, (hid r hr).symm, (htype r hr).symm⟩

theorem writeItems_nextWorkItem (writes : List ItemWrite) (now : Int) :
    (db.writeItems writes now).nextWorkItem = db.nextWorkItem := by
  unfold Db.writeItems
  induction writes generalizing db with
  | nil => rfl
  | cons w writes ih => rw [List.foldl_cons, ih]; rfl

theorem writeItems_keeps (h : Inv db) {actorUserId : Int} {writes : List ItemWrite} {now : Int}
    (hw : WritesSupported db (.writeItems actorUserId writes)) :
    Inv (db.writeItems writes now) ∧ Later db (db.writeItems writes now) := by
  -- along the writes a row keeps its number, its type and a status that the type supports
  have hrow : ∀ r ∈ db.workItems, (rewritten now writes r).id = r.id ∧
      (rewritten now writes r).itemType = r.itemType ∧
      (rewritten now writes r).status ∈ workItemStatusSupported r.itemType := by
    intro r hr
    apply rewritten_induction (P := fun r' => r'.id = r.id ∧ r'.itemType = r.itemType ∧
      r'.status ∈ workItemStatusSupported r.itemType)
    · exact ⟨rfl, rfl, h.supported r hr⟩
    · intro w hwmem r' ⟨hid, htype, hstatus⟩ hread
      refine ⟨by rw [apply_id, hid], by rw [apply_itemType, htype], ?_⟩
      rw [apply_status]
      cases hs : w.change.status? with
      | none => exact hstatus
      | some s =>
        apply hw w hwmem s hs r
        rw [← hread, hid]
        exact workItem_of_mem h.ids hr
  exact keeps_map h (writeItems_workItems writes) (writeItems_nextWorkItem writes now)
    (fun r hr => (hrow r hr).1) (fun r hr => (hrow r hr).2.1) (fun r hr => (hrow r hr).2.2)

theorem insertItem_keeps (h : Inv db) (i : ItemInsert) :
    Inv (db.insertItem i now).1 ∧ Later db (db.insertItem i now).1 := by
  rcases @insertItem_fst db now i with hsame | ⟨itemKey, hitems, hnext, -⟩
  · rw [hsame]
    exact ⟨h, Later.refl db⟩
  refine ⟨⟨?_, ?_, ?_⟩, ⟨by omega, ?_⟩⟩
  · intro r hr
    rw [hitems] at hr
    rcases List.mem_append.mp hr with hmem | hmem
    · have := h.bound r hmem
      omega
    · obtain rfl := List.mem_singleton.mp hmem
      rw [hnext]
      exact Int.lt_succ _
  · rw [hitems, List.map_append]
    apply List.Nodup.append h.ids (List.nodup_singleton _)
    intro id hid hnew
    obtain ⟨r, hr, rfl⟩ := List.mem_map.mp hid
    have hlt := h.bound r hr
    have heq : r.id = db.nextWorkItem := List.mem_singleton.mp hnew
    omega
  · intro r hr
    rw [hitems] at hr
    rcases List.mem_append.mp hr with hmem | hmem
    · exact h.supported r hmem
    · obtain rfl := List.mem_singleton.mp hmem
      change WorkItemStatus.opened ∈ workItemStatusSupported i.itemType
      cases i.itemType <;> decide
  · intro r hr
    rw [hitems] at hr
    rcases List.mem_append.mp hr with hmem | hmem
    · exact .inl ⟨r, hmem, rfl, rfl⟩
    · obtain rfl := List.mem_singleton.mp hmem
      exact .inr (le_refl _)

/-- An update of the columns of a deletion. -/
theorem updateWhere_keeps {db' : Db} (h : Inv db) {p : WorkItem → Bool} {f : WorkItem → WorkItem}
    (hitems : db'.workItems = updateWhere p f db.workItems)
    (hnext : db'.nextWorkItem = db.nextWorkItem)
    (hf : ∀ r, (f r).id = r.id ∧ (f r).itemType = r.itemType ∧ (f r).status = r.status) :
    Inv db' ∧ Later db db' := by
  apply keeps_map h hitems hnext
  · intro r _
    split
    · exact (hf r).1
    · rfl
  · intro r _
    split
    · exact (hf r).2.1
    · rfl
  · intro r hr
    split
    · rw [(hf r).2.2]
      exact h.supported r hr
    · exact h.supported r hr

theorem upsertMember_nextWorkItem (projectId userId : Int) (role : MemberRole) (now : Int) :
    (db.upsertMember projectId userId role now).nextWorkItem = db.nextWorkItem := by
  unfold Db.upsertMember
  split
  · rfl
  · rfl

theorem addMembers_nextWorkItem (projectId actorUserId : Int) (selected : List User)
    (role : MemberRole) (now : Int) :
    (db.addMembers projectId actorUserId selected role now).nextWorkItem = db.nextWorkItem := by
  unfold Db.addMembers
  induction selected generalizing db with
  | nil => rfl
  | cons user rest ih =>
    rw [List.foldl_cons, ih]
    exact upsertMember_nextWorkItem projectId user.id role now

theorem insertProject_nextWorkItem (p : ProjectInsert) (now : Int) :
    (db.insertProject p now).1.nextWorkItem = db.nextWorkItem := by
  unfold Db.insertProject
  split
  · rfl
  dsimp only
  rcases byUser_fst db p.actorUserId _ with h | h
  · rw [h]
  · rw [h]
    exact upsertMember_nextWorkItem _ _ _ _

theorem perform_keeps (h : Inv db) {st : Statement} (hw : WritesSupported db st) (m : Moment) :
    Inv (perform m st db).1 ∧ Later db (perform m st db).1 := by
  rcases perform_written m st db with heq | heq
  · rw [heq]
    exact ⟨h, Later.refl db⟩
  rw [heq]
  cases st with
  | writeItems actorUserId writes => exact writeItems_keeps h hw
  | insertItem i => exact insertItem_keeps h i
  | insertProject p =>
    exact keeps_same h (insertProject_workItems db p m.now) (insertProject_nextWorkItem p m.now)
  | addMembers projectId actorUserId selected role =>
    simp only [Statement.written]
    split
    · exact keeps_same h (addMembers_workItems db projectId actorUserId selected role m.now)
        (addMembers_nextWorkItem projectId actorUserId selected role m.now)
    · exact keeps_same h rfl rfl
  | updateProject u => exact keeps_same h rfl rfl
  | removeMember projectId userId actorUserId username => exact keeps_same h rfl rfl
  | setMemberRole projectId userId actorUserId username oldRole role => exact keeps_same h rfl rfl
  | archiveItem read actorUserId =>
    apply updateWhere_keeps h
    · rfl
    · rfl
    · exact fun _ => ⟨rfl, rfl, rfl⟩
  | restoreItem itemKey actorUserId =>
    change Inv (db.restoreItem itemKey actorUserId m.now).1 ∧
      Later db (db.restoreItem itemKey actorUserId m.now).1
    rcases @restoreItem_fst db m.now itemKey actorUserId with hsame | ⟨row, -, -, hundeleted⟩
    · rw [hsame]
      exact ⟨h, Later.refl db⟩
    · rw [hundeleted]
      apply updateWhere_keeps h
      · rfl
      · rfl
      · exact fun _ => ⟨rfl, rfl, rfl⟩
  | _ => exact ⟨h, Later.refl db⟩

end Steps

/-! ## What a batch knows of its rows -/

def supporting : Discipline Statement Statement.Answer AppError Db Moment where
  perform := perform
  R := Later
  I := Inv
  C := AsksSupported
  refl := Later.refl
  trans := fun _ _ _ => Later.trans

/-- The number belongs to work items of this type, now and later. -/
structure Known (item : WorkItem) (db : Db) : Prop where
  bound : item.id < db.nextWorkItem
  type : ∀ r ∈ db.workItems, r.id = item.id → r.itemType = item.itemType

theorem Known.later {item : WorkItem} {db db' : Db} (h : Known item db) (hl : Later db db') :
    Known item db' := by
  refine ⟨h.bound.trans_le hl.next, ?_⟩
  intro r' hr' hid
  rcases hl.types r' hr' with ⟨r, hr, hid', htype⟩ | hnew
  · rw [← htype]
    exact h.type r hr (hid'.trans hid)
  · have := h.bound
    omega

section Calls

variable {db : Db}

/-- Outside a batch the condition covers every change of status. -/
theorem checked_keeps (st : Statement) (hst : Checked false st) (b : Db) (m : Moment)
    (hi : supporting.I b) (hc : supporting.C b st) :
    supporting.I (supporting.perform m st b).1 ∧ supporting.R b (supporting.perform m st b).1 := by
  apply perform_keeps hi
  cases st with
  | writeItems actorUserId writes =>
    intro w hw s hs r hr
    apply hc w hw s hs ?_ r hr
    intro hbatch
    cases ((hst w hw s hs).supported hbatch).1
  | _ => trivial

theorem itemsIn_keeps (itemKeys : List String) :
    Keeps supporting (fun rows d => ∀ row ∈ rows, Known row.item d) (query (.itemsIn itemKeys))
      db := by
  refine keeps_make (s := Statement.itemsIn itemKeys) ?_
  intro b m hb hi hc
  obtain ⟨h1, h2⟩ := checked_keeps (.itemsIn itemKeys) trivial b m hi hc
  refine ⟨h1, h2, ?_⟩
  intro rows hrows c hbc row hrow
  change Later (perform m (.itemsIn itemKeys) b).1 c at hbc
  change (perform m (.itemsIn itemKeys) b).2 = _ at hrows
  unfold perform at hrows hbc
  split at hrows
  · cases hrows
  · rename_i hfault
    rw [hfault] at hbc
    obtain rfl : b.itemsIn itemKeys = rows := Except.ok.inj hrows
    have hmem := mem_of_itemsIn hrow
    refine Known.later ⟨hi.bound _ hmem, ?_⟩ hbc
    intro r hr hid
    rw [eq_of_key hi.ids hr hmem hid]

/-- A batch writes statuses that the types of its rows support. -/
theorem batchWrite_supported {b : Db} {actorUserId : Int} {itemType : WorkItemType}
    {rows : List ItemRow} {target : BatchActionTarget} (hknown : ∀ row ∈ rows, Known row.item b)
    (htypes : ∀ row ∈ rows, row.item.itemType = itemType)
    (htarget : TargetChecked itemType rows target) :
    WritesSupported b (.writeItems actorUserId (rows.map (batchWrite actorUserId target))) := by
  intro w hw s hs r hr
  obtain ⟨row, hrow, rfl⟩ := List.mem_map.mp hw
  cases target with
  | status status =>
    obtain rfl := Option.some.inj hs
    change b.workItem row.item.id = some r at hr
    rw [(hknown row hrow).type r (workItem_mem hr) (workItem_id hr), htypes row hrow]
    exact htarget.1
  | assignee user => cases hs
  | priority priority => cases hs
  | cycle cycle => cases hs

theorem applyBatch_keeps (actorUserId : Int) (input : BatchUpdateWorkItemsInput)
    (itemType : WorkItemType) (action : BatchAction) (itemKeys : List String) (project : Project) :
    Quiet supporting (applyBatch actorUserId input itemType action itemKeys project) db := by
  unfold applyBatch
  apply keeps_bind (itemsIn_keeps itemKeys)
  intro rows d₁ _ hknown
  apply keeps_bind quiet_rejectIf
  intro _ d₂ h₁₂ _
  apply keeps_bind (Q := fun _ _ => ∀ row ∈ rows, row.item.itemType = itemType)
  · exact keeps_check fun _ h _ _ => itemType_of_checked h
  intro _ d₃ h₂₃ htypes
  apply keeps_bind (keeps_of_issues (batchTarget_issues project itemType rows input action)
    checked_keeps)
  intro target d₄ h₃₄ htarget
  refine quiet_bind (quiet_make ?_) fun _ _ => quiet_done
  intro b m h₄ hi _
  refine perform_keeps hi (batchWrite_supported ?_ htypes htarget) m
  intro row hrow
  exact ((((hknown row hrow).later h₁₂).later h₂₃).later h₃₄).later h₄

theorem batchUpdateWorkItems_keeps (actorUserId : Int) (input : BatchUpdateWorkItemsInput) :
    Quiet supporting (batchUpdateWorkItems actorUserId input) db := by
  unfold batchUpdateWorkItems
  refine quiet_bind quiet_check fun _ d => ?_
  refine quiet_bind quiet_check fun itemType d => ?_
  refine quiet_bind quiet_check fun action d => ?_
  refine quiet_bind quiet_check fun itemKeys d => ?_
  refine quiet_bind (keeps_of_issues (getProjectDetail_looks _ _).reads checked_keeps) fun project d => ?_
  refine quiet_bind quiet_check fun _ d => ?_
  exact applyBatch_keeps actorUserId input itemType action itemKeys project

theorem start_keeps (request : Request) : Quiet supporting (start request) db := by
  have single : request.isBatch = false → Quiet supporting (start request) db := by
    intro h
    have hreads := start_reads request
    rw [h] at hreads
    exact keeps_of_issues hreads checked_keeps
  cases request with
  | batchUpdateWorkItems actorUserId input =>
    exact quiet_bind (batchUpdateWorkItems_keeps actorUserId input) fun _ _ => quiet_done
  | _ => exact single rfl

end Calls

/-! ## A batch that the tables allow goes through -/

/-- A request to set the status of work items of one type, in a project that takes changes. -/
structure BatchAsked (db : Db) (actorUserId : Int) (input : BatchUpdateWorkItemsInput)
    (project : Project) (itemType : WorkItemType) (status : WorkItemStatus)
    (itemKeys : List String) : Prop where
  projectKey : validateProjectKey input.projectKey = .ok project.projectKey
  type : validateWorkItemType input.itemType = .ok itemType
  action : validateWorkItemBatchAction input.action = .ok .status
  keys : normalizeBatchWorkItemKeys input.itemKeys = .ok itemKeys
  status : validateWorkItemStatus input.status = .ok status
  stored : db.projectKeyed project.projectKey = some project
  accepts : ensureProjectAcceptsWrites project.status = .ok ()
  actor : (db.user actorUserId).isSome = true
  /-- Every key is that of a work item of the project and the type. -/
  found : (db.itemsIn itemKeys).length = itemKeys.length
  rows : ∀ row ∈ db.itemsIn itemKeys, row.item.projectId = project.id ∧ row.project = project ∧
    row.item.itemType = itemType

/-- Each batch to a supported status that the table allows from the statuses of all its items goes
through, alone, and sets them all. -/
def BatchPossible (db : Db) : Prop :=
  ∀ actorUserId input project itemType status itemKeys,
    BatchAsked db actorUserId input project itemType status itemKeys →
    status ∈ workItemStatusSupported itemType →
    (∀ row ∈ db.itemsIn itemKeys, status ∈ allowedWorkItemStatusTransitions row.item.status) →
    ∃ db' result,
      Call.solo perform calm (batchUpdateWorkItems actorUserId input) db = (db', .ok result) ∧
      ∀ row ∈ db.itemsIn itemKeys, ∃ wi, db'.workItem row.item.id = some wi ∧ wi.status = status

theorem not_mem_own_transitions (status : WorkItemStatus) :
    status ∉ allowedWorkItemStatusTransitions status := by
  cases status <;> decide

theorem checkBatchStatus_ok {itemType : WorkItemType} {status : WorkItemStatus}
    {rows : List ItemRow} (hsupported : status ∈ workItemStatusSupported itemType)
    (hallowed : ∀ row ∈ rows, status ∈ allowedWorkItemStatusTransitions row.item.status) :
    checkBatchStatus itemType status rows = .ok () := by
  refine bind_eq_ok.mpr ⟨(), rejectIf_neg (not_not_intro hsupported), forEach_eq_ok.mpr ?_⟩
  intro row hrow
  have hne : row.item.status ≠ status := by
    intro h
    have hmem := hallowed row hrow
    rw [h] at hmem
    exact not_mem_own_transitions status hmem
  refine bind_eq_ok.mpr ⟨(), rejectIf_neg hne, ?_⟩
  exact rejectIf_neg (not_not_intro (.inr (hallowed row hrow)))

/-- Rows that a batch sets the status of have it then. -/
theorem rewritten_batchStatus {now : Int} {status : WorkItemStatus} {writes : List ItemWrite}
    {r : WorkItem} (hall : ∀ w ∈ writes, w.change = .batchStatus status)
    (hone : ∃ w ∈ writes, w.read.id = r.id) : (rewritten now writes r).status = status := by
  induction writes generalizing r with
  | nil =>
    obtain ⟨w, hw, _⟩ := hone
    cases hw
  | cons w writes ih =>
    have hrest : ∀ v ∈ writes, v.change = .batchStatus status :=
      fun v hv => hall v (List.mem_cons_of_mem w hv)
    rw [rewritten_cons, hall w List.mem_cons_self]
    by_cases hid : r.id = w.read.id
    · rw [if_pos (beq_iff_eq.mpr hid)]
      refine rewritten_induction (P := fun r' => r'.status = status) rfl ?_
      intro v hv r' _ _
      rw [hrest v hv]
      rfl
    · rw [if_neg fun h => hid (beq_iff_eq.mp h)]
      apply ih hrest
      obtain ⟨v, hv, hvid⟩ := hone
      rcases List.mem_cons.mp hv with rfl | hmem
      · exact absurd hvid.symm hid
      · exact ⟨v, hmem, hvid⟩

theorem batch_possible {db : Db} (h : Inv db) : BatchPossible db := by
  intro actorUserId input project itemType status itemKeys hasked hsupported hallowed
  let writes := (db.itemsIn itemKeys).map (batchWrite actorUserId (.status status))
  refine ⟨db.writeItems writes 0, ⟨project.id, project.projectKey, itemType, .status,
    itemKeys.length, itemKeys⟩, ?_, ?_⟩
  · refine Call.solo_bind_ok.mpr ⟨db, _, Call.solo_ofExcept_ok.mpr ⟨hasked.projectKey, rfl⟩, ?_⟩
    refine Call.solo_bind_ok.mpr ⟨db, _, Call.solo_ofExcept_ok.mpr ⟨hasked.type, rfl⟩, ?_⟩
    refine Call.solo_bind_ok.mpr ⟨db, _, Call.solo_ofExcept_ok.mpr ⟨hasked.action, rfl⟩, ?_⟩
    refine Call.solo_bind_ok.mpr ⟨db, _, Call.solo_ofExcept_ok.mpr ⟨hasked.keys, rfl⟩, ?_⟩
    refine Call.solo_bind_ok.mpr ⟨db, project, ?_, ?_⟩
    · refine Call.solo_bind_ok.mpr ⟨db, _, Call.solo_make_ok.mpr rfl, ?_⟩
      exact Call.solo_okOr_ok.mpr ⟨hasked.stored, rfl⟩
    refine Call.solo_bind_ok.mpr ⟨db, (), Call.solo_ofExcept_ok.mpr ⟨hasked.accepts, rfl⟩, ?_⟩
    refine Call.solo_bind_ok.mpr ⟨db, db.itemsIn itemKeys, Call.solo_make_ok.mpr rfl, ?_⟩
    refine Call.solo_bind_ok.mpr ⟨db, (), Call.solo_rejectIf_ok.mpr ⟨?_, rfl⟩, ?_⟩
    · exact not_not_intro hasked.found
    refine Call.solo_bind_ok.mpr ⟨db, (), Call.solo_ofExcept_ok.mpr ⟨forEach_eq_ok.mpr ?_, rfl⟩, ?_⟩
    · intro row hrow
      obtain ⟨hproject, hrowProject, htype⟩ := hasked.rows row hrow
      refine bind_eq_ok.mpr ⟨(), rejectIf_neg ?_, bind_eq_ok.mpr ⟨(), rejectIf_neg ?_, ?_⟩⟩
      · rw [hrowProject, hproject]
        simp
      · exact not_not_intro htype
      · rw [hrowProject]
        exact hasked.accepts
    refine Call.solo_bind_ok.mpr ⟨db, .status status, ?_, ?_⟩
    · refine Call.solo_bind_ok.mpr ⟨db, _, Call.solo_ofExcept_ok.mpr ⟨hasked.status, rfl⟩, ?_⟩
      refine Call.solo_bind_ok.mpr ⟨db, (), Call.solo_ofExcept_ok.mpr
        ⟨checkBatchStatus_ok hsupported hallowed, rfl⟩, ?_⟩
      exact Call.solo_done_ok.mpr ⟨rfl, rfl⟩
    refine Call.solo_bind_ok.mpr ⟨db.writeItems writes 0, (), Call.solo_make_ok.mpr ?_, ?_⟩
    · change db.byUser actorUserId (db.writeItems writes 0, Except.ok ()) = _
      unfold Db.byUser
      rw [if_pos hasked.actor]
    · exact Call.solo_done_ok.mpr ⟨rfl, rfl⟩
  · intro row hrow
    have hmem := mem_of_itemsIn hrow
    refine ⟨rewritten 0 writes row.item, ?_, ?_⟩
    · rw [writeItems_workItem, workItem_of_mem h.ids hmem]
      rfl
    · apply rewritten_batchStatus
      · intro w hw
        obtain ⟨row', _, rfl⟩ := List.mem_map.mp hw
        rfl
      · exact ⟨_, List.mem_map_of_mem hrow, rfl⟩

/-- From tables without work items on, in every run whose changes of status outside a batch are to
supported ones, every work item has a status that its type supports, and each batch that the tables
allow is possible. -/
theorem statuses_are_supported (db : Db) (h0 : db.workItems = [])
    (tr : List (Entry Server (Turn Request Moment) Unit)) (s : Server)
    (hrun : Run (serve perform start) { db := db, calls := [] } tr s)
    (hok : ∀ x ∈ tr, Meets AsksSupported x.pre x.event) :
    (∀ wi ∈ s.db.workItems,
      ensureWorkItemStatusSupportedForType wi.itemType wi.status = .ok ()) ∧
    BatchPossible s.db := by
  have hinit : Inv db := by
    refine ⟨?_, ?_, ?_⟩
    · simp [h0]
    · simp [h0]
    · simp [h0]
  obtain ⟨hinv, -⟩ :=
    serve_invariant (D := supporting) hinit (fun request d => start_keeps request) hrun hok
  refine ⟨?_, batch_possible hinv⟩
  intro wi hwi
  exact rejectIf_neg (not_not_intro (hinv.supported wi hwi))

/-- A project without work items. -/
def emptyProject : Db := { taskDb with workItems := [], nextWorkItem := 1 }

def newBug : CreateWorkItemInput where
  projectKey := "PA"
  itemType := "bug"
  title := "crash"
  description := ""
  priority := "P1"
  assigneeUsername := ""
  dueDate := ""
  parentItemKey := ""

/-- A bug is created and started. -/
def startedBug : List (Turn Request Moment) :=
  [.begin (.createWorkItem 1 newBug), .resume 0 calm, .resume 0 calm, .resume 0 calm,
    .begin (.updateWorkItemStatus 1 "PA-BUG-1" "in_progress"), .resume 1 calm, .resume 1 calm,
    .resume 1 calm]

theorem started_bug_is_supported :
    ∃ tr s, exec (serve perform start) ({ db := emptyProject, calls := [] } : Server) startedBug =
        some (tr, s) ∧ s.db.workItems.map (·.status) = [.inProgress] ∧
      (∀ wi ∈ s.db.workItems,
        ensureWorkItemStatusSupportedForType wi.itemType wi.status = .ok ()) ∧
      BatchPossible s.db := by
  obtain ⟨r, hr⟩ : ∃ r, exec (serve perform start) ({ db := emptyProject, calls := [] } : Server)
      startedBug = some r := ⟨_, rfl⟩
  have hstarted : (exec (serve perform start) ({ db := emptyProject, calls := [] } : Server)
      startedBug).map (fun r => r.2.db.workItems.map (·.status)) = some [.inProgress] := by
    decide +kernel
  rw [hr] at hstarted
  refine ⟨r.1, r.2, hr, Option.some.inj hstarted, ?_⟩
  apply statuses_are_supported emptyProject rfl r.1 r.2 (run_of_exec hr)
  intro x hx
  refine checks_exec (C := Meets AsksSupported) hr ?_ hx
  refine ⟨trivial, meets_resume rfl trivial, meets_resume rfl trivial, meets_resume rfl trivial,
    trivial, meets_resume rfl trivial, meets_resume rfl ?_, meets_resume rfl trivial, trivial⟩
  intro w hw s hs _ r _
  obtain rfl := List.mem_singleton.mp hw
  obtain rfl := Option.some.inj hs
  cases r.itemType <;> decide

/-- The started bug is set to done, which only requirements and tasks can be. -/
def finishedBug : List (Turn Request Moment) :=
  startedBug ++ [.begin (.updateWorkItemStatus 1 "PA-BUG-1" "done"), .resume 2 calm, .resume 2 calm]

theorem bug_can_be_done :
    ∃ db tr s, db.workItems = [] ∧
      Run (serve perform start) ({ db := db, calls := [] } : Server) tr s ∧
      ∃ wi ∈ s.db.workItems,
        ensureWorkItemStatusSupportedForType wi.itemType wi.status ≠ .ok () := by
  obtain ⟨r, hr⟩ : ∃ r, exec (serve perform start) ({ db := emptyProject, calls := [] } : Server)
      finishedBug = some r := ⟨_, rfl⟩
  have hdone : (exec (serve perform start) ({ db := emptyProject, calls := [] } : Server)
      finishedBug).map (fun r => r.2.db.workItems.map fun wi => (wi.itemType, wi.status)) =
      some [(.bug, .done)] := by
    decide +kernel
  rw [hr] at hdone
  obtain ⟨wi, hitems, hrow⟩ := List.map_eq_singleton_iff.mp (Option.some.inj hdone)
  obtain ⟨htype, hstatus⟩ := Prod.mk.inj hrow
  refine ⟨emptyProject, r.1, r.2, rfl, run_of_exec hr, wi, ?_, ?_⟩
  · rw [hitems]
    exact List.mem_singleton.mpr rfl
  · rw [htype, hstatus]
    decide

end Supported
end Projects
end Yuance
