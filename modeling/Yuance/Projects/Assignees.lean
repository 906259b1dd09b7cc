import Yuance.Projects.Ownership
import Yuance.Projects.Supported
import Yuance.Projects.Undisturbed

/-!
# Yuance.Projects.Assignees

Who a work item is assigned to, when calls run one after the other. A member is removed only if no
unfinished work item is assigned to him; a finished or deleted one may still be, and is made
unfinished again without a look at its assignee.

* `Assigned`: an unfinished work item is assigned to a member, or to nobody.
* `Reopened`: a work item that becomes unfinished again has such an assignee.
-/

namespace Yuance
namespace Projects
namespace Assignees

open Lib Platform

/-- The assignee of the work item is a member of its project, if it has one. -/
def ToMember (db : Db) (wi : WorkItem) : Prop :=
  ∀ u, wi.assigneeUserId = some u → db.isMember wi.projectId u = true

/-- Work items that are not deleted and not finished are assigned to members. -/
def Assigned (db : Db) : Prop :=
  ∀ wi ∈ db.workItems, wi.deletedAt = none → wi.status.isActive = true → ToMember db wi

structure Inv (db : Db) : Prop where
  bound : ∀ r ∈ db.workItems, r.id < db.nextWorkItem
  ids : (db.workItems.map (·.id)).Nodup
  assigned : Assigned db

/-- A new work item is created by a member of the project. -/
def ByMember (db : Db) : Statement → Prop
  | .insertItem i => db.isMember i.projectId i.actorUserId = true
  | _ => True

/-- The change makes a finished work item unfinished and names no assignee. -/
def ItemChange.Reopens (change : ItemChange) : Prop :=
  (∃ s, (change = .status s ∨ change = .batchStatus s) ∧ s.isActive = true) ∨
    ∃ s u, change = .handoff s (.kept u) ∧ s.isActive = true

/-- A work item that becomes unfinished again is assigned to a member, or to nobody. -/
def Reopened (db : Db) : Statement → Prop
  | .writeItems _ writes => ∀ w ∈ writes, ∀ r, db.workItem w.read.id = some r →
      r.deletedAt = none → r.status.isActive = false → ItemChange.Reopens w.change → ToMember db r
  | .restoreItem itemKey _ => ∀ row, db.anyItem itemKey = some row →
      row.item.deletedAt ≠ none → ensureProjectAcceptsWrites row.project.status = .ok () →
      db.unavailable.contains row.item.id = false → row.item.status.isActive = true →
      ToMember db row.item
  | _ => True

/-- What the call made sure of in the same state of the tables. -/
def Resolved (db : Db) : Statement → Prop
  | .writeItems _ writes => ∀ w ∈ writes, w.read ∈ db.workItems ∧
      match w.change with
      | .handoff _ (.named u) => db.isMember w.read.projectId u = true
      | .handoff _ (.kept u) => u = w.read.assigneeUserId
      | .edit e => ∀ u, e.assigneeUserId = some u → db.isMember w.read.projectId u = true
      | .batchAssignee u => db.isMember w.read.projectId u = true
      | _ => True
  | .insertItem i => i.assigneeUserId = i.actorUserId ∨
      db.isMember i.projectId i.assigneeUserId = true
  | .removeMember projectId userId _ _ => db.countActiveAssigned projectId userId = 0
  | _ => True

section Steps

variable {db : Db}

/-- Tables with the same work items in which every member is still one. -/
theorem keeps_members {db' : Db} (h : Inv db) (hitems : db'.workItems = db.workItems)
    (hnext : db'.nextWorkItem = db.nextWorkItem)
    (hmembers : ∀ projectId userId, db.isMember projectId userId = true →
      db'.isMember projectId userId = true) : Inv db' := by
  refine ⟨?_, ?_, ?_⟩
  · rw [hitems, hnext]
    exact h.bound
  · rw [hitems]
    exact h.ids
  · intro wi hwi hdeleted hactive u hu
    rw [hitems] at hwi
    exact hmembers _ _ (h.assigned wi hwi hdeleted hactive u hu)

/-- Tables whose work items were changed one by one. -/
theorem keeps_map {db' : Db} (h : Inv db) {f : WorkItem → WorkItem}
    (hitems : db'.workItems = db.workItems.map f) (hnext : db'.nextWorkItem = db.nextWorkItem)
    (hid : ∀ r, (f r).id = r.id)
    (hassigned : ∀ r ∈ db.workItems, (f r).deletedAt = none → (f r).status.isActive = true →
      ToMember db' (f r)) : Inv db' := by
  refine ⟨?_, ?_, ?_⟩
  · intro r' hr'
    rw [hitems] at hr'
    obtain ⟨r, hr, rfl⟩ := List.mem_map.mp hr'
    rw [hid, hnext]
    exact h.bound r hr
  · rw [hitems, List.map_map]
    have hsame : (fun r : WorkItem => r.id) ∘ f = fun r => r.id := funext hid
    rw [hsame]
    exact h.ids
  · intro r' hr'
    rw [hitems] at hr'
    obtain ⟨r, hr, rfl⟩ := List.mem_map.mp hr'
    exact hassigned r hr

theorem isMember_updateWhere {p : Member → Bool} {f : Member → Member} {members : List Member}
    (hf : ∀ m, (f m).projectId = m.projectId ∧ (f m).userId = m.userId) {projectId userId : Int}
    (h : ∃ m ∈ members, m.projectId = projectId ∧ m.userId = userId) :
    ∃ m ∈ updateWhere p f members, m.projectId = projectId ∧ m.userId = userId := by
  obtain ⟨m, hm, h1, h2⟩ := h
  refine ⟨if p m then f m else m, mem_updateWhere.mpr ⟨m, hm, rfl⟩, ?_⟩
  split
  · exact ⟨(hf m).1.trans h1, (hf m).2.trans h2⟩
  · exact ⟨h1, h2⟩

theorem upsertMember_isMember (projectId userId : Int) (role : MemberRole) (now : Int)
    {projectId' userId' : Int} (h : db.isMember projectId' userId' = true) :
    (db.upsertMember projectId userId role now).isMember projectId' userId' = true := by
  rw [Ownership.isMember_iff] at h ⊢
  unfold Db.upsertMember
  split
  · apply isMember_updateWhere
    · exact fun _ => ⟨rfl, rfl⟩
    · exact h
  · obtain ⟨m, hm, hkeys⟩ := h
    exact ⟨m, List.mem_append_left _ hm, hkeys⟩

theorem addMembers_isMember (projectId actorUserId : Int) (selected : List User)
    (role : MemberRole) (now : Int) {projectId' userId' : Int}
    (h : db.isMember projectId' userId' = true) :
    (db.addMembers projectId actorUserId selected role now).isMember projectId' userId' = true := by
  unfold Db.addMembers
  induction selected generalizing db with
  | nil => exact h
  | cons user rest ih =>
    rw [List.foldl_cons]
    apply ih
    exact upsertMember_isMember projectId user.id role now h

theorem insertProject_isMember (p : ProjectInsert) (now : Int) {projectId userId : Int}
    (h : db.isMember projectId userId = true) :
    (db.insertProject p now).1.isMember projectId userId = true := by
  unfold Db.insertProject
  split
  · exact h
  dsimp only
  rcases byUser_fst db p.actorUserId _ with hsame | hinserted
  · rw [hsame]
    exact h
  · rw [hinserted]
    apply upsertMember_isMember
    exact h

theorem updateProject_isMember (u : ProjectUpdate) (now : Int) {projectId userId : Int}
    (h : db.isMember projectId userId = true) :
    (db.updateProject u now).isMember projectId userId = true := by
  rw [Ownership.isMember_iff] at h ⊢
  change ∃ m ∈ (if u.previousOwnerUserId ≠ some u.ownerUserId then
    Db.transferOwnership u.projectId u.ownerUserId db.members else db.members), _
  split
  · rw [Ownership.transferOwnership_eq]
    obtain ⟨m, hm, h1, h2⟩ := h
    have hkey := Ownership.transferred_key u.projectId u.ownerUserId m
    exact ⟨_, List.mem_map_of_mem hm, hkey.1.trans h1, hkey.2.trans h2⟩
  · exact h

theorem removeMember_keeps (h : Inv db) {projectId userId actorUserId now : Int} {username : String}
    (hcount : db.countActiveAssigned projectId userId = 0) :
    Inv (db.removeMember projectId userId actorUserId username now) := by
  refine ⟨h.bound, h.ids, ?_⟩
  intro wi hwi hdeleted hactive u hu
  obtain ⟨m, hm, hproject, huser⟩ :=
    Ownership.isMember_iff.mp (h.assigned wi hwi hdeleted hactive u hu)
  refine Ownership.isMember_iff.mpr ⟨m, List.mem_filter.mpr ⟨hm, ?_⟩, hproject, huser⟩
  -- the assignee of an unfinished work item is not the one who is removed
  rw [Bool.not_eq_true', ← Bool.not_eq_true]
  intro hremoved
  rw [Bool.and_eq_true, beq_iff_eq, beq_iff_eq] at hremoved
  have hlisted : wi ∈ db.workItems.filter fun wi => wi.projectId == projectId
      && wi.assigneeUserId == some userId && wi.deletedAt.isNone && wi.status.isActive := by
    refine List.mem_filter.mpr ⟨hwi, ?_⟩
    simp only [Bool.and_eq_true, beq_iff_eq]
    refine ⟨⟨⟨hproject.symm.trans hremoved.1, ?_⟩, ?_⟩, hactive⟩
    · rw [hu, ← huser, hremoved.2]
    · rw [hdeleted]
      rfl
  have hpos := List.length_pos_of_mem hlisted
  unfold Db.countActiveAssigned at hcount
  omega

theorem insertItem_keeps (h : Inv db) {i : ItemInsert}
    (hmember : db.isMember i.projectId i.assigneeUserId = true) : Inv (db.insertItem i now).1 := by
  rcases @insertItem_fst db now i with hsame | ⟨itemKey, hitems, hnext, hmembers⟩
  · rw [hsame]
    exact h
  have hsame : ∀ projectId userId, db.isMember projectId userId = true →
      (db.insertItem i now).1.isMember projectId userId = true := by
    intro projectId userId hold
    unfold Db.isMember at hold ⊢
    rw [hmembers]
    exact hold
  refine ⟨?_, ?_, ?_⟩
  · rw [hitems, hnext]
    intro r hr
    rcases List.mem_append.mp hr with hmem | hmem
    · have := h.bound r hmem
      omega
    · rw [List.mem_singleton.mp hmem]
      exact Int.lt_succ _
  · rw [hitems, List.map_append]
    apply List.Nodup.append h.ids (List.nodup_singleton _)
    intro id hid hnew
    obtain ⟨r, hr, rfl⟩ := List.mem_map.mp hid
    have hlt := h.bound r hr
    have heq : r.id = db.nextWorkItem := List.mem_singleton.mp hnew
    omega
  · intro wi hwi hdeleted hactive u hu
    rw [hitems] at hwi
    rcases List.mem_append.mp hwi with hmem | hmem
    · exact hsame _ _ (h.assigned wi hmem hdeleted hactive u hu)
    · rw [List.mem_singleton.mp hmem] at hu ⊢
      obtain rfl := Option.some.inj hu
      exact hsame _ _ hmember

/-- The row of a transaction as the writes before left it: assigned to a member, or as it was found
and not made unfinished since. -/
def Fits (db : Db) (r r' : WorkItem) : Prop :=
  ToMember db r' ∨
    r'.assigneeUserId = r.assigneeUserId ∧ (r'.status.isActive = true → r.status.isActive = true)

/-- A new status of a row that is assigned as before. -/
theorem fits_of_status {r r' : WorkItem} (hproject : r'.projectId = r.projectId)
    (hassignee : r'.assigneeUserId = r.assigneeUserId)
    (hreopened : r'.status.isActive = true → r.status.isActive = false → ToMember db r) :
    Fits db r r' := by
  by_cases hactive : r'.status.isActive = true
  · cases hold : r.status.isActive with
    | true => exact .inr ⟨hassignee, fun _ => hold⟩
    | false =>
      refine .inl ?_
      intro u hu
      rw [hproject]
      exact hreopened hactive hold u (hassignee.symm.trans hu)
  · exact .inr ⟨hassignee, fun h => absurd h hactive⟩

/-- A change of the status alone, as an update or in a batch. -/
theorem fits_status {r r' r'' : WorkItem} (hfits : Fits db r r')
    (hproject' : r'.projectId = r.projectId) (hproject : r''.projectId = r'.projectId)
    (hassignee : r''.assigneeUserId = r'.assigneeUserId)
    (hreopened : r''.status.isActive = true → r.status.isActive = false → ToMember db r) :
    Fits db r r'' := by
  rcases hfits with hmember | ⟨hsame, -⟩
  · refine .inl ?_
    intro u hu
    rw [hproject]
    exact hmember u (hassignee.symm.trans hu)
  · exact fits_of_status (hproject.trans hproject') (hassignee.trans hsame) hreopened

theorem apply_fits {now : Int} {w : ItemWrite} {r r' : WorkItem} (hread : w.read = r)
    (hproject : r'.projectId = r.projectId) (hfits : Fits db r r')
    (hresolved : Resolved db (.writeItems 0 [w]))
    (hreopened : r.status.isActive = false → ItemChange.Reopens w.change → ToMember db r) :
    Fits db r (w.change.apply now r') := by
  have hres := (hresolved w (List.mem_singleton.mpr rfl)).2
  rw [hread] at hres
  cases hchange : w.change with
  | status s =>
    refine fits_status hfits hproject rfl rfl fun hactive hold => hreopened hold ?_
    exact .inl ⟨s, .inl hchange, hactive⟩
  | batchStatus s =>
    refine fits_status hfits hproject rfl rfl fun hactive hold => hreopened hold ?_
    exact .inl ⟨s, .inr hchange, hactive⟩
  | handoff s next =>
    rw [hchange] at hres
    cases next with
    | kept u =>
      refine fits_of_status hproject hres fun hactive hold => hreopened hold ?_
      exact .inr ⟨s, u, hchange, hactive⟩
    | named u =>
      refine .inl fun v hv => ?_
      obtain rfl := Option.some.inj hv
      change db.isMember r'.projectId u = true
      rw [hproject]
      exact hres
  | edit e =>
    rw [hchange] at hres
    refine .inl fun v hv => ?_
    change db.isMember r'.projectId v = true
    rw [hproject]
    exact hres v hv
  | batchAssignee u =>
    rw [hchange] at hres
    refine .inl fun v hv => ?_
    obtain rfl := Option.some.inj hv
    change db.isMember r'.projectId u = true
    rw [hproject]
    exact hres
  | batchPriority priority => exact hfits
  | batchCycle cycleId => exact hfits

@[simp] theorem apply_projectId (now : Int) (change : ItemChange) (wi : WorkItem) :
    (change.apply now wi).projectId = wi.projectId := by
  cases change <;> rfl

@[simp] theorem apply_deletedAt (now : Int) (change : ItemChange) (wi : WorkItem) :
    (change.apply now wi).deletedAt = wi.deletedAt := by
  cases change <;> rfl

/-- What the writes of a transaction make of an undeleted row. -/
theorem rewritten_fits (h : Inv db) {now actorUserId : Int} {writes : List ItemWrite}
    (hresolved : Resolved db (.writeItems actorUserId writes))
    (hreopened : Reopened db (.writeItems actorUserId writes)) {r : WorkItem}
    (hr : r ∈ db.workItems) (hdeleted : r.deletedAt = none) :
    (rewritten now writes r).projectId = r.projectId ∧ Fits db r (rewritten now writes r) := by
  have hinv := @rewritten_induction now
    (fun r' => r'.id = r.id ∧ r'.projectId = r.projectId ∧ Fits db r r') writes r
    ⟨rfl, rfl, .inr ⟨rfl, id⟩⟩ ?_
  · exact hinv.2
  intro w hw r' ⟨hid, hproject, hfits⟩ hwid
  have hread : w.read = r := eq_of_key h.ids (hresolved w hw).1 hr (hwid.symm.trans hid)
  refine ⟨by rw [apply_id, hid], by rw [apply_projectId, hproject], ?_⟩
  apply apply_fits hread hproject hfits
  · intro v hv
    obtain rfl := List.mem_singleton.mp hv
    exact hresolved v hw
  · intro hold hreopens
    refine hreopened w hw r ?_ hdeleted hold hreopens
    rw [hread]
    exact workItem_of_mem h.ids hr

theorem rewritten_deletedAt (now : Int) (writes : List ItemWrite) (wi : WorkItem) :
    (rewritten now writes wi).deletedAt = wi.deletedAt :=
  rewritten_induction (P := fun r => r.deletedAt = wi.deletedAt) rfl
    fun w _ r hr _ => by rw [apply_deletedAt, hr]

theorem writeItems_keeps (h : Inv db) {now actorUserId : Int} {writes : List ItemWrite}
    (hresolved : Resolved db (.writeItems actorUserId writes))
    (hreopened : Reopened db (.writeItems actorUserId writes)) :
    Inv (db.writeItems writes now) := by
  have hmembers : ∀ projectId userId, (db.writeItems writes now).isMember projectId userId =
      db.isMember projectId userId := by
    intro projectId userId
    unfold Db.isMember
    rw [writeItems_members]
  apply keeps_map h (writeItems_workItems writes) (Supported.writeItems_nextWorkItem writes now)
    (rewritten_id writes)
  intro r hr hdeleted hactive u hu
  rw [rewritten_deletedAt] at hdeleted
  obtain ⟨hproject, hfits⟩ := rewritten_fits h hresolved hreopened hr hdeleted
  rw [hmembers]
  rcases hfits with hmember | ⟨hassignee, hwas⟩
  · exact hmember u hu
  · rw [hproject]
    exact h.assigned r hr hdeleted (hwas hactive) u (hassignee.symm.trans hu)

theorem archiveItem_keeps (h : Inv db) (read : WorkItem) (actorUserId now : Int) :
    Inv (db.archiveItem read actorUserId now) := by
  refine keeps_map h rfl rfl ?_ ?_
  · intro r
    split <;> rfl
  · intro r hr
    split
    · intro hdeleted
      cases hdeleted
    · exact h.assigned r hr

theorem restoreItem_keeps (h : Inv db) {itemKey : String} {actorUserId : Int}
    (hreopened : Reopened db (.restoreItem itemKey actorUserId)) :
    Inv (db.restoreItem itemKey actorUserId now).1 := by
  rcases @restoreItem_fst db now itemKey actorUserId with hsame | ⟨row, hrow, hpassed, hundeleted⟩
  · rw [hsame]
    exact h
  rw [hundeleted]
  refine keeps_map h rfl rfl ?_ ?_
  · intro r
    split <;> rfl
  · intro r hr
    split
    · rename_i hid
      have hthis : r = row.item := eq_of_key h.ids hr (anyItem_mem hrow) (beq_iff_eq.mp hid)
      intro _ hactive
      rw [hthis] at hactive ⊢
      obtain ⟨hdeleted, haccepts, havailable⟩ := hpassed
      exact hreopened row hrow (Option.isSome_iff_ne_none.mp hdeleted) haccepts havailable hactive
    · exact h.assigned r hr

theorem setMemberRole_isMember (projectId userId actorUserId : Int) (username : String)
    (oldRole role : MemberRole) (now : Int) {projectId' userId' : Int}
    (h : db.isMember projectId' userId' = true) :
    (db.setMemberRole projectId userId actorUserId username oldRole role now).isMember projectId'
      userId' = true := by
  rw [Ownership.isMember_iff] at h ⊢
  apply isMember_updateWhere
  · exact fun _ => ⟨rfl, rfl⟩
  · exact h

theorem perform_keeps (h : Inv db) {st : Statement} (hresolved : Resolved db st)
    (hreopened : Reopened db st) (hmember : ByMember db st) (m : Moment) :
    Inv (perform m st db).1 := by
  rcases perform_written m st db with hsame | hwritten
  · rw [hsame]
    exact h
  rw [hwritten]
  cases st with
  | insertProject p =>
    exact keeps_members h (insertProject_workItems db p m.now)
      (Supported.insertProject_nextWorkItem p m.now) fun _ _ => insertProject_isMember p m.now
  | updateProject u => exact keeps_members h rfl rfl fun _ _ => updateProject_isMember u m.now
  | addMembers projectId actorUserId selected role =>
    simp only [Statement.written]
    split
    · exact keeps_members h (addMembers_workItems db projectId actorUserId selected role m.now)
        (Supported.addMembers_nextWorkItem projectId actorUserId selected role m.now)
        fun _ _ => addMembers_isMember projectId actorUserId selected role m.now
    · exact h
  | removeMember projectId userId actorUserId username => exact removeMember_keeps h hresolved
  | setMemberRole projectId userId actorUserId username oldRole role =>
    exact keeps_members h rfl rfl fun _ _ =>
      setMemberRole_isMember projectId userId actorUserId username oldRole role m.now
  | insertItem i =>
    apply insertItem_keeps h
    rcases hresolved with hactor | hnamed
    · rw [hactor]
      exact hmember
    · exact hnamed
  | writeItems actorUserId writes => exact writeItems_keeps h hresolved hreopened
  | archiveItem read actorUserId => exact archiveItem_keeps h read actorUserId m.now
  | restoreItem itemKey actorUserId => exact restoreItem_keeps h hreopened
  | _ => exact h

end Steps

/-! ## What a call makes sure of, alone -/

section Calls

open Undisturbed hiding commit_quietly commit_then getItem_finds resolveProjectMember_finds makes_quietly

variable {db : Db}

/-- What is kept by calls that run one after the other. -/
def rules : Rules where
  I := Inv
  C db st := Reopened db st ∧ ByMember db st
  G _ _ := True
  reads _ _ _ := trivial

/-- The call keeps the invariant if no other call comes between its statements. -/
abbrev Quietly {α : Type} (Q : α → Db → Prop) (p : Task α) (db : Db) : Prop := rules.Quietly Q p db

/-- A call that finds out `R` and leaves the tables alone. -/
abbrev Finds {α : Type} (R : α → Prop) (p : Task α) (db : Db) : Prop := rules.Finds R p db

variable {α β : Type} {p : Task α} {f : α → Task β}

theorem commit_quietly {st : Statement} (hresolved : Resolved db st) :
    Quietly (fun _ _ => True) (query st) db :=
  Undisturbed.commit_quietly fun hi hc =>
    ⟨trivial, fun m => perform_keeps hi hresolved hc.1 hc.2 m⟩

theorem commit_then {st : Statement} {f : st.Answer → Task β} (hresolved : Resolved db st)
    (hf : ∀ a, Looks (f a)) : Quietly (fun _ _ => True) (query st >>= f) db :=
  Undisturbed.commit_then
    (fun hi hc => ⟨trivial, fun m => perform_keeps hi hresolved hc.1 hc.2 m⟩) hf

theorem getItem_finds (itemKey : String) :
    Finds (fun row => row.item ∈ db.workItems) (getItem itemKey) db := by
  refine alone_mono (Undisturbed.getItem_finds itemKey) ?_
  rintro row _ ⟨hrow, rfl⟩
  exact ⟨anyItem_mem (Option.filter_eq_some_iff.mp hrow).1, rfl⟩

theorem activeMember_isMember {projectId : Int} {username : String} {user : User}
    (h : db.activeMember projectId username = some user) :
    db.isMember projectId user.id = true := by
  have hboth := (Option.filter_eq_some_iff.mp h).2
  exact (Bool.and_eq_true_iff.mp hboth).2

theorem resolveProjectMember_finds (projectId : Int) (username : String) :
    Finds (fun user => db.isMember projectId user.id = true)
      (resolveProjectMember projectId username) db := by
  refine alone_mono (Undisturbed.resolveProjectMember_finds projectId username) ?_
  rintro user _ ⟨⟨_, _, huser⟩, rfl⟩
  exact ⟨activeMember_isMember huser, rfl⟩

theorem removeProjectMember_quietly (actorUserId : Int) (projectKey username : String) :
    Quietly (fun _ _ => True) (removeProjectMember actorUserId projectKey username) db := by
  unfold removeProjectMember
  refine Looks.then makes_check fun projectKey => ?_
  refine Looks.then makes_check fun username => ?_
  refine Looks.then (getProjectDetail_looks _ _) fun project => ?_
  refine Looks.then makes_check fun _ => ?_
  refine Looks.then (makes_query trivial) fun user => ?_
  refine Looks.then makes_okOr fun user => ?_
  refine Looks.then makes_rejectIf fun _ => ?_
  refine Rules.Finds.then (query_finds trivial fun _ => rfl) ?_
  rintro _ rfl
  refine rejectIf_finds.then fun _ hnone => ?_
  exact @commit_quietly db (.removeMember project.id user.id actorUserId username)
    (Nat.le_zero.mp (Nat.not_lt.mp hnone))

theorem newAssignee_finds (projectId actorUserId : Int) (assigneeUsername : String) :
    Finds (fun userId => userId = actorUserId ∨ db.isMember projectId userId = true)
      (newAssignee projectId actorUserId assigneeUsername) db := by
  unfold newAssignee
  split
  · exact done_finds (.inl rfl)
  · refine (resolveProjectMember_finds _ _).then fun user huser => ?_
    exact done_finds (.inr huser)

theorem createWorkItem_quietly (actorUserId : Int) (input : CreateWorkItemInput) :
    Quietly (fun _ _ => True) (createWorkItem actorUserId input) db := by
  unfold createWorkItem createWorkItemWithCycle
  refine (check_finds (R := fun checked => checked.2.actorUserId = actorUserId) ?_).then ?_
  · intro checked hchecked
    obtain ⟨_, _, hchecked⟩ := bind_eq_ok.mp hchecked
    obtain ⟨_, _, hchecked⟩ := bind_eq_ok.mp hchecked
    obtain ⟨_, _, hchecked⟩ := bind_eq_ok.mp hchecked
    obtain ⟨_, _, hchecked⟩ := bind_eq_ok.mp hchecked
    obtain ⟨_, _, hchecked⟩ := bind_eq_ok.mp hchecked
    obtain ⟨_, _, hchecked⟩ := bind_eq_ok.mp hchecked
    cases hchecked
    rfl
  intro checked hactor
  refine Looks.then (getProjectDetail_looks _ _) fun project => ?_
  refine Looks.then makes_check fun _ => ?_
  refine Looks.then (resolveParentWorkItemId_looks _ _ _) fun parentWorkItemId => ?_
  refine Looks.then (resolveProjectCycle_looks _ _) fun cycle => ?_
  refine (newAssignee_finds _ _ _).then fun assigneeUserId hassignee => ?_
  refine commit_then ?_ fun _ => getWorkItemDetail_looks _ _
  rcases hassignee with hself | hmember
  · exact .inl (hself.trans hactor.symm)
  · exact .inr hmember

theorem updateWorkItemStatus_quietly (actorUserId : Int) (itemKey status : String) :
    Quietly (fun _ _ => True) (updateWorkItemStatus actorUserId itemKey status) db := by
  unfold updateWorkItemStatus
  refine Looks.then makes_check fun status => ?_
  refine (getItem_finds itemKey).then fun row hrow => ?_
  refine Looks.then makes_check fun _ => ?_
  refine Looks.then makes_check fun _ => ?_
  refine commit_then ?_ fun _ => getWorkItemDetail_looks _ _
  intro w hw
  obtain rfl := List.mem_singleton.mp hw
  exact ⟨hrow, trivial⟩

/-- The assignee of a handoff is the one that was read, or a member. -/
theorem handoffAssignee_finds (row : ItemRow) (assigneeUsername : String) :
    Finds (fun next => next.1 = .kept row.item.assigneeUserId ∨
        ∃ u, next.1 = .named u ∧ db.isMember row.item.projectId u = true)
      (handoffAssignee row assigneeUsername) db := by
  unfold handoffAssignee
  split
  · exact done_finds (.inl rfl)
  · refine (resolveProjectMember_finds _ _).then fun user huser => ?_
    exact done_finds (.inr ⟨user.id, rfl, huser⟩)

theorem handoffWorkItem_quietly (actorUserId : Int) (itemKey : String)
    (input : HandoffWorkItemInput) :
    Quietly (fun _ _ => True) (handoffWorkItem actorUserId itemKey input) db := by
  unfold handoffWorkItem
  refine Looks.then makes_check fun status => ?_
  refine Looks.then makes_check fun body => ?_
  refine (getItem_finds itemKey).then fun row hrow => ?_
  unfold applyHandoff
  refine Looks.then makes_check fun _ => ?_
  refine Looks.then makes_check fun _ => ?_
  refine Looks.then (ensureComment_looks _ _) fun _ => ?_
  refine (handoffAssignee_finds _ _).then fun next hnext => ?_
  refine Looks.then makes_rejectIf fun _ => ?_
  refine commit_then ?_ fun _ => getWorkItemDetail_looks _ _
  intro w hw
  obtain rfl := List.mem_singleton.mp hw
  refine ⟨hrow, ?_⟩
  obtain ⟨next, nextUsername⟩ := next
  rcases hnext with rfl | ⟨u, rfl, hmember⟩
  · rfl
  · exact hmember

theorem editAssignee_finds (projectId : Int) (assigneeUsername : String) :
    Finds (fun userId => ∀ u, userId = some u → db.isMember projectId u = true)
      (editAssignee projectId assigneeUsername) db := by
  unfold editAssignee
  split
  · exact done_finds fun _ h => nomatch h
  · refine (resolveProjectMember_finds _ _).then fun user huser => done_finds ?_
    intro u hu
    obtain rfl := Option.some.inj hu
    exact huser

theorem updateWorkItem_quietly (actorUserId : Int) (itemKey : String)
    (input : UpdateWorkItemInput) :
    Quietly (fun _ _ => True) (updateWorkItem actorUserId itemKey input) db := by
  unfold updateWorkItem
  refine Looks.then makes_check fun checked => ?_
  refine (getItem_finds itemKey).then fun row hrow => ?_
  unfold applyEdit
  refine Looks.then makes_rejectIf fun _ => ?_
  refine Looks.then makes_check fun _ => ?_
  refine Looks.then makes_check fun _ => ?_
  refine Looks.then (resolveParentWorkItemId_looks _ _ _) fun _ => ?_
  refine (editAssignee_finds _ _).then fun assigneeUserId hassignee => ?_
  refine Looks.then (resolveProjectCycle_looks _ _) fun cycle => ?_
  refine commit_then ?_ fun _ => getWorkItemDetail_looks _ _
  intro w hw
  obtain rfl := List.mem_singleton.mp hw
  exact ⟨hrow, hassignee⟩

/-- The assignee of a batch is a member of its project. -/
def TargetMember (db : Db) (projectId : Int) : BatchActionTarget → Prop
  | .assignee user => db.isMember projectId user.id = true
  | _ => True

theorem batchAssigneeTarget_finds (project : Project) (rows : List ItemRow)
    (assigneeUsername : String) :
    Finds (TargetMember db project.id) (batchAssigneeTarget project rows assigneeUsername) db := by
  unfold batchAssigneeTarget
  refine (resolveProjectMember_finds _ _).then fun found hfound => ?_
  refine Rules.Finds.then (query_finds trivial fun _ => rfl) ?_
  rintro _ rfl
  refine okOr_finds.then fun user huser => ?_
  refine Looks.then makes_check fun _ => done_finds ?_
  change db.users.find? (·.id == found.id) = some user at huser
  have hid := List.find?_some huser
  change db.isMember project.id user.id = true
  rw [beq_iff_eq.mp hid]
  exact hfound

theorem batchTarget_finds (project : Project) (itemType : WorkItemType) (rows : List ItemRow)
    (input : BatchUpdateWorkItemsInput) (action : BatchAction) :
    Finds (TargetMember db project.id) (batchTarget project itemType rows input action) db := by
  cases action with
  | assignee => exact batchAssigneeTarget_finds project rows input.assigneeUsername
  | status =>
    refine Looks.then makes_check fun status => ?_
    exact Looks.then makes_check fun _ => done_finds trivial
  | priority =>
    refine Looks.then makes_check fun priority => ?_
    exact Looks.then makes_check fun _ => done_finds trivial
  | cycle =>
    refine Looks.then (resolveProjectCycle_looks _ _) fun cycle => ?_
    exact Looks.then makes_check fun _ => done_finds trivial

theorem projectId_of_checked {project : Project} {itemType : WorkItemType} {rows : List ItemRow}
    {u : Unit} (h : forEach (checkBatchRow project itemType) rows = .ok u) :
    ∀ row ∈ rows, row.item.projectId = project.id := by
  intro row hrow
  have hchecked := forEach_eq_ok.mp h row hrow
  obtain ⟨_, hproject, _⟩ := bind_eq_ok.mp hchecked
  exact Classical.not_not.mp (not_or.mp (rejectIf_eq_ok.mp hproject)).1

theorem batchUpdateWorkItems_quietly (actorUserId : Int) (input : BatchUpdateWorkItemsInput) :
    Quietly (fun _ _ => True) (batchUpdateWorkItems actorUserId input) db := by
  unfold batchUpdateWorkItems
  refine Looks.then makes_check fun _ => ?_
  refine Looks.then makes_check fun itemType => ?_
  refine Looks.then makes_check fun action => ?_
  refine Looks.then makes_check fun itemKeys => ?_
  refine Looks.then (getProjectDetail_looks _ _) fun project => ?_
  refine Looks.then makes_check fun _ => ?_
  unfold applyBatch
  refine Rules.Finds.then (query_finds trivial fun _ => rfl) ?_
  rintro _ rfl
  refine Looks.then makes_rejectIf fun _ => ?_
  refine (check_finds fun _ => projectId_of_checked).then fun _ hprojects => ?_
  refine (batchTarget_finds _ _ _ _ _).then fun target htarget => ?_
  refine commit_then ?_ fun _ => makes_done
  intro w hw
  obtain ⟨row, hrow, rfl⟩ := List.mem_map.mp hw
  cases target with
  | assignee user =>
    refine ⟨mem_of_itemsIn hrow, ?_⟩
    change db.isMember row.item.projectId user.id = true
    rw [hprojects row hrow]
    exact htarget
  | status status => exact ⟨mem_of_itemsIn hrow, trivial⟩
  | priority priority => exact ⟨mem_of_itemsIn hrow, trivial⟩
  | cycle cycle => exact ⟨mem_of_itemsIn hrow, trivial⟩

/-- A statement that rests on nothing that was read. -/
def Free (st : Statement) : Prop := ∀ db, Resolved db st

theorem free_of_read {st : Statement} (h : IsRead st) : Free st := by
  intro db
  cases st with
  | writeItems _ _ => exact absurd h id
  | insertItem _ => exact absurd h id
  | removeMember _ _ _ _ => exact absurd h id
  | _ => trivial

theorem makes_quietly (h : Makes Free p) : Quietly (fun _ _ => True) p db :=
  Undisturbed.makes_quietly h fun _ hfree b hi hc =>
    ⟨trivial, fun m => perform_keeps hi (hfree b) hc.1 hc.2 m⟩

theorem start_quietly (request : Request) : Quietly (fun _ _ => True) (start request) db := by
  have hread : ∀ st, IsRead st → Free st := fun _ => free_of_read
  cases request with
  | createProject actorUserId input keys =>
    apply makes_quietly
    exact makes_bind (createProject_makes hread (fun _ _ => trivial) _ _ _) fun _ => makes_done
  | updateProject actorUserId projectKey input =>
    apply makes_quietly
    exact makes_bind (updateProject_makes hread (fun _ _ => trivial) _ _ _) fun _ => makes_done
  | addProjectMembers actorUserId projectKey usernames memberRole =>
    apply makes_quietly
    refine makes_bind (addProjectMembers_makes hread ?_ _ _ _ _) fun _ => makes_done
    exact fun _ _ _ _ _ => trivial
  | updateProjectMemberRole actorUserId projectKey username memberRole =>
    apply makes_quietly
    refine makes_bind (updateProjectMemberRole_makes hread ?_ _ _ _ _) fun _ => makes_done
    exact fun _ _ _ _ _ _ _ _ => trivial
  | archiveWorkItem actorUserId itemKey =>
    apply makes_quietly
    exact makes_bind (archiveWorkItem_makes hread (fun _ _ _ => trivial) _ _) fun _ => makes_done
  | restoreWorkItem actorUserId itemKey =>
    apply makes_quietly
    exact makes_bind (restoreWorkItem_makes hread (fun _ _ _ => trivial) _ _) fun _ => makes_done
  | removeProjectMember actorUserId projectKey username =>
    exact alone_bind (removeProjectMember_quietly _ _ _) fun _ _ _ => alone_done trivial
  | createWorkItem actorUserId input =>
    exact alone_bind (createWorkItem_quietly _ _) fun _ _ _ => alone_done trivial
  | updateWorkItemStatus actorUserId itemKey status =>
    exact alone_bind (updateWorkItemStatus_quietly _ _ _) fun _ _ _ => alone_done trivial
  | closeWorkItem actorUserId itemKey =>
    exact alone_bind (updateWorkItemStatus_quietly _ _ _) fun _ _ _ => alone_done trivial
  | handoffWorkItem actorUserId itemKey input =>
    exact alone_bind (handoffWorkItem_quietly _ _ _) fun _ _ _ => alone_done trivial
  | updateWorkItem actorUserId itemKey input =>
    exact alone_bind (updateWorkItem_quietly _ _ _) fun _ _ _ => alone_done trivial
  | batchUpdateWorkItems actorUserId input =>
    exact alone_bind (batchUpdateWorkItems_quietly _ _) fun _ _ _ => alone_done trivial

end Calls

/-- From tables without work items on, in every run of calls one after the other in which members
create the work items and a work item that becomes unfinished again is assigned to a member or to
nobody, no unfinished work item is assigned to an outsider. -/
theorem unfinished_items_are_with_members (db : Db) (h0 : db.workItems = [])
    (tr : List (Entry Server (Turn Request Moment) Unit)) (s : Server)
    (hrun : Run (serve perform start) { db := db, calls := [] } tr s)
    (hturn : ∀ x ∈ tr, InTurn x.pre x.event) (hmember : ∀ x ∈ tr, Meets ByMember x.pre x.event)
    (hok : ∀ x ∈ tr, Meets Reopened x.pre x.event) : Assigned s.db := by
  have hinit : Inv db := by
    refine ⟨?_, ?_, ?_⟩
    · simp [h0]
    · simp [h0]
    · intro wi hwi
      rw [h0] at hwi
      cases hwi
  have hinv : Inv s.db := by
    refine (serve_alone hinit (fun request d => @start_quietly d request) hrun hturn ?_).1
    intro x hx
    have hby := hmember x hx
    have hre := hok x hx
    cases hevent : x.event with
    | begin request => trivial
    | resume i m =>
      rw [hevent] at hby hre
      exact fun st hst => ⟨hre st hst, hby st hst⟩
  exact hinv.assigned

/-- Two members and no work items. -/
def twoMembers : Db := { itemDb [⟨1, 2, .member, 0⟩] (sampleItem .task .opened none) with
  workItems := []
  nextWorkItem := 1 }

def bugFor (assigneeUsername : String) : CreateWorkItemInput :=
  { Supported.newBug with assigneeUsername := assigneeUsername }

/-- A bug is created for a member, archived, and restored. -/
def restoredBug : List (Turn Request Moment) :=
  [.begin (.createWorkItem 1 (bugFor "bob")), .resume 0 calm, .resume 0 calm, .resume 0 calm,
    .resume 0 calm, .begin (.archiveWorkItem 1 "PA-BUG-1"), .resume 1 calm, .resume 1 calm,
    .resume 1 calm, .begin (.restoreWorkItem 1 "PA-BUG-1"), .resume 2 calm]

theorem restored_bug_is_with_member :
    ∃ tr s, exec (serve perform start) ({ db := twoMembers, calls := [] } : Server) restoredBug =
        some (tr, s) ∧ s.db.workItems.map (fun wi => (wi.assigneeUserId, wi.deletedAt)) =
        [(some 2, none)] ∧ Assigned s.db := by
  obtain ⟨r, hr⟩ : ∃ r, exec (serve perform start) ({ db := twoMembers, calls := [] } : Server)
      restoredBug = some r := ⟨_, rfl⟩
  have hrestored : (exec (serve perform start) ({ db := twoMembers, calls := [] } : Server)
      restoredBug).map (fun r => r.2.db.workItems.map fun wi => (wi.assigneeUserId, wi.deletedAt)) =
      some [(some 2, none)] := by
    decide +kernel
  rw [hr] at hrestored
  refine ⟨r.1, r.2, hr, Option.some.inj hrestored, ?_⟩
  apply unfinished_items_are_with_members twoMembers rfl r.1 r.2 (run_of_exec hr)
  · intro x hx
    refine checks_exec (C := InTurn) hr ?_ hx
    exact ⟨trivial, rfl, rfl, rfl, rfl, trivial, rfl, rfl, rfl, trivial, rfl, trivial⟩
  · intro x hx
    refine checks_exec (C := Meets ByMember) hr ?_ hx
    exact ⟨trivial, meets_resume rfl trivial, meets_resume rfl trivial, meets_resume rfl rfl,
      meets_resume rfl trivial, trivial, meets_resume rfl trivial, meets_resume rfl trivial,
      meets_resume rfl trivial, trivial, meets_resume rfl trivial, trivial⟩
  · intro x hx
    refine checks_exec (C := Meets Reopened) hr ?_ hx
    refine ⟨trivial, meets_resume rfl trivial, meets_resume rfl trivial, meets_resume rfl trivial,
      meets_resume rfl trivial, trivial, meets_resume rfl trivial, meets_resume rfl trivial,
      meets_resume rfl trivial, trivial, meets_resume rfl ?_, trivial⟩
    intro row hrow _ _ _ _ u hu
    cases hrow
    cases hu
    rfl

/-- The member is removed while his bug is archived. -/
def abandonedBug : List (Turn Request Moment) :=
  [.begin (.createWorkItem 1 (bugFor "bob")), .resume 0 calm, .resume 0 calm, .resume 0 calm,
    .resume 0 calm, .begin (.archiveWorkItem 1 "PA-BUG-1"), .resume 1 calm, .resume 1 calm,
    .resume 1 calm, .begin (.removeProjectMember 1 "PA" "bob"), .resume 2 calm, .resume 2 calm,
    .resume 2 calm, .resume 2 calm, .begin (.restoreWorkItem 1 "PA-BUG-1"), .resume 3 calm]

theorem restored_bug_is_with_outsider :
    ∃ db tr s, db.workItems = [] ∧
      Run (serve perform start) ({ db := db, calls := [] } : Server) tr s ∧
      (∀ x ∈ tr, InTurn x.pre x.event) ∧ (∀ x ∈ tr, Meets ByMember x.pre x.event) ∧
      ¬Assigned s.db := by
  obtain ⟨r, hr⟩ : ∃ r, exec (serve perform start) ({ db := twoMembers, calls := [] } : Server)
      abandonedBug = some r := ⟨_, rfl⟩
  have hleft : (exec (serve perform start) ({ db := twoMembers, calls := [] } : Server)
      abandonedBug).map (fun r => r.2.db.workItems.map fun wi =>
        (wi.deletedAt, wi.status.isActive, wi.assigneeUserId, r.2.db.isMember wi.projectId 2)) =
      some [(none, true, some 2, false)] := by
    decide +kernel
  rw [hr] at hleft
  obtain ⟨wi, hitems, hrow⟩ := List.map_eq_singleton_iff.mp (Option.some.inj hleft)
  obtain ⟨hdeleted, hrow⟩ := Prod.mk.inj hrow
  obtain ⟨hactive, hrow⟩ := Prod.mk.inj hrow
  obtain ⟨hassignee, hmember⟩ := Prod.mk.inj hrow
  refine ⟨twoMembers, r.1, r.2, rfl, run_of_exec hr, ?_, ?_, ?_⟩
  · intro x hx
    refine checks_exec (C := InTurn) hr ?_ hx
    exact ⟨trivial, rfl, rfl, rfl, rfl, trivial, rfl, rfl, rfl, trivial, rfl, rfl, rfl, rfl, trivial,
      rfl, trivial⟩
  · intro x hx
    refine checks_exec (C := Meets ByMember) hr ?_ hx
    exact ⟨trivial, meets_resume rfl trivial, meets_resume rfl trivial, meets_resume rfl rfl,
      meets_resume rfl trivial, trivial, meets_resume rfl trivial, meets_resume rfl trivial,
      meets_resume rfl trivial, trivial, meets_resume rfl trivial, meets_resume rfl trivial,
      meets_resume rfl trivial, meets_resume rfl trivial, trivial, meets_resume rfl trivial,
      trivial⟩
  · intro hassigned
    have hmem : wi ∈ r.2.db.workItems := by
      rw [hitems]
      exact List.mem_singleton.mpr rfl
    have hin := hassigned wi hmem hdeleted hactive 2 hassignee
    rw [hmember] at hin
    cases hin

end Assignees
end Projects
end Yuance
