import Yuance.Projects.Analysis
import Yuance.Projects.Supported
import Yuance.Projects.Undisturbed

/-!
# Yuance.Projects.Completions

What the figures of a user count, when calls run one after the other: the changes that completed a
work item. Each is found again in one record of the log, by the texts that it was stored as.

* `Sound`: the keys of the tables, well-formed names, and records of work items that exist.
* `Told`: a transaction records what it does to the rows, which are stored as they were read.
* `changes`: when a step completed work items of a project, as a user.
-/

namespace Yuance
namespace Projects
namespace Completions

open Lib Platform

structure Sound (db : Db) : Prop where
  bound : ∀ r ∈ db.workItems, r.id < db.nextWorkItem
  ids : (db.workItems.map (·.id)).Nodup
  keys : (db.workItems.map (·.itemKey)).Nodup
  usernames : ∀ u ∈ db.users, validateUsernameRef u.username = .ok u.username
  targets : ∀ a ∈ db.activities, a.kind.isCompletion = true →
    ∃ r ∈ db.workItems, r.itemKey = a.targetId

/-- The write takes its row from an unfinished status to a completed one. -/
def completes (w : ItemWrite) : Bool :=
  w.read.status.isActive && (w.change.status?.getD w.read.status).isCompleted

/-- The activities are about the row, and one of them is counted if the write completes it. -/
structure Tells (actorUserId : Int) (w : ItemWrite) : Prop where
  about : ∀ a ∈ w.activities, a.projectId = w.read.projectId ∧ a.actorUserId = actorUserId ∧
    a.targetId = w.read.itemKey
  once : (w.activities.filter (·.kind.isCompletion)).length = if completes w then 1 else 0

/-- What a transaction finds, where nothing came between. -/
def Told (db : Db) : Statement → Prop
  | .writeItems actorUserId writes => (∀ w ∈ writes, w.read ∈ db.workItems) ∧
      (writes.map (·.read.id)).Nodup ∧ ∀ w ∈ writes, Tells actorUserId w
  | _ => True

theorem active_completed (status : WorkItemStatus) :
    (status.isActive && status.isCompleted) = false := by
  cases status <;> rfl

/-! ## What is written to the log -/

section Log

variable {db db' : Db} {now : Int}

/-- The same users, and activities without a status. -/
structure Silent (db db' : Db) : Prop where
  users : db'.users = db.users
  log : ∃ added, db'.activities = db.activities ++ added ∧ ∀ a ∈ added, a.kind.metadata? = none

theorem Silent.of_eq (husers : db'.users = db.users) (hlog : db'.activities = db.activities) :
    Silent db db' :=
  ⟨husers, [], hlog.trans (List.append_nil _).symm, fun _ h => absurd h List.not_mem_nil⟩

theorem Silent.refl (db : Db) : Silent db db := .of_eq rfl rfl

theorem Silent.trans {a b c : Db} (h : Silent a b) (h' : Silent b c) : Silent a c := by
  obtain ⟨added, hadded, hnone⟩ := h.log
  obtain ⟨added', hadded', hnone'⟩ := h'.log
  refine ⟨h'.users.trans h.users, added ++ added', ?_, ?_⟩
  · rw [hadded', hadded, List.append_assoc]
  · intro a ha
    rcases List.mem_append.mp ha with hmem | hmem
    · exact hnone a hmem
    · exact hnone' a hmem

/-- Activities without a status, beside changes of other tables. -/
theorem silent_record {db₁ : Db} {activities : List Activity} (husers : db₁.users = db.users)
    (hlog : db₁.activities = db.activities) (h : ∀ a ∈ activities, a.kind.metadata? = none) :
    Silent db (db₁.record activities now) := by
  refine ⟨husers, activities.map fun a => { a with createdAt := now }, ?_, ?_⟩
  · unfold Db.record
    dsimp only
    rw [hlog]
  · intro a ha
    obtain ⟨b, hb, rfl⟩ := List.mem_map.mp ha
    exact h b hb

theorem silent_upsert (projectId userId : Int) (role : MemberRole) :
    Silent db (db.upsertMember projectId userId role now) := by
  unfold Db.upsertMember
  split
  · exact .of_eq rfl rfl
  · exact .of_eq rfl rfl

theorem silent_one {kind : ActivityKind} (h : kind.metadata? = none) {projectId actorUserId : Int}
    {targetId : String} : ∀ a ∈ [({ projectId, actorUserId, targetId, kind } : Activity)],
      a.kind.metadata? = none := by
  intro a ha
  obtain rfl := List.mem_singleton.mp ha
  exact h

theorem silent_addMembers (projectId actorUserId : Int) (selected : List User) (role : MemberRole) :
    Silent db (db.addMembers projectId actorUserId selected role now) := by
  unfold Db.addMembers
  induction selected generalizing db with
  | nil => exact .refl db
  | cons user rest ih =>
    rw [List.foldl_cons]
    refine .trans ?_ ih
    exact (silent_upsert projectId user.id role).trans (silent_record rfl rfl (silent_one rfl))

theorem silent_insertProject (p : ProjectInsert) : Silent db (db.insertProject p now).1 := by
  unfold Db.insertProject
  split
  · exact .refl db
  dsimp only
  rcases byUser_fst db p.actorUserId _ with h | h
  · rw [h]
    exact .refl db
  · rw [h]
    refine .trans ?_ (silent_record rfl rfl (silent_one rfl))
    refine .trans ?_ (silent_upsert db.nextProject p.actorUserId .owner)
    exact .of_eq rfl rfl

theorem silent_insertItem (i : ItemInsert) : Silent db (db.insertItem i now).1 := by
  unfold Db.insertItem
  dsimp only
  split
  · exact .refl db
  · refine silent_record rfl rfl ?_
    intro a ha
    rcases List.mem_cons.mp ha with rfl | ha
    · rfl
    · split at ha
      · exact silent_one rfl a ha
      · cases ha

theorem silent_restoreItem (itemKey : String) (actorUserId : Int) :
    Silent db (db.restoreItem itemKey actorUserId now).1 := by
  rcases @restoreItem_fst db now itemKey actorUserId with h | ⟨row, _, _, h⟩
  · rw [h]
    exact .refl db
  · rw [h]
    exact silent_record rfl rfl (silent_one rfl)

/-- The statements beside `writeItems` record no status. -/
theorem written_silent {st : Statement}
    (hwrites : ∀ actorUserId writes, st ≠ .writeItems actorUserId writes) :
    Silent db (st.written now db) := by
  cases st with
  | insertProject p => exact silent_insertProject p
  | updateProject u => exact silent_record rfl rfl (silent_one rfl)
  | addMembers projectId actorUserId selected role =>
    simp only [Statement.written]
    split
    · exact silent_addMembers projectId actorUserId selected role
    · exact .refl db
  | removeMember projectId userId actorUserId username =>
    exact silent_record rfl rfl (silent_one rfl)
  | setMemberRole projectId userId actorUserId username oldRole role =>
    exact silent_record rfl rfl (silent_one rfl)
  | insertItem i => exact silent_insertItem i
  | writeItems actorUserId writes => exact absurd rfl (hwrites actorUserId writes)
  | archiveItem read actorUserId => exact silent_record rfl rfl (silent_one rfl)
  | restoreItem itemKey actorUserId => exact silent_restoreItem itemKey actorUserId
  | _ => exact .refl db

theorem Silent.completions (h : Silent db db') (projectId userId : Int) :
    db'.completions projectId userId = db.completions projectId userId := by
  obtain ⟨added, hadded, hnone⟩ := h.log
  unfold Db.completions Db.activitiesOf
  rw [hadded, List.filter_append, List.filter_append]
  have hnil : (added.filter fun a => a.projectId == projectId && a.actorUserId == userId).filter
      (·.kind.isCompletion) = [] := by
    apply List.filter_eq_nil_iff.mpr
    intro a ha
    rw [isCompletion_of_none (hnone a (List.mem_filter.mp ha).1)]
    exact Bool.false_ne_true
  rw [hnil, List.append_nil]

theorem writeItems_users (writes : List ItemWrite) :
    (db.writeItems writes now).users = db.users := by
  unfold Db.writeItems
  induction writes generalizing db with
  | nil => rfl
  | cons w writes ih =>
    rw [List.foldl_cons, ih]
    rfl

/-- The rows that a transaction adds to the log. -/
def logged (now : Int) (writes : List ItemWrite) : List ActivityRow :=
  writes.flatMap fun w => w.activities.map fun a => { a with createdAt := now }

theorem writeItems_activities (writes : List ItemWrite) :
    (db.writeItems writes now).activities = db.activities ++ logged now writes := by
  unfold Db.writeItems logged
  induction writes generalizing db with
  | nil => exact (List.append_nil _).symm
  | cons w writes ih =>
    rw [List.foldl_cons, ih, List.flatMap_cons, ← List.append_assoc]
    rfl

end Log

/-! ## What is written to the work items -/

section Items

variable {db db' : Db} {now : Int}

/-- The work items stay with their keys; one may be added, with keys that are new. -/
inductive Stays (db db' : Db) : Prop where
  | mapped (f : WorkItem → WorkItem) (hkeys : ∀ r, (f r).id = r.id ∧ (f r).itemKey = r.itemKey)
      (hitems : db'.workItems = db.workItems.map f) (hnext : db'.nextWorkItem = db.nextWorkItem)
  | added (r : WorkItem) (hid : r.id = db.nextWorkItem) (hkey : db.workItemKeyed r.itemKey = none)
      (hitems : db'.workItems = db.workItems ++ [r])
      (hnext : db'.nextWorkItem = db.nextWorkItem + 1)

theorem Stays.of_eq (hitems : db'.workItems = db.workItems)
    (hnext : db'.nextWorkItem = db.nextWorkItem) : Stays db db' :=
  .mapped id (fun _ => ⟨rfl, rfl⟩) (hitems.trans (List.map_id _).symm) hnext

theorem stays_updateWhere {p : WorkItem → Bool} {f : WorkItem → WorkItem}
    (hkeys : ∀ r, (f r).id = r.id ∧ (f r).itemKey = r.itemKey)
    (hitems : db'.workItems = updateWhere p f db.workItems)
    (hnext : db'.nextWorkItem = db.nextWorkItem) : Stays db db' := by
  refine .mapped (fun r => if p r then f r else r) (fun r => ?_) hitems hnext
  split
  · exact hkeys r
  · exact ⟨rfl, rfl⟩

@[simp] theorem apply_itemKey (now : Int) (change : ItemChange) (wi : WorkItem) :
    (change.apply now wi).itemKey = wi.itemKey := by
  cases change <;> rfl

theorem rewritten_itemKey (writes : List ItemWrite) (wi : WorkItem) :
    (rewritten now writes wi).itemKey = wi.itemKey :=
  rewritten_induction (P := fun r => r.itemKey = wi.itemKey) rfl fun w _ r hr _ => by
    rw [apply_itemKey, hr]

theorem stays_insertItem (i : ItemInsert) : Stays db (db.insertItem i now).1 := by
  unfold Db.insertItem
  dsimp only
  split
  · exact .of_eq rfl rfl
  · rename_i hfree
    rw [Option.not_isSome_iff_eq_none] at hfree
    exact .added (i.row db.nextWorkItem (i.head ++ toString (db.nextNumber i))) rfl hfree rfl rfl

theorem written_stays {st : Statement} : Stays db (st.written now db) := by
  cases st with
  | insertProject p =>
    exact .of_eq (insertProject_workItems db p now) (Supported.insertProject_nextWorkItem p now)
  | addMembers projectId actorUserId selected role =>
    simp only [Statement.written]
    split
    · exact .of_eq (addMembers_workItems db projectId actorUserId selected role now)
        (Supported.addMembers_nextWorkItem projectId actorUserId selected role now)
    · exact .of_eq rfl rfl
  | insertItem i => exact stays_insertItem i
  | writeItems actorUserId writes =>
    exact .mapped (rewritten now writes)
      (fun r => ⟨rewritten_id writes r, rewritten_itemKey writes r⟩) (writeItems_workItems writes)
      (Supported.writeItems_nextWorkItem writes now)
  | archiveItem read actorUserId =>
    refine stays_updateWhere ?_ rfl rfl
    exact fun _ => ⟨rfl, rfl⟩
  | restoreItem itemKey actorUserId =>
    simp only [Statement.written]
    rcases @restoreItem_fst db now itemKey actorUserId with h | ⟨row, _, _, h⟩
    · rw [h]
      exact .of_eq rfl rfl
    · rw [h]
      refine stays_updateWhere ?_ rfl rfl
      exact fun _ => ⟨rfl, rfl⟩
  | _ => exact .of_eq rfl rfl

/-- A record whose item exists finds it later, too. -/
theorem Stays.target (h : Stays db db') {itemKey : String}
    (hr : ∃ r ∈ db.workItems, r.itemKey = itemKey) : ∃ r ∈ db'.workItems, r.itemKey = itemKey := by
  obtain ⟨r, hr, hkey⟩ := hr
  cases h with
  | mapped f hkeys hitems hnext =>
    rw [hitems]
    exact ⟨f r, List.mem_map_of_mem hr, (hkeys r).2.trans hkey⟩
  | added r' hid hkey' hitems hnext =>
    rw [hitems]
    exact ⟨r, List.mem_append_left _ hr, hkey⟩

/-- The tables are sound behind a statement whose records are of stored items. -/
theorem Sound.stays (hdb : Sound db) (h : Stays db db') (husers : db'.users = db.users)
    (htargets : ∀ a ∈ db'.activities, a ∉ db.activities → a.kind.isCompletion = true →
      ∃ r ∈ db.workItems, r.itemKey = a.targetId) : Sound db' := by
  have htargets' : ∀ a ∈ db'.activities, a.kind.isCompletion = true →
      ∃ r ∈ db'.workItems, r.itemKey = a.targetId := by
    intro a ha hcounted
    apply h.target
    by_cases hold : a ∈ db.activities
    · exact hdb.targets a hold hcounted
    · exact htargets a ha hold hcounted
  have husers' : ∀ u ∈ db'.users, validateUsernameRef u.username = .ok u.username := by
    rw [husers]
    exact hdb.usernames
  cases h with
  | mapped f hkeys hitems hnext =>
    refine ⟨?_, ?_, ?_, husers', htargets'⟩
    · intro r' hr'
      rw [hitems] at hr'
      obtain ⟨r, hr, rfl⟩ := List.mem_map.mp hr'
      rw [(hkeys r).1, hnext]
      exact hdb.bound r hr
    · rw [hitems, List.map_map]
      have hsame : (fun r : WorkItem => r.id) ∘ f = fun r => r.id :=
        funext fun r => (hkeys r).1
      rw [hsame]
      exact hdb.ids
    · rw [hitems, List.map_map]
      have hsame : (fun r : WorkItem => r.itemKey) ∘ f = fun r => r.itemKey :=
        funext fun r => (hkeys r).2
      rw [hsame]
      exact hdb.keys
  | added r hid hkey hitems hnext =>
    refine ⟨?_, ?_, ?_, husers', htargets'⟩
    · intro r' hr'
      rw [hitems] at hr'
      rw [hnext]
      rcases List.mem_append.mp hr' with hmem | hmem
      · have := hdb.bound r' hmem
        omega
      · obtain rfl := List.mem_singleton.mp hmem
        omega
    · rw [hitems, List.map_append]
      apply hdb.ids.append (List.nodup_singleton _)
      apply List.disjoint_singleton.mpr
      intro hmem
      obtain ⟨r', hr', hsame⟩ := List.mem_map.mp hmem
      have hbound := hdb.bound r' hr'
      have hsame : r'.id = r.id := hsame
      omega
    · rw [hitems, List.map_append]
      apply hdb.keys.append (List.nodup_singleton _)
      apply List.disjoint_singleton.mpr
      intro hmem
      obtain ⟨r', hr', hsame⟩ := List.mem_map.mp hmem
      exact List.find?_eq_none.mp hkey r' hr' (beq_iff_eq.mpr hsame)

end Items

/-! ## What one transaction counts -/

section Writes

variable {db : Db} {now : Int} {writes : List ItemWrite} {w : ItemWrite} {r : WorkItem}

theorem rewritten_unread (h : ∀ w ∈ writes, w.read.id ≠ r.id) : rewritten now writes r = r :=
  rewritten_induction (P := fun r' => r' = r) rfl fun w hw r' hr' hread => by
    rw [hr'] at hread
    exact absurd hread.symm (h w hw)

/-- Where each row is written once, it becomes what its write makes of it. -/
theorem rewritten_read (hids : (writes.map (·.read.id)).Nodup) (hw : w ∈ writes)
    (hr : r.id = w.read.id) : rewritten now writes r = w.change.apply now r := by
  induction writes generalizing r with
  | nil => cases hw
  | cons v writes ih =>
    rw [List.map_cons, List.nodup_cons] at hids
    rw [rewritten_cons]
    rcases List.mem_cons.mp hw with rfl | hlater
    · rw [if_pos (beq_iff_eq.mpr hr)]
      apply rewritten_unread
      intro u hu hsame
      rw [apply_id, hr] at hsame
      exact hids.1 (List.mem_map.mpr ⟨u, hu, hsame⟩)
    · have hother : ¬(r.id == v.read.id) = true := by
        rw [beq_iff_eq, hr]
        intro hsame
        exact hids.1 (List.mem_map.mpr ⟨w, hlater, hsame⟩)
      rw [if_neg hother]
      exact ih hids.2 hlater hr

/-- The work items of the project that are taken from an unfinished status to a completed one. -/
def completedItems (projectId : Int) (db db' : Db) : List WorkItem :=
  db.workItems.filter fun r => r.projectId == projectId &&
    (db'.workItem r.id).any fun r' => r.status.isActive && r'.status.isCompleted

theorem completedItems_nil {projectId : Int} {db' : Db} (h : ∀ r ∈ db.workItems, ∀ r',
    db'.workItem r.id = some r' → r'.status = r.status) : completedItems projectId db db' = [] := by
  apply List.filter_eq_nil_iff.mpr
  intro r hr
  rw [Bool.and_eq_true]
  rintro ⟨_, hany⟩
  obtain ⟨r', hr', hcompletes⟩ := (Option.any_eq_true _ _).mp hany
  rw [h r hr r' hr', active_completed] at hcompletes
  cases hcompletes

theorem mem_completedItems (hdb : Sound db) {projectId : Int} :
    r ∈ completedItems projectId db (db.writeItems writes now) ↔
      r ∈ db.workItems ∧ r.projectId = projectId ∧
        (r.status.isActive && (rewritten now writes r).status.isCompleted) = true := by
  unfold completedItems
  rw [List.mem_filter, Bool.and_eq_true, beq_iff_eq]
  refine and_congr_right fun hr => and_congr_right fun _ => ?_
  rw [writeItems_workItem, workItem_of_mem hdb.ids hr, Option.map_some, Option.any_some]

/-- A transaction completes an item for each of its writes that does. -/
theorem length_completedItems (hdb : Sound db) {actorUserId : Int}
    (htold : Told db (.writeItems actorUserId writes)) (projectId : Int) :
    (completedItems projectId db (db.writeItems writes now)).length =
      (writes.filter fun w => w.read.projectId == projectId && completes w).length := by
  obtain ⟨hread, hids, _⟩ := htold
  have hperm : (completedItems projectId db (db.writeItems writes now)).Perm
      ((writes.filter fun w => w.read.projectId == projectId && completes w).map (·.read)) := by
    apply (List.perm_ext_iff_of_nodup ?_ ?_).mpr
    · intro r
      rw [mem_completedItems hdb, List.mem_map]
      constructor
      · rintro ⟨hr, hproject, hcompletes⟩
        by_cases hwritten : ∃ w ∈ writes, w.read.id = r.id
        · obtain ⟨w, hw, hid⟩ := hwritten
          have hsame : w.read = r := eq_of_key hdb.ids (hread w hw) hr hid
          rw [rewritten_read hids hw hid.symm, apply_status, ← hsame] at hcompletes
          refine ⟨w, List.mem_filter.mpr ⟨hw, ?_⟩, hsame⟩
          rw [Bool.and_eq_true, beq_iff_eq, hsame]
          exact ⟨hproject, hcompletes⟩
        · rw [rewritten_unread fun w hw hid => hwritten ⟨w, hw, hid⟩, active_completed] at hcompletes
          cases hcompletes
      · rintro ⟨w, hw, rfl⟩
        obtain ⟨hw, hboth⟩ := List.mem_filter.mp hw
        rw [Bool.and_eq_true, beq_iff_eq] at hboth
        refine ⟨hread w hw, hboth.1, ?_⟩
        rw [rewritten_read hids hw rfl, apply_status]
        exact hboth.2
    · exact (List.Nodup.of_map _ hdb.ids).filter _
    · have hreads : (writes.map (·.read)).Nodup := by
        apply List.Nodup.of_map (·.id)
        rw [List.map_map]
        exact hids
      exact hreads.sublist (List.filter_sublist.map _)
  rw [hperm.length_eq, List.length_map]

/-- The counted rows of one write. -/
theorem length_counted {actorUserId : Int} (h : Tells actorUserId w) (projectId userId : Int) :
    ((w.activities.filter fun a => a.projectId == projectId && a.actorUserId == userId).filter
      (·.kind.isCompletion)).length =
      if actorUserId = userId ∧ w.read.projectId = projectId ∧ completes w = true then 1 else 0 := by
  by_cases hkeys : actorUserId = userId ∧ w.read.projectId = projectId
  · have hall : (w.activities.filter fun a =>
        a.projectId == projectId && a.actorUserId == userId) = w.activities := by
      apply List.filter_eq_self.mpr
      intro a ha
      obtain ⟨hproject, hactor, _⟩ := h.about a ha
      rw [Bool.and_eq_true, beq_iff_eq, beq_iff_eq, hproject, hactor]
      exact ⟨hkeys.2, hkeys.1⟩
    rw [hall, h.once]
    simp only [hkeys, true_and]
  · have hnone : (w.activities.filter fun a =>
        a.projectId == projectId && a.actorUserId == userId) = [] := by
      apply List.filter_eq_nil_iff.mpr
      intro a ha
      obtain ⟨hproject, hactor, _⟩ := h.about a ha
      rw [Bool.and_eq_true, beq_iff_eq, beq_iff_eq, hproject, hactor]
      exact fun hboth => hkeys ⟨hboth.2, hboth.1⟩
    rw [hnone, if_neg fun hall => hkeys ⟨hall.1, hall.2.1⟩]
    rfl

theorem length_logged {actorUserId : Int} (h : ∀ w ∈ writes, Tells actorUserId w)
    (projectId userId : Int) :
    (((logged now writes).filter fun a => a.projectId == projectId && a.actorUserId == userId).filter
      (·.kind.isCompletion)).length =
      if actorUserId = userId then
        (writes.filter fun w => w.read.projectId == projectId && completes w).length
      else 0 := by
  induction writes with
  | nil => exact (ite_self 0).symm
  | cons w writes ih =>
    have ih := ih fun v hv => h v (List.mem_cons_of_mem w hv)
    have hw := length_counted (h w List.mem_cons_self) projectId userId
    unfold logged at ih ⊢
    rw [List.flatMap_cons, List.filter_append, List.filter_append, List.length_append, ih]
    have hfirst : (((w.activities.map fun a => ({ a with createdAt := now } : ActivityRow)).filter
        fun a => a.projectId == projectId && a.actorUserId == userId).filter
        (·.kind.isCompletion)).length =
        ((w.activities.filter fun a => a.projectId == projectId && a.actorUserId == userId).filter
          (·.kind.isCompletion)).length := by
      rw [List.filter_map, List.filter_map, List.length_map]
      rfl
    rw [hfirst, hw]
    by_cases hactor : actorUserId = userId
    · rw [if_pos hactor, if_pos hactor]
      by_cases hcounted : w.read.projectId = projectId ∧ completes w = true
      · rw [if_pos ⟨hactor, hcounted⟩, List.filter_cons_of_pos (by simp [hcounted]),
          List.length_cons, Nat.add_comm]
      · rw [if_neg fun hall => hcounted hall.2, List.filter_cons_of_neg (by simpa using hcounted),
          Nat.zero_add]
    · rw [if_neg hactor, if_neg hactor, if_neg fun hall => hactor hall.1]

/-- What a transaction adds to the counted rows, by their times. -/
theorem writeItems_completions (hdb : Sound db) {actorUserId : Int}
    (htold : Told db (.writeItems actorUserId writes)) (projectId userId : Int) :
    ((db.writeItems writes now).completions projectId userId).map (·.createdAt) =
      (db.completions projectId userId).map (·.createdAt) ++
        if actorUserId = userId then
          (completedItems projectId db (db.writeItems writes now)).map fun _ => now
        else [] := by
  have hlength := @length_logged now writes actorUserId htold.2.2 projectId userId
  rw [← @length_completedItems db now writes hdb actorUserId htold projectId] at hlength
  unfold Db.completions Db.activitiesOf
  rw [writeItems_activities, List.filter_append, List.filter_append, List.map_append]
  congr 1
  apply List.ext_getElem
  · rw [List.length_map, hlength]
    split
    · exact (List.length_map _).symm
    · rfl
  · intro k h1 h2
    have hmem := List.getElem_mem h1
    obtain ⟨a, ha, htime⟩ := List.mem_map.mp hmem
    have hlogged := (List.mem_filter.mp (List.mem_filter.mp ha).1).1
    obtain ⟨w, _, hw⟩ := List.mem_flatMap.mp hlogged
    obtain ⟨b, _, rfl⟩ := List.mem_map.mp hw
    rw [← htime]
    split at h2
    · rename_i hactor
      simp only [hactor, if_true, List.getElem_map]
    · exact absurd h2 (Nat.not_lt_zero k)

theorem writeItems_sound (hdb : Sound db) {actorUserId : Int}
    (htold : Told db (.writeItems actorUserId writes)) : Sound (db.writeItems writes now) := by
  refine hdb.stays (@written_stays db now (.writeItems actorUserId writes))
    (writeItems_users writes) ?_
  intro a ha hnew _
  rw [writeItems_activities] at ha
  rcases List.mem_append.mp ha with hold | hlogged
  · exact absurd hold hnew
  · obtain ⟨w, hw, hmem⟩ := List.mem_flatMap.mp hlogged
    obtain ⟨b, hb, rfl⟩ := List.mem_map.mp hmem
    exact ⟨w.read, htold.1 w hw, ((htold.2.2 w hw).about b hb).2.2.symm⟩

end Writes

/-! ## What one statement counts -/

/-- The user that a transaction writes as. -/
def actor? : Statement → Option Int
  | .insertProject p => some p.actorUserId
  | .updateProject u => some u.actorUserId
  | .addMembers _ actorUserId _ _ => some actorUserId
  | .removeMember _ _ actorUserId _ => some actorUserId
  | .setMemberRole _ _ actorUserId _ _ _ => some actorUserId
  | .insertItem i => some i.actorUserId
  | .writeItems actorUserId _ => some actorUserId
  | .archiveItem _ actorUserId => some actorUserId
  | .restoreItem _ actorUserId => some actorUserId
  | _ => none

section Statements

variable {db : Db} {st : Statement} {m : Moment}

theorem perform_sound (hdb : Sound db) (htold : Told db st) : Sound (perform m st db).1 := by
  rcases perform_written m st db with heq | heq
  · rw [heq]
    exact hdb
  rw [heq]
  by_cases hwrites : ∃ actorUserId writes, st = .writeItems actorUserId writes
  · obtain ⟨actorUserId, writes, rfl⟩ := hwrites
    exact writeItems_sound hdb htold
  · have hsilent := @written_silent db m.now st
      fun actorUserId writes hst => hwrites ⟨actorUserId, writes, hst⟩
    refine hdb.stays written_stays hsilent.users ?_
    intro a ha hnew hcounted
    obtain ⟨added, hadded, hnone⟩ := hsilent.log
    rw [hadded] at ha
    rcases List.mem_append.mp ha with hold | hmem
    · exact absurd hold hnew
    · rw [isCompletion_of_none (hnone a hmem)] at hcounted
      cases hcounted

/-- A statement adds a counted row for each item that it completes as the user. -/
theorem perform_completions (hdb : Sound db) (htold : Told db st) (projectId userId : Int) :
    ((perform m st db).1.completions projectId userId).map (·.createdAt) =
      (db.completions projectId userId).map (·.createdAt) ++
        if actor? st = some userId then
          (completedItems projectId db (perform m st db).1).map fun _ => m.now
        else [] := by
  have unchanged : ∀ {db' : Db}, db'.completions projectId userId = db.completions projectId userId →
      (∀ r ∈ db.workItems, ∀ r', db'.workItem r.id = some r' → r'.status = r.status) →
      (db'.completions projectId userId).map (·.createdAt) =
        (db.completions projectId userId).map (·.createdAt) ++
          if actor? st = some userId then (completedItems projectId db db').map fun _ => m.now
          else [] := by
    intro db' hsame hstatus
    rw [hsame, completedItems_nil hstatus, List.map_nil, ite_self, List.append_nil]
  rcases perform_written m st db with heq | heq
  · rw [heq]
    refine unchanged rfl ?_
    intro r hr r' hr'
    rw [workItem_of_mem hdb.ids hr] at hr'
    rw [Option.some.inj hr']
  rw [heq]
  by_cases hwrites : ∃ actorUserId writes, st = .writeItems actorUserId writes
  · obtain ⟨actorUserId, writes, rfl⟩ := hwrites
    rw [Statement.written, writeItems_completions hdb htold]
    simp only [actor?, Option.some.injEq]
  · have hnot : ∀ actorUserId writes, st ≠ .writeItems actorUserId writes :=
      fun actorUserId writes hst => hwrites ⟨actorUserId, writes, hst⟩
    refine unchanged ((written_silent hnot).completions projectId userId) ?_
    intro r hr r' hr'
    exact (written_time hnot (workItem_of_mem hdb.ids hr) hr').1

end Statements

/-! ## What a call tells -/

section Calls

open Undisturbed

variable {db : Db}

def rules : Rules where
  I := Sound
  C _ _ := True
  G := Told
  reads st hst db := by
    cases st with
    | writeItems _ _ => exact absurd hst id
    | _ => trivial

/-- The call keeps the tables sound and tells what it does, if no other call comes between. -/
abbrev Telling {α : Type} (p : Task α) (db : Db) : Prop := rules.Quietly (fun _ _ => True) p db

theorem commit_tells {α : Type} {st : Statement} {f : st.Answer → Task α}
    (h : Sound db → Told db st) (hf : ∀ a, Looks (f a)) : Telling (query st >>= f) db :=
  commit_then (fun hi _ => ⟨h hi, fun _ => perform_sound hi (h hi)⟩) hf

/-- A transaction of one write. -/
theorem told_one {actorUserId : Int} {w : ItemWrite} (hread : w.read ∈ db.workItems)
    (h : Tells actorUserId w) : Told db (.writeItems actorUserId [w]) :=
  ⟨List.forall_mem_singleton.mpr hread, List.nodup_singleton _, List.forall_mem_singleton.mpr h⟩

/-- One activity with a status. -/
theorem tells_one {actorUserId : Int} {w : ItemWrite} {kind : ActivityKind}
    (hactivities : w.activities = [itemActivity actorUserId w.read kind])
    (hkind : kind.isCompletion = completes w) : Tells actorUserId w := by
  constructor
  · rw [hactivities]
    exact List.forall_mem_singleton.mpr ⟨rfl, rfl, rfl⟩
  · rw [hactivities, List.filter_singleton]
    change List.length (bif kind.isCompletion then _ else _) = _
    rw [hkind]
    cases completes w <;> rfl

theorem item_mem {itemKey : String} {row : ItemRow} (h : db.item itemKey = some row) :
    row.item ∈ db.workItems := anyItem_mem (Option.filter_eq_some_iff.mp h).1

/-- The name of the assignee of a row, as the log shows it. -/
theorem plain_assignee (hdb : Sound db) {wi : WorkItem} {row : ItemRow}
    (h : db.itemRow wi = some row) : Json.Plain ((row.assignee.map (·.username)).getD "") := by
  obtain ⟨p, _, rfl⟩ := Option.map_eq_some_iff.mp h
  cases hassignee : wi.assigneeUserId.bind db.user with
  | none => exact (by decide : Json.Plain "")
  | some u =>
    obtain ⟨userId, _, hu⟩ := Option.bind_eq_some_iff.mp hassignee
    exact plain_username (hdb.usernames u (List.mem_of_find?_eq_some hu))

theorem plain_activeMember (hdb : Sound db) {projectId : Int} {username : String} {user : User}
    (h : db.activeMember projectId username = some user) : Json.Plain user.username := by
  have hnamed := (Option.filter_eq_some_iff.mp h).1
  exact plain_username (hdb.usernames user (List.mem_of_find?_eq_some hnamed))

theorem updateWorkItemStatus_tells (actorUserId : Int) (itemKey status : String) :
    Telling (updateWorkItemStatus actorUserId itemKey status) db := by
  unfold updateWorkItemStatus
  refine Looks.then makes_check fun status => ?_
  refine (getItem_finds itemKey).then fun row hrow => ?_
  refine Looks.then makes_check fun _ => ?_
  refine Looks.then makes_check fun _ => ?_
  refine commit_tells (fun _ => told_one (item_mem hrow) ?_) fun _ => getWorkItemDetail_looks _ _
  exact tells_one rfl isCompletion_statusUpdated

theorem handoffAssignee_finds {itemKey : String} {row : ItemRow}
    (hrow : db.item itemKey = some row) (assigneeUsername : String) :
    rules.Finds (fun next => Sound db → Json.Plain next.2) (handoffAssignee row assigneeUsername)
      db := by
  unfold handoffAssignee
  split
  · obtain ⟨wi, _, hitem⟩ := Option.bind_eq_some_iff.mp (Option.filter_eq_some_iff.mp hrow).1
    exact done_finds fun hdb => plain_assignee hdb hitem
  · refine (resolveProjectMember_finds _ _).then fun user huser => done_finds fun hdb => ?_
    obtain ⟨name, _, huser⟩ := huser
    exact plain_activeMember hdb huser

theorem handoffWorkItem_tells (actorUserId : Int) (itemKey : String)
    (input : HandoffWorkItemInput) : Telling (handoffWorkItem actorUserId itemKey input) db := by
  unfold handoffWorkItem
  refine Looks.then makes_check fun status => ?_
  refine Looks.then makes_check fun body => ?_
  refine (getItem_finds itemKey).then fun row hrow => ?_
  unfold applyHandoff
  refine Looks.then makes_check fun _ => ?_
  refine Looks.then makes_check fun _ => ?_
  refine Looks.then (ensureComment_looks _ _) fun _ => ?_
  refine (handoffAssignee_finds hrow _).then fun next hnext => ?_
  refine Looks.then makes_rejectIf fun _ => ?_
  refine commit_tells (fun hdb => told_one (item_mem hrow) ?_) fun _ => getWorkItemDetail_looks _ _
  exact tells_one rfl (isCompletion_handoff (hnext hdb))

/-- A name that is given is the name of a member. -/
theorem editAssignee_finds (projectId : Int) (assigneeUsername : String) :
    rules.Finds (fun _ => Json.Plain (trim assigneeUsername))
      (editAssignee projectId (trim assigneeUsername)) db := by
  unfold editAssignee
  split
  · rename_i hempty
    refine done_finds ?_
    rw [hempty]
    decide
  · refine (resolveProjectMember_finds _ _).then fun user huser => done_finds ?_
    obtain ⟨name, hname, _⟩ := huser
    have hplain := plain_username hname
    rw [validateUsernameRef_trim hname, trim_trim] at hplain
    exact hplain

theorem parent_finds (projectId : Int) (itemType : WorkItemType) (parentItemKey : String) :
    rules.Finds (fun _ => Json.Plain (trim parentItemKey))
      (resolveParentWorkItemId projectId itemType (trim parentItemKey)) db := by
  unfold resolveParentWorkItemId
  rw [trim_trim]
  split
  · rename_i hempty
    refine done_finds ?_
    rw [hempty]
    decide
  · refine Looks.then makes_rejectIf fun _ => ?_
    refine (check_finds fun _ h => h).then fun key hkey => ?_
    refine Looks.then (makes_query trivial) fun parent => ?_
    refine Looks.then makes_okOr fun parent => done_finds ?_
    have hplain := plain_itemKey hkey
    rw [trim_trim] at hplain
    exact hplain

/-- An edit records its status once, beside the cycle. -/
theorem tells_edit {actorUserId : Int} {item : WorkItem} {edit : ItemEdit}
    {assigneeUsername dueDate parentItemKey : String} (husername : Json.Plain assigneeUsername)
    (hdate : Json.Plain dueDate) (hparent : Json.Plain parentItemKey) :
    Tells actorUserId
      { read := item
        change := .edit edit
        activities := editActivities actorUserId item edit assigneeUsername dueDate
          parentItemKey } := by
  have hedited := @isCompletion_itemUpdated edit.status item.status edit.priority assigneeUsername
    dueDate parentItemKey husername hdate hparent
  have hcycle : (ActivityKind.cycleChanged item.cycleId edit.cycleId).isCompletion = false :=
    isCompletion_of_none rfl
  have htells := @tells_one actorUserId
    { read := item
      change := .edit edit
      activities := [itemActivity actorUserId item (.itemUpdated edit.status item.status
        edit.priority assigneeUsername dueDate parentItemKey)] } _ rfl hedited
  unfold editActivities
  split
  · constructor
    · exact List.forall_mem_cons.mpr ⟨⟨rfl, rfl, rfl⟩, htells.about⟩
    · refine Eq.trans (congrArg List.length ?_) htells.once
      exact List.filter_cons_of_neg (by
        change ¬(ActivityKind.cycleChanged item.cycleId edit.cycleId).isCompletion = true
        rw [hcycle]
        exact Bool.false_ne_true)
  · exact htells

theorem updateWorkItem_tells (actorUserId : Int) (itemKey : String)
    (input : UpdateWorkItemInput) : Telling (updateWorkItem actorUserId itemKey input) db := by
  unfold updateWorkItem
  refine (check_finds fun _ h => h).then fun checked hchecked => ?_
  have hdate : Json.Plain checked.2 := by
    obtain ⟨_, _, hchecked⟩ := bind_eq_ok.mp hchecked
    obtain ⟨_, _, hchecked⟩ := bind_eq_ok.mp hchecked
    obtain ⟨_, _, hchecked⟩ := bind_eq_ok.mp hchecked
    obtain ⟨_, _, hchecked⟩ := bind_eq_ok.mp hchecked
    obtain ⟨date, hdate, hchecked⟩ := bind_eq_ok.mp hchecked
    cases hchecked
    exact plain_date hdate
  refine (getItem_finds itemKey).then fun row hrow => ?_
  unfold applyEdit
  refine Looks.then makes_rejectIf fun _ => ?_
  refine Looks.then makes_check fun _ => ?_
  refine Looks.then makes_check fun _ => ?_
  refine (parent_finds _ _ _).then fun _ hparent => ?_
  refine (editAssignee_finds _ _).then fun assigneeUserId hassignee => ?_
  refine Looks.then (resolveProjectCycle_looks _ _) fun cycle => ?_
  refine commit_tells (fun _ => told_one (item_mem hrow) ?_) fun _ => getWorkItemDetail_looks _ _
  exact tells_edit hassignee hdate hparent

/-- The name of the assignee of a batch is plain. -/
def TargetPlain (db : Db) : BatchActionTarget → Prop
  | .assignee user => Sound db → Json.Plain user.username
  | _ => True

theorem batchTarget_finds (project : Project) (itemType : WorkItemType) (rows : List ItemRow)
    (input : BatchUpdateWorkItemsInput) (action : BatchAction) :
    rules.Finds (TargetPlain db) (batchTarget project itemType rows input action) db := by
  cases action with
  | assignee =>
    refine Looks.then (resolveProjectMember_looks _ _) fun member => ?_
    refine Rules.Finds.then (query_finds trivial fun _ => rfl) ?_
    rintro _ rfl
    refine okOr_finds.then fun user huser => ?_
    refine Looks.then makes_check fun _ => done_finds ?_
    intro hdb
    exact plain_username (hdb.usernames user (List.mem_of_find?_eq_some huser))
  | status =>
    refine Looks.then makes_check fun status => ?_
    exact Looks.then makes_check fun _ => done_finds trivial
  | priority =>
    refine Looks.then makes_check fun priority => ?_
    exact Looks.then makes_check fun _ => done_finds trivial
  | cycle =>
    refine Looks.then (resolveProjectCycle_looks _ _) fun cycle => ?_
    exact Looks.then makes_check fun _ => done_finds trivial

/-- Only the status and the assignee of a batch are recorded with a status. -/
theorem batchWrite_tells (hdb : Sound db) {actorUserId : Int} {target : BatchActionTarget}
    (htarget : TargetPlain db target) {itemKeys : List String} {row : ItemRow}
    (hrow : row ∈ db.itemsIn itemKeys) : Tells actorUserId (batchWrite actorUserId target row) := by
  cases target with
  | assignee user =>
    obtain ⟨wi, _, hitem⟩ := List.mem_filterMap.mp hrow
    exact tells_one rfl (isCompletion_assigned (htarget hdb) (plain_assignee hdb hitem))
  | status status => exact tells_one rfl isCompletion_statusUpdated
  | priority priority =>
    exact tells_one rfl ((isCompletion_of_none rfl).trans (active_completed _).symm)
  | cycle cycle =>
    exact tells_one rfl ((isCompletion_of_none rfl).trans (active_completed _).symm)

theorem itemsIn_ids (hdb : Sound db) (itemKeys : List String) :
    ((db.itemsIn itemKeys).map (·.item.id)).Nodup := by
  unfold Db.itemsIn
  exact (hdb.ids.sublist (List.filter_sublist.map _)).sublist (itemRows_sublist _)

theorem batchUpdateWorkItems_tells (actorUserId : Int) (input : BatchUpdateWorkItemsInput) :
    Telling (batchUpdateWorkItems actorUserId input) db := by
  unfold batchUpdateWorkItems
  refine Looks.then makes_check fun _ => ?_
  refine Looks.then makes_check fun itemType => ?_
  refine Looks.then makes_check fun action => ?_
  refine Looks.then makes_check fun itemKeys => ?_
  refine Looks.then (getProjectDetail_looks _ _) fun project => ?_
  refine Looks.then makes_check fun _ => ?_
  unfold applyBatch
  refine Rules.Finds.then (query_finds trivial fun _ => rfl) ?_
  rintro _ rfl
  refine Looks.then makes_rejectIf fun _ => ?_
  refine Looks.then makes_check fun _ => ?_
  refine (batchTarget_finds _ _ _ _ _).then fun target htarget => ?_
  refine commit_tells (fun hdb => ⟨?_, ?_, ?_⟩) fun _ => makes_done
  · intro w hw
    obtain ⟨row, hrow, rfl⟩ := List.mem_map.mp hw
    have hmem := mem_of_itemsIn hrow
    cases target <;> exact hmem
  · rw [List.map_map]
    have hsame : (fun w : ItemWrite => w.read.id) ∘ batchWrite actorUserId target =
        fun row : ItemRow => row.item.id := by
      funext row
      cases target <;> rfl
    rw [hsame]
    exact itemsIn_ids hdb itemKeys
  · intro w hw
    obtain ⟨row, hrow, rfl⟩ := List.mem_map.mp hw
    exact batchWrite_tells hdb htarget hrow

/-- A statement that tells nothing of work items. -/
def Free (st : Statement) : Prop := ∀ db, Told db st

theorem makes_tells {α : Type} {p : Task α} (h : Makes Free p) : Telling p db :=
  makes_quietly h fun _ hfree b hi _ => ⟨hfree b, fun _ => perform_sound hi (hfree b)⟩

theorem start_tells (request : Request) : Telling (start request) db := by
  have hread : ∀ st, IsRead st → Free st := fun st hst db => rules.reads st hst db
  cases request with
  | createProject actorUserId input keys =>
    apply makes_tells
    exact makes_bind (createProject_makes hread (fun _ _ => trivial) _ _ _) fun _ => makes_done
  | updateProject actorUserId projectKey input =>
    apply makes_tells
    exact makes_bind (updateProject_makes hread (fun _ _ => trivial) _ _ _) fun _ => makes_done
  | addProjectMembers actorUserId projectKey usernames memberRole =>
    apply makes_tells
    refine makes_bind (addProjectMembers_makes hread ?_ _ _ _ _) fun _ => makes_done
    exact fun _ _ _ _ _ => trivial
  | updateProjectMemberRole actorUserId projectKey username memberRole =>
    apply makes_tells
    refine makes_bind (updateProjectMemberRole_makes hread ?_ _ _ _ _) fun _ => makes_done
    exact fun _ _ _ _ _ _ _ _ => trivial
  | archiveWorkItem actorUserId itemKey =>
    apply makes_tells
    exact makes_bind (archiveWorkItem_makes hread (fun _ _ _ => trivial) _ _) fun _ => makes_done
  | restoreWorkItem actorUserId itemKey =>
    apply makes_tells
    exact makes_bind (restoreWorkItem_makes hread (fun _ _ _ => trivial) _ _) fun _ => makes_done
  | removeProjectMember actorUserId projectKey username =>
    apply makes_tells
    refine makes_bind (removeProjectMember_makes hread ?_ _ _ _) fun _ => makes_done
    exact fun _ _ _ _ _ => trivial
  | createWorkItem actorUserId input =>
    apply makes_tells
    exact makes_bind (createWorkItem_makes hread (fun _ _ => trivial) _ _) fun _ => makes_done
  | updateWorkItemStatus actorUserId itemKey status =>
    exact alone_bind (updateWorkItemStatus_tells _ _ _) fun _ _ _ => alone_done trivial
  | closeWorkItem actorUserId itemKey =>
    exact alone_bind (updateWorkItemStatus_tells _ _ _) fun _ _ _ => alone_done trivial
  | handoffWorkItem actorUserId itemKey input =>
    exact alone_bind (handoffWorkItem_tells _ _ _) fun _ _ _ => alone_done trivial
  | updateWorkItem actorUserId itemKey input =>
    exact alone_bind (updateWorkItem_tells _ _ _) fun _ _ _ => alone_done trivial
  | batchUpdateWorkItems actorUserId input =>
    exact alone_bind (batchUpdateWorkItems_tells _ _) fun _ _ _ => alone_done trivial

end Calls

/-! ## The figures -/

section Figures

variable {db : Db}

/-- Each record of a stored item is joined with this item alone. -/
theorem withItems_eq (hdb : Sound db) (activities : List ActivityRow)
    (h : ∀ a ∈ activities, ∃ r ∈ db.workItems, r.itemKey = a.targetId) :
    (db.withItems activities).length = activities.length ∧
      ∀ row ∈ db.withItems activities, ∃ r, row.2 = some r := by
  induction activities with
  | nil => exact ⟨rfl, fun _ hrow => absurd hrow List.not_mem_nil⟩
  | cons a activities ih =>
    obtain ⟨hlength, hjoined⟩ := ih fun b hb => h b (List.mem_cons_of_mem a hb)
    obtain ⟨r, hr, hkey⟩ := h a List.mem_cons_self
    unfold Db.withItems at hlength hjoined ⊢
    rw [List.flatMap_cons, ← hkey, filter_of_key hdb.keys hr]
    refine ⟨?_, ?_⟩
    · rw [List.length_append, hlength, List.length_cons]
      exact Nat.add_comm 1 _
    · intro row hrow
      rcases List.mem_append.mp hrow with hmem | hmem
      · obtain rfl := List.mem_singleton.mp hmem
        exact ⟨r, rfl⟩
      · exact hjoined row hmem

/-- Every joined row is of one of the three types. -/
theorem completedOf_sum {joined : List (ActivityRow × Option WorkItem)}
    (h : ∀ row ∈ joined, ∃ r, row.2 = some r) :
    Db.completedOf .requirement joined + Db.completedOf .task joined + Db.completedOf .bug joined =
      joined.length := by
  induction joined with
  | nil => rfl
  | cons row joined ih =>
    have ih := ih fun x hx => h x (List.mem_cons_of_mem row hx)
    obtain ⟨r, hr⟩ := h row List.mem_cons_self
    unfold Db.completedOf at ih ⊢
    simp only [List.filter_cons, hr, Option.map_some]
    cases r.itemType with
    | requirement =>
      simp
      omega
    | task =>
      simp
      omega
    | bug =>
      simp
      omega

/-- The peak is the largest number of times with one label. -/
structure IsPeak (label : Int → String) (times : List Int) (peak : Nat) : Prop where
  largest : ∀ l, (times.map label).count l ≤ peak
  reached : times = [] ∧ peak = 0 ∨ ∃ time ∈ times, (times.map label).count (label time) = peak

theorem isPeak_topGroup (label : Int → String) (times : List Int) :
    IsPeak label times (((topGroup (times.map label)).map (·.2)).getD 0) := by
  cases htop : topGroup (times.map label) with
  | none =>
    have hnil := List.map_eq_nil_iff.mp (topGroup_eq_none.mp htop)
    rw [hnil]
    exact ⟨fun _ => Nat.le_refl 0, .inl ⟨rfl, rfl⟩⟩
  | some top =>
    obtain ⟨hmem, hcount, hlargest⟩ := topGroup_eq_some htop
    obtain ⟨time, htime, hlabel⟩ := List.mem_map.mp hmem
    refine ⟨hlargest, .inr ⟨time, htime, ?_⟩⟩
    rw [hlabel]
    exact hcount.symm

end Figures

/-! ## Runs -/

abbrev ServerEntry := Entry Server (Turn Request Moment) Unit

/-- When the step completed work items of the project, if it wrote as the user: once for each item. -/
def changes (projectId userId : Int) (x : ServerEntry) : List Int :=
  match x.event with
  | .begin _ => []
  | .resume i m =>
    match nextStatement x.pre i with
    | none => []
    | some st =>
      if actor? st = some userId then
        (completedItems projectId x.pre.db (perform m st x.pre.db).1).map fun _ => m.now
      else []

section Runs

variable {db : Db} {tr : List ServerEntry} {s : Server}

/-- The counted rows are those that were counted before the run, and the changes of the run. -/
theorem completions_of_run (hdb : Sound db)
    (hrun : Run (serve perform start) { db := db, calls := [] } tr s)
    (hturn : ∀ x ∈ tr, InTurn x.pre x.event) (projectId userId : Int) :
    Sound s.db ∧ (s.db.completions projectId userId).map (·.createdAt) =
      (db.completions projectId userId).map (·.createdAt) ++
        tr.flatMap (changes projectId userId) := by
  obtain ⟨_, htold⟩ := serve_alone (I := Sound) (C := fun _ _ => True) (G := Told) hdb
    (fun request d => @start_tells d request) hrun hturn fun x _ => by
      cases x.event with
      | begin request => trivial
      | resume i m => exact fun _ _ => trivial
  have hmeets : ∀ x ∈ tr, Meets Told x.pre x.event := fun x hx => (htold x hx).2
  refine hrun.history (C := Meets Told)
    (I := fun tr s => Sound s.db ∧ (s.db.completions projectId userId).map (·.createdAt) =
      (db.completions projectId userId).map (·.createdAt) ++ tr.flatMap (changes projectId userId))
    ⟨hdb, (List.append_nil _).symm⟩ ?_ hmeets
  intro tr s e u o _ ⟨hsound, hcounted⟩ hmeet hstep
  rw [List.flatMap_append, List.flatMap_singleton, ← List.append_assoc, ← hcounted]
  cases e with
  | begin request =>
    cases hstep
    exact ⟨hsound, (List.append_nil _).symm⟩
  | resume i m =>
    simp only [serve] at hstep
    split at hstep
    · rename_i st k hget
      cases hstep
      have hnext : nextStatement s i = some st := by rw [nextStatement, hget]
      have htold := hmeet st hnext
      refine ⟨perform_sound hsound htold, ?_⟩
      unfold changes
      dsimp only
      rw [hnext]
      exact perform_completions hsound htold projectId userId
    · cases hstep

end Runs

/-- From sound tables in which nothing is counted for the user and the project yet, in every run of
calls one after the other: the figures count each change of the user that took an item of the project
from an unfinished status to a completed one. -/
theorem analysis_counts_completions (db : Db) (hdb : Sound db) (projectId userId : Int)
    (h0 : db.completions projectId userId = []) (tr : List ServerEntry) (s : Server)
    (hrun : Run (serve perform start) { db := db, calls := [] } tr s)
    (hturn : ∀ x ∈ tr, InTurn x.pre x.event) (now : Int) :
    let analysis := personalProjectAnalysis s.db now projectId userId
    let times := tr.flatMap (changes projectId userId)
    analysis.completedTotal = times.length ∧
      analysis.completedRequirements + analysis.completedTasks + analysis.completedBugs =
        analysis.completedTotal ∧
      IsPeak dateOf times analysis.dailyPeak ∧ IsPeak monthOf times analysis.monthlyPeak := by
  intro analysis times
  obtain ⟨hsound, hcounted⟩ := completions_of_run hdb hrun hturn projectId userId
  rw [h0, List.map_nil, List.nil_append] at hcounted
  obtain ⟨hlength, hjoined⟩ := withItems_eq hsound (s.db.completions projectId userId)
    fun a ha => by
      obtain ⟨hof, hcompletion⟩ := List.mem_filter.mp ha
      exact hsound.targets a (List.mem_filter.mp hof).1 hcompletion
  have htimes : (s.db.completions projectId userId).length = times.length :=
    (List.length_map _).symm.trans (congrArg List.length hcounted)
  refine ⟨hlength.trans htimes, completedOf_sum hjoined, ?_, ?_⟩
  · change IsPeak dateOf times (((topGroup (((s.db.completions projectId userId).map
      (·.createdAt)).map dateOf)).map (·.2)).getD 0)
    rw [hcounted]
    exact isPeak_topGroup dateOf times
  · change IsPeak monthOf times (((topGroup (((s.db.completions projectId userId).map
      (·.createdAt)).map monthOf)).map (·.2)).getD 0)
    rw [hcounted]
    exact isPeak_topGroup monthOf times

/-- A task is finished, taken up again and, a day later, handed over as done. -/
def finishedTwice : List (Turn Request Moment) :=
  [.begin (.updateWorkItemStatus 1 "PA-1" "done"), .resume 0 calm, .resume 0 calm, .resume 0 calm,
    .begin (.updateWorkItemStatus 1 "PA-1" "in_progress"), .resume 1 calm, .resume 1 calm,
    .resume 1 calm, .begin (.handoffWorkItem 1 "PA-1" ⟨"done", "", "", none⟩),
    .resume 2 calm, .resume 2 ⟨86400, none⟩]

theorem finished_twice_is_counted :
    ∃ tr s, exec (serve perform start) ({ db := taskDb, calls := [] } : Server) finishedTwice =
        some (tr, s) ∧ tr.flatMap (changes 1 1) = [0, 86400] ∧
      (personalProjectAnalysis s.db 86400 1 1).completedTotal = 2 ∧
      IsPeak dateOf [0, 86400] (personalProjectAnalysis s.db 86400 1 1).dailyPeak := by
  obtain ⟨r, hr⟩ : ∃ r, exec (serve perform start) ({ db := taskDb, calls := [] } : Server)
      finishedTwice = some r := ⟨_, rfl⟩
  have hchanges : (exec (serve perform start) ({ db := taskDb, calls := [] } : Server)
      finishedTwice).map (fun r => r.1.flatMap (changes 1 1)) = some [0, 86400] := by
    decide +kernel
  rw [hr] at hchanges
  have hchanges : r.1.flatMap (changes 1 1) = [0, 86400] := Option.some.inj hchanges
  have hsound : Sound taskDb := by
    refine ⟨by decide, by decide, by decide, by decide, ?_⟩
    exact fun _ ha => absurd ha List.not_mem_nil
  have hturn : ∀ x ∈ r.1, InTurn x.pre x.event := by
    intro x hx
    refine checks_exec (C := InTurn) hr ?_ hx
    exact ⟨trivial, rfl, rfl, rfl, trivial, rfl, rfl, rfl, trivial, rfl, rfl, trivial⟩
  obtain ⟨htotal, _, hdaily, _⟩ := analysis_counts_completions taskDb hsound 1 1 rfl r.1 r.2
    (run_of_exec hr) hturn 86400
  rw [hchanges] at htotal hdaily
  exact ⟨r.1, r.2, hr, hchanges, htotal, hdaily⟩

end Completions
end Projects
end Yuance
