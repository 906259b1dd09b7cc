import Yuance.Lib.Phases
import Yuance.Projects.TimeAllocations

/-!
# Yuance.Projects.TimeLog

What the change records say of the table of time allocations. A call that has changed the table owes a
record; while it does, the records do not explain the allocation.

* `Phase`, `logging`: what a call has read and changed so far.
* `Undisturbed`: no other change comes between what a call has read and its record, and the call does
  not fail there.
* `Explained`: the records of each allocation follow on each other and end with the row.
-/

namespace Yuance
namespace Projects
namespace TimeAllocations

open Lib Platform

namespace Db

variable (db : Db)

/-- The allocation as a record would have it. -/
def snapshot (id : Int) : Option Snapshot := (db.allocation id).map timeAllocationSnapshot

/-- The records about the allocation, the newest last. -/
def recordsOf (id : Int) : List ActivityRow := db.activities.filter (·.targetId == id)

/-- What the newest record left the allocation as. -/
def newest (id : Int) : Option Snapshot := ((db.recordsOf id).getLast?).bind (·.metadata.after)

/-- Each record about the allocation takes up where the one before left it. -/
def Chained (id : Int) : Prop :=
  (db.recordsOf id).IsChain fun x y => y.metadata.before = x.metadata.after

instance (id : Int) : Decidable (db.Chained id) :=
  inferInstanceAs (Decidable ((db.recordsOf id).IsChain fun x y =>
    y.metadata.before = x.metadata.after))

end Db

/-! ## What a call has done -/

inductive Phase where
  /-- It owes no record. -/
  | idle
  /-- It has read the allocation. -/
  | holds (id : Int) (before : Snapshot)
  /-- It has changed the allocation. -/
  | changed (id : Int) (before : Option Snapshot)
  /-- It knows the record that it owes. -/
  | owes (id : Int) (before after : Option Snapshot)
  deriving DecidableEq, Repr

/-- The call is between its change of the allocation and the record. -/
def Phase.between (id : Int) : Phase → Bool
  | changed id' _ => id' == id
  | owes id' _ _ => id' == id
  | _ => false

def Phase.next (q : Phase) (s : Statement) (answer : Except AppError s.Answer) : Phase :=
  match q, s, answer with
  | .idle, .allocation id, .ok (some d) => .holds id (timeAllocationSnapshot d)
  | .idle, .insert .., .ok id => .changed id none
  | .holds id before, .update .., .ok () => .changed id (some before)
  | .holds id before, .delete _, .ok () => .owes id (some before) none
  | .holds id before, .activeUser _, .ok _ => .holds id before
  | .changed id before, .allocation _, .ok (some d) =>
    .owes id before (some (timeAllocationSnapshot d))
  | _, _, _ => .idle

def Phase.allows : Phase → Statement → Prop
  | idle, s => (∀ id userId input, s ≠ .update id userId input) ∧ (∀ id, s ≠ .delete id) ∧
      ∀ a, s ≠ .record a
  | holds id _, s => (0 < id ∧ ((∃ userId input, s = .update id userId input) ∨ s = .delete id)) ∨
      ∃ username, s = .activeUser username
  | changed id _, s => s = .allocation id
  | owes id before after, s => ∃ a, s = .record a ∧ a.targetId = id ∧ a.metadata.before = before ∧
      a.metadata.after = after

/-- A call that owes a record fails only where the allocation has no valid id. -/
def Phase.fails : Phase → Prop
  | changed id _ => id ≤ 0
  | owes .. => False
  | _ => True

def logging : Guide Statement Statement.Answer AppError Request Phase where
  begin := fun _ => .idle
  next := Phase.next
  allows := Phase.allows
  fails := Phase.fails
  returns := fun q => q = .idle

section Walking

variable {q : Phase}

/-- One statement. -/
theorem query_walks {s : Statement} (hallows : q.allows s)
    (hfail : ∀ e, (q.next s (.error e)).fails) :
    Walks logging (fun a q' => q' = q.next s (.ok a)) (query s) q :=
  ⟨hallows, hfail, fun _ => rfl⟩

/-- A statement that a call makes while it owes nothing. -/
theorem query_idle {s : Statement} (hallows : Phase.allows .idle s)
    (h : ∀ answer, Phase.next .idle s answer = .idle) :
    Walks logging (fun _ q => q = .idle) (query s) .idle := by
  refine ⟨hallows, ?_, fun a => h (.ok a)⟩
  intro e
  change Phase.fails (Phase.next .idle s (.error e))
  rw [h]
  trivial

theorem getTimeAllocation_reads (id : Int) :
    Walks logging (fun d q => q = .holds id (timeAllocationSnapshot d) ∧ 0 < id)
      (getTimeAllocation id) .idle := by
  refine walks_bind (R := fun _ q => q = .idle ∧ 0 < id) (walks_rejectIf trivial fun h => ⟨rfl, ?_⟩) ?_
  · omega
  rintro _ _ ⟨rfl, hpos⟩
  refine walks_bind (query_walks (s := .allocation id) ?_ fun _ => trivial) ?_
  · exact ⟨by simp, by simp, by simp⟩
  rintro row _ rfl
  refine walks_okOr ?_ ?_
  · rintro rfl
    trivial
  · rintro d rfl
    exact ⟨rfl, hpos⟩

/-- The read behind a change. -/
theorem getTimeAllocation_rereads (id : Int) (before : Option Snapshot) :
    Walks logging (fun d q => q = .owes id before (some (timeAllocationSnapshot d)))
      (getTimeAllocation id) (.changed id before) := by
  unfold getTimeAllocation Call.rejectIf
  by_cases hpos : id ≤ 0
  · exact walks_bind (R := fun _ _ => False) (walks_check hpos fun _ h => rejectIf_eq_ok.mp h hpos)
      fun _ _ h => h.elim
  rw [show Lib.rejectIf (id ≤ 0) invalidAllocationId = .ok () from rejectIf_eq_ok.mpr hpos]
  refine walks_bind (R := fun _ q => q = Phase.changed id before) (walks_done (a := ()) rfl) ?_
  rintro _ _ rfl
  refine walks_bind (query_walks (s := .allocation id) rfl fun _ => trivial) ?_
  rintro row _ rfl
  refine walks_okOr ?_ ?_
  · rintro rfl
    trivial
  · rintro d rfl
    rfl

/-- Looking a user up leaves a call where it is. -/
theorem resolveActiveUserId_walks (username : String) (hallows : ∀ u, q.allows (.activeUser u))
    (hfails : q.fails) (hnext : ∀ u a, q.next (.activeUser u) (.ok a) = q) :
    Walks logging (fun _ q' => q' = q) (resolveActiveUserId username) q := by
  refine walks_bind (R := fun _ q' => q' = q) (walks_check hfails fun _ _ => rfl) ?_
  rintro username q' rfl
  refine walks_bind (query_walks (s := .activeUser username) (hallows username) ?_) ?_
  · intro e
    cases q' <;> trivial
  rintro userId _ rfl
  rw [hnext]
  exact walks_okOr (fun _ => hfails) fun _ _ => rfl

theorem resolveTarget_walks (allowNonMemberTarget : Bool) (projectId : Int) (username : String) :
    Walks logging (fun _ q => q = .idle) (resolveTarget allowNonMemberTarget projectId username)
      .idle := by
  unfold resolveTarget
  split
  · exact resolveActiveUserId_walks username (fun _ => ⟨by simp, by simp, by simp⟩) trivial
      fun _ _ => rfl
  · refine walks_bind (R := fun _ q => q = .idle) (walks_check trivial fun _ _ => rfl) ?_
    rintro username _ rfl
    refine walks_bind (query_idle ⟨by simp, by simp, by simp⟩ ?_) ?_
    · intro answer
      cases answer <;> rfl
    rintro userId _ rfl
    exact walks_okOr (fun _ => trivial) fun _ _ => rfl

/-- The record that the call owes. -/
theorem record_walks {a : NewActivity} {id : Int} {before after : Option Snapshot}
    (hid : a.targetId = id) (hbefore : a.metadata.before = before)
    (hafter : a.metadata.after = after) :
    Walks logging (fun _ q => q = .idle) (insertTimeAllocationActivity a) (.owes id before after) := by
  refine ⟨⟨a, rfl, hid, hbefore, hafter⟩, fun _ => trivial, fun _ => rfl⟩

/-- A call that owes nothing checks something. -/
theorem check_idle {α : Type} {x : Except AppError α} :
    Walks logging (fun _ q => q = .idle) (Call.ofExcept x : Task α) .idle :=
  walks_check trivial fun _ _ => rfl

theorem create_walks (actorUserId : Int) (projectKey : String) (input : TimeAllocationInput)
    (allowNonMemberTarget : Bool) :
    Walks logging (fun _ q => q = .idle)
      (createProjectTimeAllocation actorUserId projectKey input allowNonMemberTarget) .idle := by
  refine walks_bind check_idle ?_
  rintro projectKey _ rfl
  refine walks_bind check_idle ?_
  rintro input _ rfl
  refine walks_bind (query_idle ⟨by simp, by simp, by simp⟩ ?_) ?_
  · intro answer
    cases answer <;> rfl
  rintro project _ rfl
  refine walks_bind (R := fun _ q => q = .idle) (walks_okOr (fun _ => trivial) fun _ _ => rfl) ?_
  rintro project _ rfl
  refine walks_bind check_idle ?_
  rintro _ _ rfl
  refine walks_bind (resolveTarget_walks allowNonMemberTarget project.id input.username) ?_
  rintro userId _ rfl
  refine walks_bind (query_walks (s := .insert project.id userId input actorUserId)
    ⟨by simp, by simp, by simp⟩ fun _ => trivial) ?_
  rintro allocationId _ rfl
  refine walks_bind (getTimeAllocation_rereads allocationId none) ?_
  rintro allocation _ rfl
  refine walks_bind (record_walks rfl rfl rfl) ?_
  rintro _ _ rfl
  exact walks_done rfl

theorem update_walks (actorUserId : Int) (projectKey : String) (allocationId : Int)
    (input : TimeAllocationInput) (allowNonMemberTarget : Bool) :
    Walks logging (fun _ q => q = .idle) (updateProjectTimeAllocation actorUserId projectKey
      allocationId input allowNonMemberTarget) .idle := by
  refine walks_bind check_idle ?_
  rintro projectKey _ rfl
  refine walks_bind check_idle ?_
  rintro _ _ rfl
  refine walks_bind check_idle ?_
  rintro input _ rfl
  refine walks_bind (query_idle ⟨by simp, by simp, by simp⟩ ?_) ?_
  · intro answer
    cases answer <;> rfl
  rintro project _ rfl
  refine walks_bind (R := fun _ q => q = .idle) (walks_okOr (fun _ => trivial) fun _ _ => rfl) ?_
  rintro project _ rfl
  refine walks_bind check_idle ?_
  rintro _ _ rfl
  refine walks_bind (resolveTarget_walks allowNonMemberTarget project.id input.username) ?_
  rintro userId _ rfl
  refine walks_bind (getTimeAllocation_reads allocationId) ?_
  rintro before _ ⟨rfl, hpos⟩
  refine walks_bind (query_walks (s := .update allocationId userId input)
    (.inl ⟨hpos, .inl ⟨_, _, rfl⟩⟩) fun _ => trivial) ?_
  rintro _ _ rfl
  refine walks_bind (getTimeAllocation_rereads allocationId _) ?_
  rintro allocation _ rfl
  refine walks_bind (record_walks rfl rfl rfl) ?_
  rintro _ _ rfl
  exact walks_done rfl

theorem delete_walks (actorUserId : Int) (projectKey : String) (allocationId : Int) :
    Walks logging (fun _ q => q = .idle)
      (deleteProjectTimeAllocation actorUserId projectKey allocationId) .idle := by
  refine walks_bind check_idle ?_
  rintro projectKey _ rfl
  refine walks_bind check_idle ?_
  rintro _ _ rfl
  refine walks_bind (query_idle ⟨by simp, by simp, by simp⟩ ?_) ?_
  · intro answer
    cases answer <;> rfl
  rintro owner _ rfl
  refine walks_bind (R := fun _ q => q = .idle) (walks_okOr (fun _ => trivial) fun _ _ => rfl) ?_
  rintro ⟨project, username⟩ _ rfl
  refine walks_bind check_idle ?_
  rintro _ _ rfl
  refine walks_bind (getTimeAllocation_reads allocationId) ?_
  rintro before _ ⟨rfl, hpos⟩
  refine walks_bind (query_walks (s := .delete allocationId) (.inl ⟨hpos, .inr rfl⟩)
    fun _ => trivial) ?_
  rintro _ _ rfl
  exact record_walks rfl rfl rfl

theorem restoreUpdated_walks (actorUserId : Int) (record : TimeAllocationChangeRecordMeta) :
    Walks logging (fun _ q => q = .idle) (restoreUpdated actorUserId record) .idle := by
  refine walks_bind (getTimeAllocation_reads record.allocationId) ?_
  rintro before q ⟨rfl, hpos⟩
  refine walks_bind (R := fun _ q => q = .holds record.allocationId (timeAllocationSnapshot before))
    (walks_check trivial fun _ _ => rfl) ?_
  rintro input _ rfl
  refine walks_bind (resolveActiveUserId_walks input.username (fun _ => .inr ⟨_, rfl⟩) trivial
    fun _ _ => rfl) ?_
  rintro userId _ rfl
  refine walks_bind (query_walks (s := .update record.allocationId userId input)
    (.inl ⟨hpos, .inl ⟨_, _, rfl⟩⟩) fun _ => trivial) ?_
  rintro _ _ rfl
  refine walks_bind (getTimeAllocation_rereads record.allocationId _) ?_
  rintro after _ rfl
  refine walks_bind (record_walks rfl rfl rfl) ?_
  rintro _ _ rfl
  exact walks_done rfl

theorem restoreDeleted_walks (actorUserId : Int) (record : TimeAllocationChangeRecordMeta) :
    Walks logging (fun _ q => q = .idle) (restoreDeleted actorUserId record) .idle := by
  refine walks_bind check_idle ?_
  rintro input _ rfl
  refine walks_bind (resolveActiveUserId_walks input.username (fun _ => ⟨by simp, by simp, by simp⟩)
    trivial fun _ _ => rfl) ?_
  rintro userId _ rfl
  refine walks_bind (query_walks (s := .insert record.projectId userId input actorUserId)
    ⟨by simp, by simp, by simp⟩ fun _ => trivial) ?_
  rintro allocationId _ rfl
  refine walks_bind (getTimeAllocation_rereads allocationId none) ?_
  rintro after _ rfl
  refine walks_bind (record_walks rfl rfl rfl) ?_
  rintro _ _ rfl
  exact walks_done rfl

theorem restore_walks (actorUserId recordId : Int) :
    Walks logging (fun _ q => q = .idle) (restoreTimeAllocationChange actorUserId recordId) .idle := by
  refine walks_bind (query_idle ⟨by simp, by simp, by simp⟩ ?_) ?_
  · intro answer
    cases answer <;> rfl
  rintro record _ rfl
  refine walks_bind (R := fun _ q => q = .idle) (walks_okOr (fun _ => trivial) fun _ _ => rfl) ?_
  rintro record _ rfl
  refine walks_bind check_idle ?_
  rintro _ _ rfl
  refine walks_bind (query_idle ⟨by simp, by simp, by simp⟩ ?_) ?_
  · intro answer
    cases answer <;> rfl
  rintro alreadyRestored _ rfl
  refine walks_bind check_idle ?_
  rintro _ _ rfl
  cases haction : record.action with
  | created =>
    refine walks_bind (getTimeAllocation_reads record.allocationId) ?_
    rintro before _ ⟨rfl, hpos⟩
    refine walks_bind (query_walks (s := .delete record.allocationId) (.inl ⟨hpos, .inr rfl⟩)
      fun _ => trivial) ?_
    rintro _ _ rfl
    refine walks_bind (record_walks rfl rfl rfl) ?_
    rintro _ _ rfl
    exact walks_done rfl
  | updated => exact restoreUpdated_walks actorUserId record
  | deleted => exact restoreDeleted_walks actorUserId record
  | restored => exact walks_fail trivial

theorem start_walks (request : Request) :
    Walks logging (fun _ q => logging.returns q) (start request) (logging.begin request) := by
  cases request with
  | create actorUserId projectKey input allowNonMemberTarget =>
    exact walks_bind (create_walks _ _ _ _) fun _ _ h => walks_done h
  | update actorUserId projectKey allocationId input allowNonMemberTarget =>
    exact walks_bind (update_walks _ _ _ _ _) fun _ _ h => walks_done h
  | delete actorUserId projectKey allocationId =>
    exact walks_bind (delete_walks _ _ _) fun _ _ h => walks_done h
  | restore actorUserId recordId => exact restore_walks actorUserId recordId

end Walking

/-! ## The statements that write -/

/-- Tables with their keys, whose rows refer to projects and users that exist. -/
structure Sound (db : Db) : Prop where
  ids : (db.allocations.map (·.id)).Nodup
  bound : ∀ a ∈ db.allocations, a.id < db.nextAllocation
  recorded : ∀ a ∈ db.activities, a.targetId < db.nextAllocation
  positive : 0 < db.nextAllocation
  linked : ∀ a ∈ db.allocations, (db.project a.projectId).isSome ∧ (db.user a.userId).isSome

section Tables

variable {db db' : Db} {id : Int}

theorem snapshot_congr (husers : db'.users = db.users) (hprojects : db'.projects = db.projects)
    (hrow : db'.row id = db.row id) : db'.snapshot id = db.snapshot id := by
  unfold Db.snapshot Db.allocation Db.detailOf Db.project Db.user
  rw [husers, hprojects, hrow]

theorem newest_congr (h : db'.activities = db.activities) : db'.newest id = db.newest id := by
  unfold Db.newest Db.recordsOf
  rw [h]

theorem row_id {a : Allocation} (h : db.row id = some a) : a.id = id := by
  have hid := List.find?_some h
  exact beq_iff_eq.mp hid

theorem row_none (h : Sound db) (hid : db.nextAllocation ≤ id) : db.row id = none := by
  apply List.find?_eq_none.mpr
  intro a ha hsame
  have hlt := h.bound a ha
  rw [beq_iff_eq] at hsame
  omega

theorem detailOf_isSome {a : Allocation} (hproject : (db.project a.projectId).isSome)
    (huser : (db.user a.userId).isSome) : (db.detailOf a).isSome := by
  obtain ⟨p, hp⟩ := Option.isSome_iff_exists.mp hproject
  obtain ⟨u, hu⟩ := Option.isSome_iff_exists.mp huser
  unfold Db.detailOf
  rw [hp, hu]
  rfl

/-- An allocation has a snapshot if and only if it has a row. -/
theorem snapshot_isSome (h : Sound db) : (db.snapshot id).isSome = (db.row id).isSome := by
  unfold Db.snapshot Db.allocation
  rw [Option.isSome_map]
  cases hrow : db.row id with
  | none => rfl
  | some a =>
    have hlinked := h.linked a (List.mem_of_find?_eq_some hrow)
    exact detailOf_isSome hlinked.1 hlinked.2

theorem recordsOf_none (h : Sound db) (hid : db.nextAllocation ≤ id) : db.recordsOf id = [] := by
  apply List.filter_eq_nil_iff.mpr
  intro a ha hsame
  have hlt := h.recorded a ha
  rw [beq_iff_eq] at hsame
  omega

/-- The tables behind an insert. -/
def inserted (db : Db) (a : Allocation) : Db :=
  { db with
    allocations := db.allocations ++ [a]
    nextAllocation := db.nextAllocation + 1 }

theorem insert_cases (db : Db) (now projectId userId : Int) (input : TimeAllocationInput)
    (createdBy : Int) :
    (∃ e, db.insert now projectId userId input createdBy = (db, .error e)) ∨
      ((db.project projectId).isSome ∧ (db.user userId).isSome) ∧
        db.insert now projectId userId input createdBy =
          (inserted db (db.newRow now projectId userId input createdBy), .ok db.nextAllocation) := by
  unfold Db.insert
  split
  · exact .inl ⟨_, rfl⟩
  · rename_i hkeys
    simp only [not_or, Bool.not_eq_true, Option.isNone_eq_false_iff] at hkeys
    exact .inr ⟨⟨hkeys.1, hkeys.2.1⟩, rfl⟩

theorem inserted_row (h : Sound db) {a : Allocation} (ha : a.id = db.nextAllocation) :
    (inserted db a).row id = if id = db.nextAllocation then some a else db.row id := by
  unfold Db.row inserted
  dsimp only
  rw [List.find?_append]
  split
  · rename_i hid
    have hnone := row_none h (Int.le_of_eq hid.symm)
    unfold Db.row at hnone
    rw [hnone, Option.none_or, List.find?_singleton, if_pos]
    rw [ha, hid]
    exact beq_self_eq_true _
  · rename_i hid
    rw [List.find?_singleton, if_neg, Option.or_none]
    rw [ha, beq_iff_eq]
    exact fun hsame => hid hsame.symm

theorem inserted_sound (h : Sound db) {a : Allocation} (ha : a.id = db.nextAllocation)
    (hproject : (db.project a.projectId).isSome) (huser : (db.user a.userId).isSome) :
    Sound (inserted db a) := by
  have hpositive := h.positive
  refine ⟨?_, ?_, ?_, ?_, ?_⟩
  · change ((db.allocations ++ [a]).map (·.id)).Nodup
    rw [List.map_append]
    apply List.Nodup.append h.ids (List.nodup_singleton _)
    intro x hold hnew
    obtain ⟨r, hr, rfl⟩ := List.mem_map.mp hold
    have hlt := h.bound r hr
    have heq : r.id = a.id := List.mem_singleton.mp hnew
    omega
  · intro r hr
    change r.id < db.nextAllocation + 1
    rcases List.mem_append.mp hr with hmem | hmem
    · have := h.bound r hmem
      omega
    · rw [List.mem_singleton.mp hmem, ha]
      omega
  · intro r hr
    change r.targetId < db.nextAllocation + 1
    have := h.recorded r hr
    omega
  · change 0 < db.nextAllocation + 1
    omega
  · intro r hr
    rcases List.mem_append.mp hr with hmem | hmem
    · exact h.linked r hmem
    · rw [List.mem_singleton.mp hmem]
      exact ⟨hproject, huser⟩

/-- The tables behind an update. -/
def updated (db : Db) (now id userId : Int) (input : TimeAllocationInput) : Db :=
  { db with
    allocations := updateWhere (·.id == id) (Db.updatedRow now userId input) db.allocations }

theorem update_cases (db : Db) (now id userId : Int) (input : TimeAllocationInput) :
    (∃ e, db.update now id userId input = (db, .error e)) ∨
      ((db.row id).isSome → (db.user userId).isSome) ∧
        db.update now id userId input = (updated db now id userId input, .ok ()) := by
  unfold Db.update
  split
  · exact .inl ⟨_, rfl⟩
  · rename_i hkeys
    refine .inr ⟨fun hrow => ?_, rfl⟩
    simp only [not_and, Bool.not_eq_true, Option.isNone_eq_false_iff] at hkeys
    exact hkeys hrow

theorem updated_row (now userId : Int) (input : TimeAllocationInput) (id' : Int) :
    (updated db now id userId input).row id' = (db.row id').map fun a =>
      if a.id == id then Db.updatedRow now userId input a else a := by
  unfold Db.row updated
  apply find?_updateWhere
  exact fun _ => rfl

theorem updated_row_other {now userId : Int} {input : TimeAllocationInput} {id' : Int}
    (hne : id' ≠ id) : (updated db now id userId input).row id' = db.row id' := by
  rw [updated_row]
  cases hrow : db.row id' with
  | none => rfl
  | some a =>
    rw [Option.map_some, if_neg]
    rw [row_id hrow, beq_iff_eq]
    exact hne

theorem updated_sound (h : Sound db) {now userId : Int} {input : TimeAllocationInput}
    (huser : (db.row id).isSome → (db.user userId).isSome) :
    Sound (updated db now id userId input) := by
  refine ⟨?_, ?_, h.recorded, h.positive, ?_⟩
  · change ((updateWhere _ _ db.allocations).map (·.id)).Nodup
    rw [map_updateWhere (f := Db.updatedRow now userId input) (fun a : Allocation => a.id) fun _ => rfl]
    exact h.ids
  · intro a ha
    obtain ⟨r, hr, rfl⟩ := mem_updateWhere.mp ha
    split
    · exact h.bound r hr
    · exact h.bound r hr
  · intro a ha
    obtain ⟨r, hr, rfl⟩ := mem_updateWhere.mp ha
    split
    · rename_i hid
      refine ⟨(h.linked r hr).1, huser ?_⟩
      have hfound : db.row r.id = some r := find?_of_mem h.ids hr
      rw [← beq_iff_eq.mp hid, hfound]
      rfl
    · exact h.linked r hr

theorem delete_row (id' : Int) :
    (db.delete id).row id' = if id' = id then none else db.row id' := by
  unfold Db.row Db.delete
  dsimp only
  rw [List.find?_filter]
  split
  · rename_i hid
    apply List.find?_eq_none.mpr
    intro a _ hboth
    obtain ⟨hne, hsame⟩ := of_decide_eq_true hboth
    exact bne_iff_ne.mp hne ((beq_iff_eq.mp hsame).trans hid)
  · rename_i hid
    congr 1
    funext a
    by_cases hsame : a.id = id'
    · simp [hsame, hid]
    · simp [hsame]

theorem delete_sound (h : Sound db) : Sound (db.delete id) := by
  have hsub : ∀ a ∈ (db.delete id).allocations, a ∈ db.allocations :=
    fun a ha => (List.mem_filter.mp ha).1
  refine ⟨?_, fun a ha => h.bound a (hsub a ha), h.recorded, h.positive,
    fun a ha => h.linked a (hsub a ha)⟩
  exact h.ids.sublist (List.filter_sublist.map _)

/-- The tables behind a record. -/
def logged (db : Db) (a : NewActivity) : Db :=
  { db with
    activities := db.activities ++ [{ a with id := db.nextActivity }]
    nextActivity := db.nextActivity + 1 }

theorem record_cases (db : Db) (a : NewActivity) :
    (∃ e, db.record a = (db, .error e)) ∨ db.record a = (logged db a, .ok ()) := by
  unfold Db.record
  split
  · exact .inl ⟨_, rfl⟩
  · exact .inr rfl

theorem logged_recordsOf (a : NewActivity) :
    (logged db a).recordsOf id = db.recordsOf id ++
      if a.targetId = id then [{ a with id := db.nextActivity }] else [] := by
  unfold Db.recordsOf logged
  rw [List.filter_append]
  congr 1
  by_cases hid : a.targetId = id
  · simp [hid]
  · simp [hid]

theorem logged_newest {a : NewActivity} :
    (logged db a).newest id = if a.targetId = id then a.metadata.after else db.newest id := by
  unfold Db.newest
  rw [logged_recordsOf]
  split
  · rw [List.getLast?_concat]
    rfl
  · rw [List.append_nil]

theorem logged_chained {a : NewActivity} (h : db.Chained id)
    (hbefore : a.targetId = id → db.newest id = a.metadata.before) : (logged db a).Chained id := by
  unfold Db.Chained
  rw [logged_recordsOf]
  split
  · rename_i hid
    refine List.isChain_append.mpr ⟨h, List.isChain_singleton _, ?_⟩
    intro x hx y hy
    obtain rfl : _ = y := Option.some.inj hy
    have hnewest := hbefore hid
    unfold Db.newest at hnewest
    rw [hx] at hnewest
    exact hnewest.symm
  · rw [List.append_nil]
    exact h

end Tables

/-! ## Records and rows -/

/-- The records of each allocation follow on each other and end with the row. -/
structure Explained (db : Db) : Prop where
  sound : Sound db
  chained : ∀ id, db.Chained id
  newest : ∀ id, db.newest id = db.snapshot id

/-- No call other than the `i`-th is between its change of the allocation and the record. -/
def Free (qs : List Phase) (i : Nat) (id : Int) : Prop :=
  ∀ (j : Nat) q, j ≠ i → qs[j]? = some q → q.between id = false

/-- What the call has read of the allocation. -/
def Phase.held : Phase → Option Snapshot
  | holds _ before => some before
  | _ => none

def Phase.owing : Phase → Bool
  | changed .. => true
  | owes .. => true
  | _ => false

/-- The statement does not fail where a record is owed. Where it changes an allocation, no other call
owes a record about it, and it is still what the call has read; an update may also find it gone. -/
structure Fits (qs : List Phase) (db : Db) (i : Nat) (m : Moment) (q : Phase) (s : Statement) :
    Prop where
  succeeds : q.owing = true → ∃ a, (perform m s db).2 = .ok a
  update : ∀ id userId input, s = .update id userId input →
    Free qs i id ∧ (db.snapshot id = q.held ∨ db.snapshot id = none)
  delete : ∀ id, s = .delete id → Free qs i id ∧ db.snapshot id = q.held

/-- The step is one whose statement fits. -/
def Undisturbed (qs : List Phase) (s : Server) : Turn Request Moment → Prop
  | .begin _ => True
  | .resume i m => ∀ st q, nextStatement s i = some st → qs[i]? = some q → Fits qs s.db i m q st

/-- What the call knows of the allocation that it has read or changed. -/
def Knows (db : Db) : Phase → Prop
  | .holds id _ => id < db.nextAllocation
  | .changed id before => 0 < id ∧ ((db.newest id = before ∧ (db.snapshot id).isSome) ∨
      (db.newest id = none ∧ db.snapshot id = none))
  | .owes id before after => db.newest id = before ∧ db.snapshot id = after
  | _ => True

structure Logged (qs : List Phase) (db : Db) : Prop where
  sound : Sound db
  chained : ∀ id, db.Chained id
  quiet : ∀ id, (∀ q ∈ qs, q.between id = false) → db.newest id = db.snapshot id
  knows : ∀ q ∈ qs, Knows db q
  alone : ∀ id i q, qs[i]? = some q → q.between id = true → Free qs i id
  fresh : ∀ id, ∀ q ∈ qs, q.between id = true → id < db.nextAllocation

section Steps

variable {qs : List Phase} {db db' : Db} {i : Nat} {q q' : Phase} {id : Int}

theorem mem_set {p : Phase} (h : p ∈ qs.set i q') : p = q' ∨ ∃ j, j ≠ i ∧ qs[j]? = some p := by
  obtain ⟨j, hj⟩ := List.mem_iff_getElem?.mp h
  rcases set_cases hj with ⟨-, rfl⟩ | ⟨hji, hold⟩
  · exact .inl rfl
  · exact .inr ⟨j, hji, hold⟩

theorem mem_set_of_ne {j : Nat} {p : Phase} (hj : qs[j]? = some p) (hne : j ≠ i) : p ∈ qs.set i q' := by
  apply List.mem_iff_getElem?.mpr
  refine ⟨j, ?_⟩
  rw [List.getElem?_set_ne fun h => hne h.symm]
  exact hj

theorem Knows.congr (h : Knows db q) (hnext : db.nextAllocation ≤ db'.nextAllocation)
    (hsame : ∀ id, q.between id = true → db'.newest id = db.newest id ∧
      db'.snapshot id = db.snapshot id) : Knows db' q := by
  cases q with
  | changed id before =>
    obtain ⟨h1, h2⟩ := hsame id (beq_self_eq_true id)
    simp only [Knows] at h ⊢
    rw [h1, h2]
    exact h
  | owes id before after =>
    obtain ⟨h1, h2⟩ := hsame id (beq_self_eq_true id)
    simp only [Knows] at h ⊢
    rw [h1, h2]
    exact h
  | holds id before => exact Int.lt_of_lt_of_le h hnext
  | idle => trivial

/-- A step of the `i`-th call, about one allocation that no other call is in the middle of. -/
theorem Logged.step (id : Int) (h : Logged qs db) (hq : qs[i]? = some q)
    (hsound : Sound db') (hchained : ∀ id, db'.Chained id)
    (hnext : db.nextAllocation ≤ db'.nextAllocation)
    (hother : ∀ id', id' ≠ id → db'.newest id' = db.newest id' ∧ db'.snapshot id' = db.snapshot id')
    (hfree : Free qs i id) (hwas : ∀ id', q.between id' = true → id' = id)
    (hnow : ∀ id', q'.between id' = true → id' = id ∧ id < db'.nextAllocation)
    (hknows : Knows db' q')
    (hquiet : q'.between id = false → db'.newest id = db'.snapshot id) :
    Logged (qs.set i q') db' := by
  have hself : i < qs.length := (List.getElem?_eq_some_iff.mp hq).1
  have hmem' : q' ∈ qs.set i q' := List.mem_set hself q'
  refine ⟨hsound, hchained, ?_, ?_, ?_, ?_⟩
  · intro id' hnone
    by_cases hid : id' = id
    · obtain rfl := hid
      exact hquiet (hnone q' hmem')
    · rw [(hother id' hid).1, (hother id' hid).2]
      apply h.quiet
      intro p hp
      obtain ⟨j, hj⟩ := List.mem_iff_getElem?.mp hp
      by_cases hji : j = i
      · obtain rfl := hji
        rw [hq] at hj
        obtain rfl := Option.some.inj hj
        rw [← Bool.not_eq_true]
        exact fun hb => hid (hwas id' hb)
      · exact hnone p (mem_set_of_ne hj hji)
  · intro p hp
    rcases mem_set hp with rfl | ⟨j, hji, hj⟩
    · exact hknows
    · refine (h.knows p (List.mem_of_getElem? hj)).congr hnext fun id' hb => hother id' ?_
      rintro rfl
      rw [hfree j p hji hj] at hb
      cases hb
  · intro id' j p hj hb k p' hkj hk
    by_cases hij : i = j
    · obtain rfl := hij
      rw [List.getElem?_set_self hself] at hj
      obtain rfl := Option.some.inj hj
      obtain ⟨rfl, -⟩ := hnow id' hb
      rw [List.getElem?_set_ne fun h => hkj h.symm] at hk
      exact hfree k p' hkj hk
    · rw [List.getElem?_set_ne hij] at hj
      by_cases hik : i = k
      · obtain rfl := hik
        rw [List.getElem?_set_self hself] at hk
        obtain rfl := Option.some.inj hk
        rw [← Bool.not_eq_true]
        intro hb'
        obtain ⟨rfl, -⟩ := hnow id' hb'
        rw [hfree j p (fun h => hij h.symm) hj] at hb
        cases hb
      · rw [List.getElem?_set_ne hik] at hk
        exact h.alone id' j p hj hb k p' hkj hk
  · intro id' p hp hb
    rcases mem_set hp with rfl | ⟨j, -, hj⟩
    · obtain ⟨rfl, hlt⟩ := hnow id' hb
      exact hlt
    · exact Int.lt_of_lt_of_le (h.fresh id' p (List.mem_of_getElem? hj) hb) hnext

theorem Logged.free_fresh (h : Logged qs db) : Free qs i db.nextAllocation := by
  intro j p _ hj
  rw [← Bool.not_eq_true]
  intro hb
  exact Int.lt_irrefl _ (h.fresh _ p (List.mem_of_getElem? hj) hb)

theorem Logged.newest_of_free (h : Logged qs db) (hq : qs[i]? = some q) (hfree : Free qs i id)
    (hnot : q.between id = false) : db.newest id = db.snapshot id := by
  apply h.quiet
  intro p hp
  obtain ⟨j, hj⟩ := List.mem_iff_getElem?.mp hp
  by_cases hji : j = i
  · obtain rfl := hji
    rw [hq] at hj
    obtain rfl := Option.some.inj hj
    exact hnot
  · exact hfree j p hji hj

/-- A step that changes nothing, of a call that owes nothing before it and behind it. -/
theorem Logged.stays (h : Logged qs db) (hq : qs[i]? = some q) (hnot : ∀ id, q.between id = false)
    (hnot' : ∀ id, q'.between id = false) (hknows : Knows db q') : Logged (qs.set i q') db := by
  refine h.step db.nextAllocation hq h.sound h.chained (Int.le_refl _) (fun _ _ => ⟨rfl, rfl⟩)
    h.free_fresh ?_ ?_ hknows ?_
  · intro id' hb
    rw [hnot] at hb
    cases hb
  · intro id' hb
    rw [hnot'] at hb
    cases hb
  · exact fun _ => h.newest_of_free hq h.free_fresh (hnot _)

theorem Logged.insert (h : Logged qs db) (hq : qs[i]? = some .idle) {a : Allocation}
    (ha : a.id = db.nextAllocation) (hproject : (db.project a.projectId).isSome)
    (huser : (db.user a.userId).isSome) :
    Logged (qs.set i (.changed db.nextAllocation none)) (inserted db a) := by
  have hsound := inserted_sound h.sound ha hproject huser
  refine h.step db.nextAllocation hq hsound h.chained ?_ ?_ h.free_fresh ?_ ?_ ?_ ?_
  · exact Int.le_of_lt (Int.lt_succ _)
  · intro id' hne
    refine ⟨newest_congr rfl, snapshot_congr rfl rfl ?_⟩
    rw [inserted_row h.sound ha, if_neg hne]
  · intro id' hb
    cases hb
  · intro id' hb
    exact ⟨(beq_iff_eq.mp hb).symm, Int.lt_succ _⟩
  · refine ⟨h.sound.positive, .inl ⟨?_, ?_⟩⟩
    · change db.newest db.nextAllocation = none
      unfold Db.newest
      rw [recordsOf_none h.sound (Int.le_refl _)]
      rfl
    · rw [snapshot_isSome hsound, inserted_row h.sound ha, if_pos rfl]
      rfl
  · intro hb
    cases (beq_self_eq_true db.nextAllocation).symm.trans hb

theorem Logged.update {before : Snapshot} (h : Logged qs db) (hq : qs[i]? = some (.holds id before))
    (hpos : 0 < id) (hfree : Free qs i id)
    (hcurrent : db.snapshot id = some before ∨ db.snapshot id = none) {now userId : Int}
    {input : TimeAllocationInput} (huser : (db.row id).isSome → (db.user userId).isSome) :
    Logged (qs.set i (.changed id (some before))) (updated db now id userId input) := by
  have hsound : Sound (updated db now id userId input) := updated_sound h.sound huser
  have hnewest := h.newest_of_free hq hfree rfl
  -- the update leaves a row where there was one
  have hsome : ((updated db now id userId input).snapshot id).isSome = (db.snapshot id).isSome := by
    rw [snapshot_isSome hsound, snapshot_isSome h.sound, updated_row, Option.isSome_map]
  refine h.step id hq hsound h.chained (Int.le_refl _) ?_ hfree ?_ ?_ ?_ ?_
  · intro id' hne
    exact ⟨newest_congr rfl, snapshot_congr rfl rfl (updated_row_other hne)⟩
  · intro id' hb
    cases hb
  · intro id' hb
    exact ⟨(beq_iff_eq.mp hb).symm, h.knows _ (List.mem_of_getElem? hq)⟩
  · refine ⟨hpos, ?_⟩
    rcases hcurrent with hcurrent | hgone
    · refine .inl ⟨?_, ?_⟩
      · exact hnewest.trans hcurrent
      · rw [hsome, hcurrent]
        rfl
    · refine .inr ⟨hnewest.trans hgone, ?_⟩
      rw [hgone] at hsome
      exact Option.not_isSome_iff_eq_none.mp (by rw [hsome]; decide)
  · intro hb
    cases (beq_self_eq_true id).symm.trans hb

theorem Logged.delete {before : Snapshot} (h : Logged qs db) (hq : qs[i]? = some (.holds id before))
    (hfree : Free qs i id) (hcurrent : db.snapshot id = some before) :
    Logged (qs.set i (.owes id (some before) none)) (db.delete id) := by
  refine h.step id hq (delete_sound h.sound) h.chained (Int.le_refl _) ?_ hfree ?_ ?_ ⟨?_, ?_⟩ ?_
  · intro id' hne
    refine ⟨newest_congr rfl, snapshot_congr rfl rfl ?_⟩
    rw [delete_row, if_neg hne]
  · intro id' hb
    cases hb
  · intro id' hb
    exact ⟨(beq_iff_eq.mp hb).symm, h.knows _ (List.mem_of_getElem? hq)⟩
  · exact (h.newest_of_free hq hfree rfl).trans hcurrent
  · unfold Db.snapshot Db.allocation
    rw [delete_row, if_pos rfl]
    rfl
  · intro hb
    cases (beq_self_eq_true id).symm.trans hb

/-- The read behind a change. -/
theorem Logged.reread {before : Option Snapshot} (h : Logged qs db)
    (hq : qs[i]? = some (.changed id before)) :
    Logged (qs.set i (Phase.next (.changed id before) (.allocation id) (.ok (db.allocation id)))) db := by
  have hmem := List.mem_of_getElem? hq
  obtain ⟨-, hknows⟩ : Knows db (.changed id before) := h.knows _ hmem
  have hself : Phase.between id (.changed id before) = true := beq_self_eq_true _
  have hfree := h.alone id i _ hq hself
  have hwas : ∀ id', Phase.between id' (.changed id before) = true → id' = id :=
    fun id' hb => (beq_iff_eq.mp hb).symm
  cases hrow : db.allocation id with
  | none =>
    have hsnapshot : db.snapshot id = none := by
      unfold Db.snapshot
      rw [hrow]
      rfl
    refine h.step id hq h.sound h.chained (Int.le_refl _) (fun _ _ => ⟨rfl, rfl⟩) hfree hwas ?_
      trivial ?_
    · intro id' hb
      cases hb
    · rcases hknows with ⟨-, hsome⟩ | ⟨hnewest, -⟩
      · rw [hsnapshot] at hsome
        cases hsome
      · exact fun _ => hnewest.trans hsnapshot.symm
  | some d =>
    have hsnapshot : db.snapshot id = some (timeAllocationSnapshot d) := by
      unfold Db.snapshot
      rw [hrow]
      rfl
    refine h.step id hq h.sound h.chained (Int.le_refl _) (fun _ _ => ⟨rfl, rfl⟩) hfree hwas ?_
      ⟨?_, hsnapshot⟩ ?_
    · intro id' hb
      exact ⟨(beq_iff_eq.mp hb).symm, h.fresh id _ hmem hself⟩
    · rcases hknows with ⟨hnewest, -⟩ | ⟨-, hnone⟩
      · exact hnewest
      · rw [hsnapshot] at hnone
        cases hnone
    · intro hb
      cases (beq_self_eq_true id).symm.trans hb

theorem Logged.record {a : NewActivity} (h : Logged qs db)
    (hq : qs[i]? = some (.owes a.targetId a.metadata.before a.metadata.after)) :
    Logged (qs.set i .idle) (logged db a) := by
  have hmem := List.mem_of_getElem? hq
  obtain ⟨hbefore, hafter⟩ : Knows db (.owes _ _ _) := h.knows _ hmem
  have hself : Phase.between a.targetId
      (.owes a.targetId a.metadata.before a.metadata.after) = true := beq_self_eq_true _
  refine h.step a.targetId hq ?_ ?_ (Int.le_refl _) ?_ (h.alone _ i _ hq hself) ?_ ?_ trivial ?_
  · refine ⟨h.sound.ids, h.sound.bound, ?_, h.sound.positive, h.sound.linked⟩
    intro r hr
    rcases List.mem_append.mp hr with hold | hnew
    · exact h.sound.recorded r hold
    · rw [List.mem_singleton.mp hnew]
      exact h.fresh _ _ hmem hself
  · intro id
    exact logged_chained (h.chained id) fun hid => by rw [← hid]; exact hbefore
  · intro id' hne
    refine ⟨?_, rfl⟩
    rw [logged_newest, if_neg fun h => hne h.symm]
  · exact fun id' hb => (beq_iff_eq.mp hb).symm
  · intro id' hb
    cases hb
  · intro _
    rw [logged_newest, if_pos rfl]
    exact hafter.symm

theorem perform_cases (m : Moment) (st : Statement) (db : Db) :
    (∃ e, perform m st db = (db, .error e)) ∨ perform m st db = execute m.now db st := by
  unfold perform
  cases m.fault with
  | none => exact .inr rfl
  | some e => exact .inl ⟨e, rfl⟩

theorem between_next_error (q : Phase) (st : Statement) (e : AppError) :
    q.next st (.error e) = .idle := by
  cases q <;> cases st <;> rfl

/-- A call that owes nothing fails. -/
theorem Logged.fail (h : Logged qs db) (hq : qs[i]? = some q) (hnot : ∀ id, q.between id = false)
    (st : Statement) (e : AppError) : Logged (qs.set i (q.next st (.error e))) db := by
  rw [between_next_error]
  exact h.stays hq hnot (fun _ => rfl) trivial

theorem Logged.idle (h : Logged qs db) (hq : qs[i]? = some .idle) {st : Statement}
    (hallows : Phase.allows .idle st) (m : Moment) :
    Logged (qs.set i (Phase.next .idle st (perform m st db).2)) (perform m st db).1 := by
  rcases perform_cases m st db with ⟨e, heq⟩ | heq
  · rw [heq]
    exact h.fail hq (fun _ => rfl) st e
  rw [heq]
  have stays : Logged (qs.set i .idle) db := h.stays hq (fun _ => rfl) (fun _ => rfl) trivial
  cases st with
  | insert projectId userId input createdBy =>
    rcases insert_cases db m.now projectId userId input createdBy with ⟨e, hcase⟩ | ⟨hkeys, hcase⟩
    · rw [show execute m.now db (.insert projectId userId input createdBy) = _ from hcase]
      exact h.fail hq (fun _ => rfl) _ e
    · rw [show execute m.now db (.insert projectId userId input createdBy) = _ from hcase]
      exact h.insert hq rfl hkeys.1 hkeys.2
  | allocation id =>
    change Logged (qs.set i (Phase.next .idle (.allocation id) (.ok (db.allocation id)))) db
    cases hrow : db.allocation id with
    | none => exact stays
    | some d =>
      refine h.stays hq (fun _ => rfl) (fun _ => rfl) ?_
      -- an allocation that can be read has been inserted
      change id < db.nextAllocation
      by_contra hle
      obtain ⟨a, ha, -⟩ := Option.bind_eq_some_iff.mp hrow
      rw [row_none h.sound (Int.not_lt.mp hle)] at ha
      cases ha
  | update id userId input => exact absurd rfl (hallows.1 id userId input)
  | delete id => exact absurd rfl (hallows.2.1 id)
  | record a => exact absurd rfl (hallows.2.2 a)
  | _ => exact stays

theorem Logged.holds {before : Snapshot} (h : Logged qs db) (hq : qs[i]? = some (.holds id before))
    {st : Statement} (hallows : Phase.allows (.holds id before) st) {m : Moment}
    (hfits : Fits qs db i m (.holds id before) st) :
    Logged (qs.set i (Phase.next (.holds id before) st (perform m st db).2)) (perform m st db).1 := by
  rcases perform_cases m st db with ⟨e, heq⟩ | heq
  · rw [heq]
    exact h.fail hq (fun _ => rfl) st e
  rw [heq]
  rcases hallows with ⟨hpos, ⟨userId, input, rfl⟩ | rfl⟩ | ⟨username, rfl⟩
  · obtain ⟨hfree, hcurrent⟩ := hfits.update id userId input rfl
    rcases update_cases db m.now id userId input with ⟨e, hcase⟩ | ⟨huser, hcase⟩
    · rw [show execute m.now db (.update id userId input) = _ from hcase]
      exact h.fail hq (fun _ => rfl) _ e
    · rw [show execute m.now db (.update id userId input) = _ from hcase]
      exact h.update hq hpos hfree hcurrent huser
  · obtain ⟨hfree, hcurrent⟩ := hfits.delete id rfl
    exact h.delete hq hfree hcurrent
  · exact h.stays hq (fun _ => rfl) (fun _ => rfl) (h.knows _ (List.mem_of_getElem? hq))

/-- Every statement that fits keeps the records behind the rows. -/
theorem Logged.resume (h : Logged qs db) (hq : qs[i]? = some q) {st : Statement}
    (hallows : q.allows st) {m : Moment} (hfits : Fits qs db i m q st) :
    Logged (qs.set i (q.next st (perform m st db).2)) (perform m st db).1 := by
  -- a statement of a call that owes a record does not fail
  have succeeds : q.owing = true → perform m st db = execute m.now db st ∧
      ∃ a, (execute m.now db st).2 = .ok a := by
    intro howing
    obtain ⟨a, ha⟩ := hfits.succeeds howing
    rcases perform_cases m st db with ⟨e, heq⟩ | heq
    · rw [heq] at ha
      cases ha
    · exact ⟨heq, a, by rw [← heq]; exact ha⟩
  cases q with
  | idle => exact h.idle hq hallows m
  | holds id before => exact h.holds hq hallows hfits
  | changed id before =>
    obtain rfl : st = .allocation id := hallows
    rw [(succeeds rfl).1]
    exact h.reread hq
  | owes id before after =>
    obtain ⟨a, rfl, rfl, rfl, rfl⟩ := hallows
    obtain ⟨heq, u, hok⟩ := succeeds rfl
    rw [heq]
    rcases record_cases db a with ⟨e, hcase⟩ | hcase
    · rw [show execute m.now db (.record a) = _ from hcase] at hok
      cases hok
    · rw [show execute m.now db (.record a) = _ from hcase]
      exact h.record hq

/-- A call comes in. -/
theorem Logged.begin (h : Logged qs db) : Logged (qs ++ [.idle]) db := by
  have hmem : ∀ q ∈ qs ++ [Phase.idle], q ∈ qs ∨ q = .idle := by
    intro q hq
    rcases List.mem_append.mp hq with hold | hnew
    · exact .inl hold
    · exact .inr (List.mem_singleton.mp hnew)
  -- a phase that a call is in the middle of is an old one
  have hget : ∀ (i : Nat) q id, (qs ++ [Phase.idle])[i]? = some q → q.between id = true →
      qs[i]? = some q := by
    intro i q id hq hb
    by_cases hi : i < qs.length
    · rw [List.getElem?_append_left hi] at hq
      exact hq
    · rw [List.getElem?_append_right (Nat.le_of_not_lt hi)] at hq
      obtain rfl := List.mem_singleton.mp (List.mem_of_getElem? hq)
      cases hb
  refine ⟨h.sound, h.chained, ?_, ?_, ?_, ?_⟩
  · intro id hnone
    exact h.quiet id fun q hq => hnone q (List.mem_append_left _ hq)
  · intro q hq
    rcases hmem q hq with hold | rfl
    · exact h.knows q hold
    · trivial
  · intro id i q hq hb j q' hji hq'
    rw [← Bool.not_eq_true]
    intro hb'
    have hfree := h.alone id i q (hget i q id hq hb) hb j q' hji (hget j q' id hq' hb')
    rw [hb'] at hfree
    cases hfree
  · intro id q hq hb
    rcases hmem q hq with hold | rfl
    · exact h.fresh id q hold hb
    · cases hb

/-- A call that is in the middle of a change has not ended. -/
theorem Logged.running (h : Logged qs db) {calls : List (Task (Option TimeAllocationDetail))}
    (hphases : InPhases logging calls qs) (hq : qs[i]? = some q) (hb : q.between id = true) :
    ∃ st k, calls[i]? = some (.ask st k) := by
  have hlt : i < calls.length := by
    rw [← hphases.length]
    exact (List.getElem?_eq_some_iff.mp hq).1
  have hp := List.getElem?_eq_getElem hlt
  have hwalk := hphases.walks i _ q hp hq
  have hknows := h.knows q (List.mem_of_getElem? hq)
  rw [hp]
  cases hcall : calls[i] with
  | ask st k => exact ⟨st, k, rfl⟩
  | done a =>
    rw [hcall] at hwalk
    obtain rfl : q = .idle := hwalk
    cases hb
  | fail e =>
    rw [hcall] at hwalk
    cases q with
    | changed id' before => exact absurd hknows.1 (Int.not_lt.mpr hwalk)
    | owes id' before after => exact False.elim hwalk
    | _ => cases hb

end Steps

/-- A project without allocations. -/
def teamProject : Db where
  users := [⟨1, "alice", "Alice", true, false⟩, ⟨2, "bob", "Bob", true, false⟩]
  projects := [⟨1, "PA", "Project", .inProgress⟩]
  members := [(1, 1), (1, 2)]
  allocations := []
  nextAllocation := 1
  activities := []
  nextActivity := 1

theorem teamProject_explained : Explained teamProject :=
  ⟨⟨by decide, by decide, by decide, by decide, by decide⟩, fun _ => List.isChain_nil, fun _ => rfl⟩

def weekOf (username : String) (dailyHours : Rat) : TimeAllocationInput where
  username := username
  startDate := "2026-01-05"
  endDate := "2026-01-09"
  dailyHours := dailyHours
  phaseTaskName := ""
  note := ""

def calm : Moment := { now := 0, fault := none }

def lost : Moment := { now := 0, fault := some .storage }

/-- Two allocations are created beside each other, and one of them is deleted. -/
def createdBeside : List (Turn Request Moment) :=
  [.begin (.create 1 "PA" (weekOf "bob" 4) false), .begin (.create 1 "PA" (weekOf "alice" 2) false),
    .resume 0 calm, .resume 0 calm, .resume 0 calm, .resume 1 calm, .resume 1 calm, .resume 1 calm,
    .resume 0 calm, .resume 1 calm, .resume 1 calm, .resume 0 calm, .begin (.delete 1 "PA" 1),
    .resume 2 calm, .resume 2 calm, .resume 2 calm, .resume 2 calm]

def isUndisturbed (qs : List Phase) (s : Server) : Turn Request Moment → Bool
  | .begin _ => true
  | .resume i m =>
    match nextStatement s i, qs[i]? with
    | some st, some q =>
      (!q.owing || (perform m st s.db).2.isOk) &&
        match st with
        | .update id _ _ => (qs.eraseIdx i).all (fun p => !p.between id) &&
            (s.db.snapshot id == q.held || s.db.snapshot id == none)
        | .delete id => (qs.eraseIdx i).all (fun p => !p.between id) && s.db.snapshot id == q.held
        | _ => true
    | _, _ => true

theorem free_of_all {qs : List Phase} {i : Nat} {id : Int}
    (h : (qs.eraseIdx i).all (fun p => !p.between id) = true) : Free qs i id := by
  intro j q hji hq
  have hmem : q ∈ qs.eraseIdx i := List.mem_eraseIdx_iff_getElem?.mpr ⟨j, hji, hq⟩
  have hnot := List.all_eq_true.mp h q hmem
  rw [Bool.not_eq_true'] at hnot
  exact hnot

theorem undisturbed_of_test (qs : List Phase) (s : Server) (e : Turn Request Moment)
    (h : isUndisturbed qs s e = true) : Undisturbed qs s e := by
  cases e with
  | begin request => trivial
  | resume i m =>
    intro st q hst hq
    unfold isUndisturbed at h
    dsimp only at h
    rw [hst, hq, Bool.and_eq_true] at h
    obtain ⟨howed, hchange⟩ := h
    refine ⟨?_, ?_, ?_⟩
    · intro howing
      rw [howing, Bool.not_true, Bool.false_or] at howed
      cases hanswer : (perform m st s.db).2 with
      | ok a => exact ⟨a, rfl⟩
      | error e =>
        rw [hanswer] at howed
        cases howed
    · rintro id userId input rfl
      rw [Bool.and_eq_true, Bool.or_eq_true, beq_iff_eq, beq_iff_eq] at hchange
      exact ⟨free_of_all hchange.1, hchange.2⟩
    · rintro id rfl
      rw [Bool.and_eq_true, beq_iff_eq] at hchange
      exact ⟨free_of_all hchange.1, hchange.2⟩

/-- The record of a new allocation is lost. -/
def recordLost : List (Turn Request Moment) :=
  [.begin (.create 1 "PA" (weekOf "bob" 4) false), .resume 0 calm, .resume 0 calm, .resume 0 calm,
    .resume 0 calm, .resume 0 lost]

/-- Two updates have both read the allocation when the first of them changes it. -/
def updatedBeside : List (Turn Request Moment) :=
  [.begin (.create 1 "PA" (weekOf "bob" 4) false), .resume 0 calm, .resume 0 calm, .resume 0 calm,
    .resume 0 calm, .resume 0 calm, .begin (.update 1 "PA" 1 (weekOf "bob" 6) false),
    .begin (.update 2 "PA" 1 (weekOf "bob" 8) false), .resume 1 calm, .resume 1 calm, .resume 1 calm,
    .resume 2 calm, .resume 2 calm, .resume 2 calm, .resume 1 calm, .resume 1 calm, .resume 1 calm,
    .resume 2 calm, .resume 2 calm, .resume 2 calm]

end TimeAllocations
end Projects
end Yuance
