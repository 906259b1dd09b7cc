import Yuance.Projects.TimeRestore

/-!
# Yuance.Projects.TimeInverse

What a restore makes of the table, against the table before the change. The row of a restored
allocation is written again from the snapshot, which is checked once more, and its creator is the
user who restores.

* `Records`: the change of the table that a record is about, if nothing has changed it since.
* `RolledBack`: the table is what it was before the change, but for ids and times.
* `Faithful`: the changes that can be rolled back so.
-/

namespace Yuance
namespace Projects
namespace TimeAllocations

open Lib Platform

/-- All of an allocation but its id and its times. -/
structure Content where
  projectId : Int
  userId : Int
  startDate : String
  endDate : String
  dailyHours : Rat
  phaseTaskName : String
  note : String
  createdByUserId : Option Int
  deriving DecidableEq, Repr

def Allocation.content (a : Allocation) : Content :=
  ⟨a.projectId, a.userId, a.startDate, a.endDate, a.dailyHours, a.phaseTaskName, a.note,
    a.createdByUserId⟩

/-- The rows before a change of the allocation, which was `old` if it was there. -/
def before (allocations : List Allocation) (id : Int) (old : Option Allocation) : List Allocation :=
  allocations.filter (fun a => !(a.id == id)) ++ old.toList

/-- The tables hold the same, but for ids and times. -/
def SameContents (l l' : List Allocation) : Prop := (l.map (·.content)).Perm (l'.map (·.content))

instance (l l' : List Allocation) : Decidable (SameContents l l') :=
  inferInstanceAs (Decidable ((l.map (·.content)).Perm (l'.map (·.content))))

/-- The table is what it was before the change. -/
def RolledBack (db db' : Db) (id : Int) (old : Option Allocation) : Prop :=
  SameContents db'.allocations (before db.allocations id old)

/-- The keys of the tables. -/
structure Keyed (db : Db) : Prop where
  ids : (db.allocations.map (·.id)).Nodup
  users : (db.users.map (·.id)).Nodup
  usernames : (db.users.map (·.username)).Nodup

/-- What the record says was done to the row of the allocation, which was `old` and now is `new`. -/
def Changed (projectId : Int) : Action → (old new : Option Allocation) → Prop
  | .created, none, some _ => True
  | .updated, some old, some new => old.projectId = projectId ∧ new.projectId = projectId ∧
      new.createdByUserId = old.createdByUserId
  | .deleted, some old, none => old.projectId = projectId
  | _, _, _ => False

/-- The record is about a change of `old`, and the allocation was not changed since. -/
structure Records (db : Db) (r : ActivityRow) (old : Option Allocation) : Prop where
  found : db.activities.find? (·.id == r.id) = some r
  changed : Changed r.projectId r.action old (db.row r.targetId)
  linked : ∀ a, old = some a → (db.detailOf a).isSome = true
  before : r.metadata.before = (old.bind db.detailOf).map timeAllocationSnapshot
  after : r.metadata.after = db.snapshot r.targetId

/-- The texts of the allocation, and the name of its user, have no space around them. -/
def Trimmed (db : Db) (a : Allocation) : Prop :=
  (∀ u, db.user a.userId = some u → trim u.username = u.username) ∧
    trim a.startDate = a.startDate ∧ trim a.endDate = a.endDate ∧
    trim a.phaseTaskName = a.phaseTaskName ∧ trim a.note = a.note

/-- A restore by the user brings the allocation back as it was. -/
def Faithful (db : Db) (actorUserId : Int) : Action → Option Allocation → Prop
  | .updated, some old => Trimmed db old
  | .deleted, some old => Trimmed db old ∧ old.createdByUserId = some actorUserId
  | _, _ => True

/-! ## The input that a snapshot gives -/

def trimInput (input : TimeAllocationInput) : TimeAllocationInput :=
  { input with
    username := trim input.username
    startDate := trim input.startDate
    endDate := trim input.endDate
    phaseTaskName := trim input.phaseTaskName
    note := trim input.note }

def TimeAllocationDetail.input (a : TimeAllocationDetail) : TimeAllocationInput :=
  ⟨a.username, a.startDate, a.endDate, a.dailyHours, a.phaseTaskName, a.note⟩

section Inputs

theorem snapshotFields_snapshot (a : TimeAllocationDetail) :
    timeAllocationSnapshotFields (timeAllocationSnapshot a) = .ok a.input := rfl

theorem validateOptionalText_trim {text fieldName value : String} {maxChars : Nat}
    (h : validateOptionalText text fieldName maxChars = .ok value) : value = trim text := by
  obtain ⟨_, _, h⟩ := bind_eq_ok.mp h
  exact (Except.ok.inj h).symm

theorem validateOptionalDate_trim {text fieldName value : String}
    (h : validateOptionalDate text fieldName = .ok value) : value = trim text := by
  unfold validateOptionalDate at h
  split at h
  · rename_i hempty
    rw [hempty]
    exact (Except.ok.inj h).symm
  · split at h
    · obtain ⟨_, _, h⟩ := bind_eq_ok.mp h
      exact (Except.ok.inj h).symm
    · cases h

/-- What the checks let through is the input without the space around its texts. -/
theorem validateTimeAllocationInput_trim {input value : TimeAllocationInput}
    (h : validateTimeAllocationInput input = .ok value) : value = trimInput input := by
  obtain ⟨username, husername, h⟩ := bind_eq_ok.mp h
  obtain ⟨startDate, hstart, h⟩ := bind_eq_ok.mp h
  obtain ⟨endDate, hend, h⟩ := bind_eq_ok.mp h
  obtain ⟨_, _, h⟩ := bind_eq_ok.mp h
  obtain ⟨_, _, h⟩ := bind_eq_ok.mp h
  obtain ⟨_, _, h⟩ := bind_eq_ok.mp h
  obtain ⟨_, _, h⟩ := bind_eq_ok.mp h
  obtain ⟨phaseTaskName, hphase, h⟩ := bind_eq_ok.mp h
  obtain ⟨note, hnote, h⟩ := bind_eq_ok.mp h
  obtain rfl := Except.ok.inj h
  rw [validateUsernameRef_trim husername, validateOptionalDate_trim hstart,
    validateOptionalDate_trim hend, validateOptionalText_trim hphase, validateOptionalText_trim hnote]
  rfl

theorem restoredInput_snapshot {a : TimeAllocationDetail} {input : TimeAllocationInput}
    (h : restoredInput (some (timeAllocationSnapshot a)) = .ok input) : input = trimInput a.input := by
  obtain ⟨_, hsome, h⟩ := bind_eq_ok.mp h
  obtain rfl := Except.ok.inj hsome
  obtain ⟨_, hfields, h⟩ := bind_eq_ok.mp h
  rw [snapshotFields_snapshot] at hfields
  obtain rfl := Except.ok.inj hfields
  exact validateTimeAllocationInput_trim h

end Inputs

/-! ## A restore with nothing beside it -/

section Solitary

variable {db : Db}

/-- What the statements of a call do if nothing comes between them. -/
abbrev Solitary {α : Type} (Q : α → Db → Prop) (p : Task α) (db : Db) : Prop :=
  Alone perform (fun _ => True) (fun _ _ => True) Q p db

theorem query_alone (s : Statement) :
    Solitary (fun a db' => ∃ now, execute now db s = (db', .ok a)) (query s) db := by
  refine alone_make fun _ _ => ⟨trivial, fun m => ⟨trivial, ?_⟩⟩
  intro a ha
  rcases perform_cases m s db with ⟨e, heq⟩ | heq
  · rw [heq] at ha
    cases ha
  · rw [heq] at ha ⊢
    exact ⟨m.now, Prod.ext rfl ha⟩

theorem getTimeAllocation_alone (id : Int) :
    Solitary (fun _ db' => db = db') (getTimeAllocation id) db := by
  refine alone_bind (Q := fun _ db' => db = db') (alone_rejectIf fun _ => rfl) ?_
  rintro _ _ rfl
  refine alone_bind (query_alone (.allocation id)) ?_
  rintro row db' ⟨now, hrow⟩
  cases hrow
  exact alone_okOr fun _ _ => rfl

/-- The user that a name is resolved to. -/
theorem resolveActiveUserId_alone (username : String) :
    Solitary (fun userId db' => db = db' ∧ db.activeUser (trim username) = some userId)
      (resolveActiveUserId username) db := by
  refine alone_bind (Q := fun value db' => value = trim username ∧ db = db')
    (alone_check fun value hvalue => ⟨validateUsernameRef_trim hvalue, rfl⟩) ?_
  rintro _ _ ⟨rfl, rfl⟩
  refine alone_bind (query_alone (.activeUser _)) ?_
  rintro found db' ⟨now, hfound⟩
  cases hfound
  exact alone_okOr fun userId huser => ⟨rfl, huser⟩

theorem record_alone (a : NewActivity) :
    Solitary (fun _ db' => db'.allocations = db.allocations) (insertTimeAllocationActivity a) db := by
  refine alone_mono (query_alone (.record a)) ?_
  rintro _ db' ⟨now, heq⟩
  rcases record_cases db a with ⟨e, hcase⟩ | hcase
  · rw [show execute now db (.record a) = _ from hcase] at heq
    cases heq
  · rw [show execute now db (.record a) = _ from hcase] at heq
    cases heq
    rfl

theorem restoreCreated_alone (actorUserId : Int) (record : TimeAllocationChangeRecordMeta) :
    Solitary (fun _ db' => db'.allocations = (db.delete record.allocationId).allocations)
      (restoreCreated actorUserId record) db := by
  refine alone_bind (getTimeAllocation_alone _) ?_
  rintro before _ rfl
  refine alone_bind (query_alone (.delete record.allocationId)) ?_
  rintro _ _ ⟨now, heq⟩
  cases heq
  refine alone_bind (record_alone _) ?_
  intro _ _ hsame
  exact alone_done hsame

theorem restoreUpdated_alone (actorUserId : Int) (record : TimeAllocationChangeRecordMeta) :
    Solitary (fun _ db' => ∃ now userId input, restoredInput record.before = .ok input ∧
        db.activeUser (trim input.username) = some userId ∧
        db'.allocations = (updated db now record.allocationId userId input).allocations)
      (restoreUpdated actorUserId record) db := by
  refine alone_bind (getTimeAllocation_alone _) ?_
  rintro current _ rfl
  refine alone_bind (alone_check (Q := fun input db' => restoredInput record.before = .ok input ∧
    db = db') fun _ hinput => ⟨hinput, rfl⟩) ?_
  rintro input _ ⟨hinput, rfl⟩
  refine alone_bind (resolveActiveUserId_alone _) ?_
  rintro userId _ ⟨rfl, huser⟩
  refine alone_bind (query_alone (.update record.allocationId userId input)) ?_
  rintro _ db' ⟨now, heq⟩
  have hwritten : db'.allocations = (updated db now record.allocationId userId input).allocations := by
    rcases update_cases db now record.allocationId userId input with ⟨e, hcase⟩ | ⟨-, hcase⟩
    · rw [show execute now db (.update record.allocationId userId input) = _ from hcase] at heq
      cases heq
    · rw [show execute now db (.update record.allocationId userId input) = _ from hcase] at heq
      cases heq
      rfl
  refine alone_bind (getTimeAllocation_alone _) ?_
  rintro after _ rfl
  refine alone_bind (record_alone _) ?_
  intro _ _ hsame
  exact alone_done ⟨now, userId, input, hinput, huser, hsame.trans hwritten⟩

theorem restoreDeleted_alone (actorUserId : Int) (record : TimeAllocationChangeRecordMeta) :
    Solitary (fun _ db' => ∃ now userId input, restoredInput record.before = .ok input ∧
        db.activeUser (trim input.username) = some userId ∧
        db'.allocations =
          db.allocations ++ [db.newRow now record.projectId userId input actorUserId])
      (restoreDeleted actorUserId record) db := by
  refine alone_bind (alone_check (Q := fun input db' => restoredInput record.before = .ok input ∧
    db = db') fun _ hinput => ⟨hinput, rfl⟩) ?_
  rintro input _ ⟨hinput, rfl⟩
  refine alone_bind (resolveActiveUserId_alone _) ?_
  rintro userId _ ⟨rfl, huser⟩
  refine alone_bind (query_alone (.insert record.projectId userId input actorUserId)) ?_
  rintro id db' ⟨now, heq⟩
  have hwritten : db'.allocations =
      db.allocations ++ [db.newRow now record.projectId userId input actorUserId] := by
    rcases insert_cases db now record.projectId userId input actorUserId with
      ⟨e, hcase⟩ | ⟨-, hcase⟩
    · rw [show execute now db (.insert record.projectId userId input actorUserId) = _ from hcase]
        at heq
      cases heq
    · rw [show execute now db (.insert record.projectId userId input actorUserId) = _ from hcase]
        at heq
      cases heq
      rfl
  refine alone_bind (getTimeAllocation_alone _) ?_
  rintro after _ rfl
  refine alone_bind (record_alone _) ?_
  intro _ _ hsame
  exact alone_done ⟨now, userId, input, hinput, huser, hsame.trans hwritten⟩

end Solitary

/-! ## The row that comes back -/

section Rows

variable {db : Db} {old : Allocation} {detail : TimeAllocationDetail}

theorem detailOf_eq (h : db.detailOf old = some detail) :
    ∃ u, db.user old.userId = some u ∧ detail.input =
      ⟨u.username, old.startDate, old.endDate, old.dailyHours, old.phaseTaskName, old.note⟩ := by
  obtain ⟨p, -, hmap⟩ := Option.bind_eq_some_iff.mp h
  obtain ⟨u, hu, rfl⟩ := Option.map_eq_some_iff.mp hmap
  exact ⟨u, hu, rfl⟩

theorem user_id {id : Int} {u : UserRow} (h : db.user id = some u) : u.id = id := by
  have hid := List.find?_some h
  exact beq_iff_eq.mp hid

theorem activeUser_eq {username : String} {userId : Int} (h : db.activeUser username = some userId) :
    ∃ u ∈ db.users, u.username = username ∧ u.id = userId := by
  obtain ⟨u, hu, rfl⟩ := Option.map_eq_some_iff.mp h
  have htest := List.find?_some hu
  rw [Bool.and_eq_true, Bool.and_eq_true] at htest
  exact ⟨u, List.mem_of_find?_eq_some hu, beq_iff_eq.mp htest.1.1, rfl⟩

/-- The user and the input that a restore writes are those of the row that was there. -/
def WritesBack (old : Allocation) (userId : Int) (input : TimeAllocationInput) : Prop :=
  userId = old.userId ∧ input.startDate = old.startDate ∧ input.endDate = old.endDate ∧
    input.dailyHours = old.dailyHours ∧ input.phaseTaskName = old.phaseTaskName ∧
    input.note = old.note

/-- A name that is found leads back to the user if and only if it has no space around it. -/
theorem resolved_iff (hkeyed : Keyed db) {u : UserRow} {id userId : Int} (hu : db.user id = some u)
    (huser : db.activeUser (trim (trim u.username)) = some userId) :
    userId = id ↔ trim u.username = u.username := by
  obtain ⟨v, hv, hname, rfl⟩ := activeUser_eq huser
  rw [trim_trim] at hname
  have hmem := List.mem_of_find?_eq_some hu
  have hid := user_id hu
  constructor
  · intro hsame
    have heq : v = u := eq_of_key hkeyed.users hv hmem (hsame.trans hid.symm)
    rw [← hname, heq]
  · intro htrim
    have heq : v = u := eq_of_key hkeyed.usernames hv hmem (hname.trans htrim)
    rw [heq, hid]

theorem writesBack_iff (hkeyed : Keyed db) (hdetail : db.detailOf old = some detail)
    {input : TimeAllocationInput} {userId : Int} (hinput : input = trimInput detail.input)
    (huser : db.activeUser (trim input.username) = some userId) :
    WritesBack old userId input ↔ Trimmed db old := by
  obtain ⟨u, hu, hfields⟩ := detailOf_eq hdetail
  rw [hfields] at hinput
  rw [hinput] at huser ⊢
  have hresolved := resolved_iff hkeyed hu huser
  constructor
  · rintro ⟨hsame, hstart, hend, -, hphase, hnote⟩
    refine ⟨?_, hstart, hend, hphase, hnote⟩
    intro v hv
    rw [hu] at hv
    obtain rfl := Option.some.inj hv
    exact hresolved.mp hsame
  · rintro ⟨hname, hstart, hend, hphase, hnote⟩
    exact ⟨hresolved.mpr (hname u hu), hstart, hend, rfl, hphase, hnote⟩

theorem updatedRow_content {new : Allocation} (now : Int) {userId : Int}
    {input : TimeAllocationInput} (hproject : new.projectId = old.projectId)
    (hcreator : new.createdByUserId = old.createdByUserId) :
    (Db.updatedRow now userId input new).content = old.content ↔ WritesBack old userId input := by
  unfold Allocation.content Db.updatedRow WritesBack
  rw [Content.mk.injEq, hproject, hcreator]
  tauto

theorem newRow_content {now projectId userId createdBy : Int} {input : TimeAllocationInput}
    (hproject : old.projectId = projectId) :
    (db.newRow now projectId userId input createdBy).content = old.content ↔
      WritesBack old userId input ∧ old.createdByUserId = some createdBy := by
  unfold Allocation.content Db.newRow WritesBack
  rw [Content.mk.injEq, hproject]
  constructor
  · rintro ⟨-, h1, h2, h3, h4, h5, h6, h7⟩
    exact ⟨⟨h1, h2, h3, h4, h5, h6⟩, h7.symm⟩
  · rintro ⟨⟨h1, h2, h3, h4, h5, h6⟩, h7⟩
    exact ⟨rfl, h1, h2, h3, h4, h5, h6, h7.symm⟩

/-- One row more on both sides. -/
theorem sameContents_append {l : List Allocation} {a b : Allocation} :
    SameContents (l ++ [a]) (l ++ [b]) ↔ a.content = b.content := by
  unfold SameContents
  rw [List.map_append, List.map_append, List.perm_append_left_iff]
  exact List.singleton_perm_singleton

theorem updated_contents (hkeyed : Keyed db) (now userId : Int) (input : TimeAllocationInput)
    {id : Int} {new : Allocation} (hrow : db.row id = some new) :
    SameContents (updated db now id userId input).allocations
      (db.allocations.filter (fun a => !(a.id == id)) ++ [Db.updatedRow now userId input new]) := by
  have hone : db.allocations.filter (·.id == id) = [new] := by
    rw [← row_id hrow]
    exact filter_of_key (k := Allocation.id) hkeyed.ids (List.mem_of_find?_eq_some hrow)
  have hperm := updateWhere_perm (·.id == id) (Db.updatedRow now userId input) db.allocations
  rw [hone] at hperm
  exact hperm.map _

theorem before_of_none {id : Int} (hrow : db.row id = none) :
    before db.allocations id (some old) = db.allocations ++ [old] := by
  unfold before
  congr 1
  rw [List.filter_eq_self]
  intro a ha
  have hnot := List.find?_eq_none.mp hrow a ha
  rw [Bool.not_eq_true] at hnot
  rw [hnot]
  rfl

end Rows

/-! ## Rolling back -/

section Inverse

variable {db : Db} {r : ActivityRow} {old : Option Allocation}

/-- The record as the handler reads it. -/
theorem changeRecordMeta_eq (h : db.activities.find? (·.id == r.id) = some r)
    {record : TimeAllocationChangeRecordMeta} (hrecord : db.changeRecordMeta r.id = some record) :
    record.recordId = r.id ∧ record.projectId = r.projectId ∧ record.allocationId = r.targetId ∧
      record.action = r.action ∧ record.before = r.metadata.before := by
  obtain ⟨a, ha, hmap⟩ := Option.bind_eq_some_iff.mp hrecord
  rw [h] at ha
  obtain rfl := Option.some.inj ha
  obtain ⟨p, -, rfl⟩ := Option.map_eq_some_iff.mp hmap
  exact ⟨rfl, rfl, rfl, rfl, rfl⟩

theorem restore_alone (hkeyed : Keyed db) (h : Records db r old) (actorUserId : Int) :
    Solitary (fun _ db' => RolledBack db db' r.targetId old ↔ Faithful db actorUserId r.action old)
      (start (.restore actorUserId r.id)) db := by
  refine alone_bind (query_alone (.changeRecordMeta r.id)) ?_
  rintro found db' ⟨now, hfound⟩
  obtain rfl : db = db' := congrArg Prod.fst hfound
  have hmeta : db.changeRecordMeta r.id = found := Except.ok.inj (congrArg Prod.snd hfound)
  refine alone_bind (Q := fun record db' => db.changeRecordMeta r.id = some record ∧ db = db')
    (alone_okOr fun record hrecord => ⟨hmeta.trans hrecord, rfl⟩) ?_
  rintro record _ ⟨hrecord, rfl⟩
  obtain ⟨-, hproject, hid, haction, hbefore⟩ := changeRecordMeta_eq h.found hrecord
  refine alone_bind (Q := fun _ db' => db = db') (alone_check fun _ _ => rfl) ?_
  rintro _ _ rfl
  refine alone_bind (query_alone (.restoredCount record.recordId)) ?_
  rintro alreadyRestored db' ⟨now', hcount⟩
  obtain rfl : db = db' := congrArg Prod.fst hcount
  refine alone_bind (Q := fun _ db' => db = db') (alone_rejectIf fun _ => rfl) ?_
  rintro _ _ rfl
  have hchanged := h.changed
  have hsnapshot : ∀ a, old = some a → ∃ detail, db.detailOf a = some detail ∧
      record.before = some (timeAllocationSnapshot detail) := by
    intro a ha
    obtain ⟨detail, hdetail⟩ := Option.isSome_iff_exists.mp (h.linked a ha)
    refine ⟨detail, hdetail, ?_⟩
    rw [hbefore, h.before, ha, Option.bind_some, hdetail]
    rfl
  rw [haction]
  cases hkind : r.action with
  | restored =>
    rw [hkind] at hchanged
    exact hchanged.elim
  | created =>
    rw [hkind] at hchanged
    cases old with
    | some a => cases hrow : db.row r.targetId <;> rw [hrow] at hchanged <;> exact hchanged.elim
    | none =>
      refine alone_mono (restoreCreated_alone actorUserId record) ?_
      intro _ db' hrows
      refine ⟨fun _ => trivial, fun _ => ?_⟩
      unfold RolledBack
      rw [hrows, hid]
      unfold before
      rw [Option.toList_none, List.append_nil]
      exact .refl _
  | updated =>
    rw [hkind] at hchanged
    cases old with
    | none => cases hrow : db.row r.targetId <;> rw [hrow] at hchanged <;> exact hchanged.elim
    | some a =>
      cases hrow : db.row r.targetId with
      | none =>
        rw [hrow] at hchanged
        exact hchanged.elim
      | some new =>
        rw [hrow] at hchanged
        obtain ⟨hproject, hproject', hcreator⟩ := hchanged
        obtain ⟨detail, hdetail, hold⟩ := hsnapshot a rfl
        refine alone_mono (restoreUpdated_alone actorUserId record) ?_
        rintro _ db' ⟨now, userId, input, hinput, huser, hrows⟩
        rw [hold] at hinput
        change SameContents db'.allocations _ ↔ Trimmed db a
        rw [hrows, hid]
        have hwritten := updated_contents hkeyed now userId input hrow
        rw [← writesBack_iff hkeyed hdetail (restoredInput_snapshot hinput) huser,
          ← updatedRow_content now (hproject'.trans hproject.symm) hcreator,
          ← sameContents_append]
        exact ⟨fun hsame => hwritten.symm.trans hsame, fun hsame => hwritten.trans hsame⟩
  | deleted =>
    rw [hkind] at hchanged
    cases old with
    | none => cases hrow : db.row r.targetId <;> rw [hrow] at hchanged <;> exact hchanged.elim
    | some a =>
      cases hrow : db.row r.targetId with
      | some new =>
        rw [hrow] at hchanged
        exact hchanged.elim
      | none =>
        rw [hrow] at hchanged
        obtain ⟨detail, hdetail, hold⟩ := hsnapshot a rfl
        refine alone_mono (restoreDeleted_alone actorUserId record) ?_
        rintro _ db' ⟨now, userId, input, hinput, huser, hrows⟩
        rw [hold] at hinput
        change SameContents db'.allocations _ ↔ Trimmed db a ∧ _
        rw [hrows, before_of_none hrow, sameContents_append, newRow_content,
          writesBack_iff hkeyed hdetail (restoredInput_snapshot hinput) huser]
        rw [hproject]
        exact hchanged

end Inverse

/-- A restore that returned has changed the table for its record. -/
theorem Once.returned {recordId : Int} {tr : List (Entry Server (Turn Request Moment) Unit)}
    {qs : List Progress} {s : Server} (h : Once recordId tr qs s)
    (hphases : InPhases restoring s.calls qs) {i : Nat} {actorUserId : Int}
    {result : Option TimeAllocationDetail}
    (hbegun : (begun tr)[i]? = some (.restore actorUserId recordId))
    (hdone : s.calls[i]? = some (.done result)) :
    ∃ q, qs[i]? = some q ∧ q.hasChanged recordId = true := by
  obtain ⟨q, hq, habout⟩ := h.about i actorUserId hbegun
  refine ⟨q, hq, ?_⟩
  rcases hphases.walks i _ q hdone hq with rfl | ⟨id, rfl⟩
  · cases habout
  · exact habout

/-- An allocation that Alice made for Bob. -/
def bobsWeek : Allocation :=
  ⟨1, 1, 2, "2026-01-05", "2026-01-09", 4, "", "", some 1, 0, 0⟩

/-- The record of its deletion. -/
def weekDeleted : ActivityRow where
  id := 1
  projectId := 1
  actorUserId := 1
  action := .deleted
  targetId := 1
  summary := "删除成员 bob 的时间排期"
  metadata := timeAllocationChangeMetadata (teamProject.detailOf bobsWeek) none

def weekGone : Db :=
  { teamProject with nextAllocation := 2, activities := [weekDeleted], nextActivity := 2 }

theorem weekGone_keyed : Keyed weekGone := ⟨by decide, by decide, by decide⟩

theorem weekGone_records : Records weekGone weekDeleted (some bobsWeek) := by
  refine ⟨by decide +kernel, rfl, ?_, by decide +kernel, by decide +kernel⟩
  intro a ha
  obtain rfl := Option.some.inj ha
  rfl

/-- A restore that has nothing beside it. -/
def restoredBy (actorUserId : Int) : List (Turn Request Moment) :=
  .begin (.restore actorUserId 1) :: List.replicate 6 (.resume 0 calm)

def isOneAtATime (qs : List Progress) (s : Server) : Turn Request Moment → Bool
  | .begin _ => true
  | .resume i _ =>
    match qs[i]? with
    | some (.fresh recordId) =>
      (List.range qs.length).all fun j =>
        j == i || (qs[j]? != some (.changed recordId) &&
          (qs[j]? != some (.passed recordId) || (nextStatement s j).isNone))
    | _ => true

theorem oneAtATime_of_test (qs : List Progress) (s : Server) (e : Turn Request Moment)
    (h : isOneAtATime qs s e = true) : OneAtATime qs s e := by
  cases e with
  | begin request => trivial
  | resume i m =>
    intro recordId _ hfresh j q hji hq
    unfold isOneAtATime at h
    dsimp only at h
    rw [hfresh] at h
    have hj := List.all_eq_true.mp h j (List.mem_range.mpr (List.getElem?_eq_some_iff.mp hq).1)
    rw [Bool.or_eq_true, beq_iff_eq, Bool.and_eq_true, Bool.or_eq_true, bne_iff_ne, bne_iff_ne,
      hq] at hj
    rcases hj with hsame | ⟨hchanged, hpassed⟩
    · exact absurd hsame hji
    refine ⟨fun hq' => hchanged (congrArg some hq'), ?_⟩
    rintro rfl
    rcases hpassed with hne | hended
    · exact absurd rfl hne
    · exact Option.isNone_iff_eq_none.mp hended

/-- Two restores have both checked the record when the first of them inserts the row. -/
def restoredBeside : List (Turn Request Moment) :=
  [.begin (.restore 1 1), .begin (.restore 2 1), .resume 0 calm, .resume 0 calm, .resume 1 calm,
    .resume 1 calm] ++ List.replicate 4 (.resume 0 calm) ++ List.replicate 4 (.resume 1 calm)

end TimeAllocations
end Projects
end Yuance
