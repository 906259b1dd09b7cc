import Yuance.Lib.Json
import Yuance.Projects.Completion

/-!
# Yuance.Projects.Analysis

The figures of `personal_project_analysis` in `api/src/domains/projects.rs`, which are counted in the
activity log. The averages, the time of joining and the number of comments are left out.

* `ActivityKind.action`, `ActivityKind.metadata?`: the texts that an activity is stored as.
* `ActivityKind.isCompletion`: the condition that the queries share.
* `isCompletion_statusUpdated` and the others: the condition, by what the activity records.
-/

namespace Yuance
namespace Projects

open Lib Platform

/-! ## The texts of an activity -/

def Priority.name : Priority → String
  | p0 => "P0"
  | p1 => "P1"
  | p2 => "P2"
  | p3 => "P3"

def WorkItemType.name : WorkItemType → String
  | requirement => "requirement"
  | task => "task"
  | bug => "bug"

/-- The action where the cycle of a work item changed. -/
def cycleAction : Option Int → Option Int → String
  | none, some _ => "work_item.cycle.linked"
  | some _, none => "work_item.cycle.unlinked"
  | _, _ => "work_item.cycle.updated"

def ActivityKind.action : ActivityKind → String
  | projectCreated => "project.created"
  | projectUpdated .. => "project.updated"
  | memberAdded _ => "project.member.added"
  | memberRemoved => "project.member.removed"
  | memberRoleUpdated .. => "project.member.role.updated"
  | itemCreated => "work_item.created"
  | statusUpdated .. => "work_item.status.updated"
  | handoff .. => "work_item.handoff"
  | assigned .. => "work_item.handoff"
  | priorityUpdated .. => "work_item.priority.updated"
  | cycleChanged previousCycleId cycleId => cycleAction previousCycleId cycleId
  | itemUpdated .. => "work_item.updated"
  | itemArchived => "work_item.archived"
  | itemRestored => "work_item.restored"

def ActivityKind.targetType : ActivityKind → String
  | projectCreated => "project"
  | projectUpdated .. => "project"
  | memberAdded _ => "user"
  | memberRemoved => "user"
  | memberRoleUpdated .. => "user"
  | _ => "work_item"

/-- The metadata of a status, `{"status":"..","previous_status":".."` and what follows. -/
def statusMetadata (status previousStatus : WorkItemStatus) (rest : String) : String :=
  "\x7b\"status\":\"" ++ status.name ++ "\",\"previous_status\":\"" ++ previousStatus.name ++ "\""
    ++ rest ++ "\x7d"

/-- One more text of the metadata, written between its quotes as it is. -/
def metadataField (field value : String) : String := ",\"" ++ field ++ "\":\"" ++ value ++ "\""

/-- The metadata of the activities that record a status. -/
def ActivityKind.metadata? : ActivityKind → Option String
  | statusUpdated status previousStatus => some (statusMetadata status previousStatus "")
  | handoff status previousStatus assigneeUsername =>
    some (statusMetadata status previousStatus (metadataField "assignee_username" assigneeUsername))
  | assigned status previousStatus assigneeUsername previousAssigneeUsername =>
    some (statusMetadata status previousStatus
      (metadataField "assignee_username" assigneeUsername
        ++ metadataField "previous_assignee_username" previousAssigneeUsername))
  | itemUpdated status previousStatus priority assigneeUsername dueDate parentItemKey =>
    some (statusMetadata status previousStatus
      (metadataField "priority" priority.name
        ++ metadataField "assignee_username" assigneeUsername
        ++ metadataField "due_date" dueDate
        ++ metadataField "parent_item_key" parentItemKey))
  | _ => none

/-! ## The condition of the queries -/

/-- `CASE WHEN json_valid(metadata) THEN json_extract(metadata, '$.field') ELSE NULL END`. -/
def jsonExtract (metadata field : String) : Option Json :=
  match Json.parse metadata with
  | some (.obj fields) =>
    match fields.lookup field with
    | some .null => none
    | value => value
  | _ => none

/-- `value IN (..)`, nothing for `NULL`. -/
def isIn (texts : List String) (value : Option Json) : Option Bool :=
  value.map fun
    | .str text => texts.contains text
    | _ => false

def completedStatuses : List String := ["done", "resolved", "verified", "closed"]

/-- The condition of the queries on an activity, but for its project and actor. -/
def ActivityKind.isCompletion (kind : ActivityKind) : Bool :=
  kind.targetType == "work_item"
    && ["work_item.status.updated", "work_item.handoff", "work_item.updated"].contains kind.action
    && kind.metadata?.any fun metadata =>
      isIn completedStatuses (jsonExtract metadata "status") == some true
        && isIn (completedStatuses ++ ["cancelled"]) (jsonExtract metadata "previous_status")
          == some false

/-! ## What is counted -/

section Metadata

variable {s p : WorkItemStatus} {rest : String} {fields : List (String × String)}

theorem plain_status (s : WorkItemStatus) : Json.Plain s.name := by
  cases s <;> decide

theorem plain_priority (priority : Priority) : Json.Plain priority.name := by
  cases priority <;> decide

theorem isIn_completed (s : WorkItemStatus) :
    (isIn completedStatuses (some (.str s.name)) == some true) = s.isCompleted := by
  cases s <;> decide

theorem isIn_finished (s : WorkItemStatus) :
    (isIn (completedStatuses ++ ["cancelled"]) (some (.str s.name)) == some false) = s.isActive := by
  cases s <;> decide

/-- The texts of a record as the fields of an object. -/
def textFields (fields : List (String × String)) : List (String × Json) :=
  fields.map fun f => (f.1, .str f.2)

def PlainFields (fields : List (String × String)) : Prop :=
  ∀ f ∈ fields, Json.Plain f.1 ∧ Json.Plain f.2

theorem plainFields_nil : PlainFields [] := fun _ hf => nomatch hf

theorem plainFields_cons {field value : String} (hfield : Json.Plain field)
    (hvalue : Json.Plain value) (h : PlainFields fields) : PlainFields ((field, value) :: fields) :=
  List.forall_mem_cons.mpr ⟨⟨hfield, hvalue⟩, h⟩

theorem fieldsText_plain (h : PlainFields fields) :
    Json.fieldsText (textFields fields) =
      fields.flatMap (fun f => (metadataField f.1 f.2).toList) ++ ['}'] := by
  induction fields with
  | nil => rfl
  | cons f fields ih =>
    have hf := h f List.mem_cons_self
    have ih := ih fun g hg => h g (List.mem_cons_of_mem f hg)
    unfold textFields at ih ⊢
    rw [List.map_cons, Json.fieldsText, ih, Json.text, Json.stringText_plain hf.1,
      Json.stringText_plain hf.2, List.flatMap_cons]
    unfold metadataField
    simp [Json.quote]

/-- The metadata is the text of an object, where the texts in it need no escape. -/
theorem statusMetadata_eq (h : PlainFields fields)
    (hrest : rest.toList = fields.flatMap fun f => (metadataField f.1 f.2).toList) :
    statusMetadata s p rest = Json.stringify (.obj (("status", .str s.name) ::
      ("previous_status", .str p.name) :: textFields fields)) := by
  unfold Json.stringify
  rw [Json.text, Json.fieldsText, fieldsText_plain h, ← hrest, Json.text, Json.text,
    Json.stringText_plain (plain_status s), Json.stringText_plain (plain_status p),
    Json.stringText_plain (by decide), Json.stringText_plain (by decide)]
  apply String.toList_inj.mp
  unfold statusMetadata
  simp [Json.quote]

/-- What the queries find in the metadata. -/
theorem jsonExtract_status (h : PlainFields fields)
    (hkeys : ("status" :: "previous_status" :: fields.map Prod.fst).Nodup)
    (hrest : rest.toList = fields.flatMap fun f => (metadataField f.1 f.2).toList) :
    jsonExtract (statusMetadata s p rest) "status" = some (.str s.name) ∧
      jsonExtract (statusMetadata s p rest) "previous_status" = some (.str p.name) := by
  have hdistinct : Json.Distinct (.obj (("status", .str s.name) ::
      ("previous_status", .str p.name) :: textFields fields)) := by
    apply Json.Distinct.obj
    · rw [List.map_cons, List.map_cons, textFields, List.map_map]
      exact hkeys
    · intro f hf
      rcases List.mem_cons.mp hf with rfl | hf
      · exact .str _
      rcases List.mem_cons.mp hf with rfl | hf
      · exact .str _
      obtain ⟨g, _, rfl⟩ := List.mem_map.mp hf
      exact .str _
  have hparse := @Json.parse_stringify _ hdistinct "" (by simp)
  rw [String.append_empty, ← statusMetadata_eq h hrest] at hparse
  unfold jsonExtract
  rw [hparse]
  exact ⟨rfl, rfl⟩

/-- An activity that records a status is counted where this completes the item. -/
theorem isCompletion_of_metadata {kind : ActivityKind} (fields : List (String × String))
    (htarget : kind.targetType = "work_item")
    (haction : kind.action ∈ ["work_item.status.updated", "work_item.handoff", "work_item.updated"])
    (hmetadata : kind.metadata? = some (statusMetadata s p rest))
    (h : PlainFields fields)
    (hkeys : ("status" :: "previous_status" :: fields.map Prod.fst).Nodup)
    (hrest : rest.toList = fields.flatMap fun f => (metadataField f.1 f.2).toList) :
    kind.isCompletion = (p.isActive && s.isCompleted) := by
  obtain ⟨hstatus, hprevious⟩ := @jsonExtract_status s p rest fields h hkeys hrest
  unfold ActivityKind.isCompletion
  rw [htarget, hmetadata, Option.any_some, hstatus, hprevious, isIn_completed, isIn_finished,
    List.contains_iff_mem.mpr haction, Bool.and_comm p.isActive]
  rfl

theorem isCompletion_statusUpdated :
    (ActivityKind.statusUpdated s p).isCompletion = (p.isActive && s.isCompleted) :=
  isCompletion_of_metadata [] rfl (by simp [ActivityKind.action]) rfl plainFields_nil
    (by decide) rfl

theorem isCompletion_handoff {username : String} (h : Json.Plain username) :
    (ActivityKind.handoff s p username).isCompletion = (p.isActive && s.isCompleted) := by
  refine isCompletion_of_metadata [("assignee_username", username)] rfl
    (by simp [ActivityKind.action]) rfl ?_ (by simp) (by simp)
  exact plainFields_cons (by decide) h plainFields_nil

theorem isCompletion_assigned {username previousUsername : String} (h : Json.Plain username)
    (h' : Json.Plain previousUsername) :
    (ActivityKind.assigned s p username previousUsername).isCompletion =
      (p.isActive && s.isCompleted) := by
  refine isCompletion_of_metadata [("assignee_username", username),
    ("previous_assignee_username", previousUsername)] rfl (by simp [ActivityKind.action]) rfl ?_
    (by simp) (by simp)
  exact plainFields_cons (by decide) h (plainFields_cons (by decide) h' plainFields_nil)

theorem isCompletion_itemUpdated {priority : Priority} {username dueDate parentItemKey : String}
    (husername : Json.Plain username) (hdate : Json.Plain dueDate)
    (hparent : Json.Plain parentItemKey) :
    (ActivityKind.itemUpdated s p priority username dueDate parentItemKey).isCompletion =
      (p.isActive && s.isCompleted) := by
  refine isCompletion_of_metadata [("priority", priority.name),
    ("assignee_username", username), ("due_date", dueDate), ("parent_item_key", parentItemKey)] rfl
    (by simp [ActivityKind.action]) rfl ?_ (by simp) (by simp)
  refine plainFields_cons (by decide) (plain_priority priority) ?_
  refine plainFields_cons (by decide) husername ?_
  refine plainFields_cons (by decide) hdate ?_
  exact plainFields_cons (by decide) hparent plainFields_nil

/-- An activity without a status is not counted. -/
theorem isCompletion_of_none {kind : ActivityKind} (h : kind.metadata? = none) :
    kind.isCompletion = false := by
  unfold ActivityKind.isCompletion
  rw [h, Option.any_none, Bool.and_false]

/-! Names, dates and keys that passed their checks are plain. -/

theorem plain_of_all {test : Char → Bool} {value : String} (h : value.toList.all test = true)
    (htest : ∀ c, test c = true → 32 ≤ c.toNat ∧ c ≠ Json.quote ∧ c ≠ Json.backslash) :
    Json.Plain value := by
  intro c hc
  obtain ⟨h1, h2, h3⟩ := htest c (List.all_eq_true.mp h c hc)
  exact Json.escapeChar_plain h1 h2 h3

theorem between_plain {c : Char} (h : 32 ≤ c.toNat) (hq : c.toNat ≠ 34) (hb : c.toNat ≠ 92) :
    32 ≤ c.toNat ∧ c ≠ Json.quote ∧ c ≠ Json.backslash := by
  refine ⟨h, ?_, ?_⟩
  · rintro rfl
    exact hq rfl
  · rintro rfl
    exact hb rfl

theorem isAlphanum_plain {c : Char} (h : c.isAlphanum = true) :
    32 ≤ c.toNat ∧ c ≠ Json.quote ∧ c ≠ Json.backslash := by
  unfold Char.isAlphanum Char.isAlpha Char.isUpper Char.isLower Char.isDigit at h
  simp only [Bool.or_eq_true, Bool.and_eq_true, decide_eq_true_eq, ge_iff_le, UInt32.le_iff_toNat_le] at h
  have hn : c.val.toNat = c.toNat := rfl
  apply between_plain
  all_goals
    rw [hn] at h
    simp at h
    omega

theorem isUsernameChar_plain (c : Char) (h : isUsernameChar c = true) :
    32 ≤ c.toNat ∧ c ≠ Json.quote ∧ c ≠ Json.backslash := by
  unfold isUsernameChar at h
  simp only [Bool.or_eq_true, decide_eq_true_eq] at h
  rcases h with ((h | rfl) | rfl) | rfl
  · exact isAlphanum_plain h
  all_goals decide

theorem isKeyChar_plain (c : Char) (h : isKeyChar (asciiUpper c) = true) :
    32 ≤ c.toNat ∧ c ≠ Json.quote ∧ c ≠ Json.backslash := by
  unfold asciiUpper at h
  split at h
  · rename_i hlower
    simp only [Bool.and_eq_true, decide_eq_true_eq, Char.le_def, UInt32.le_iff_toNat_le] at hlower
    have hn : c.val.toNat = c.toNat := rfl
    have hends : 'a'.val.toNat = 97 ∧ 'z'.val.toNat = 122 := by decide
    apply between_plain <;> omega
  · unfold isKeyChar at h
    simp only [Bool.or_eq_true, Bool.and_eq_true, decide_eq_true_eq, Char.le_def,
      UInt32.le_iff_toNat_le] at h
    have hn : c.val.toNat = c.toNat := rfl
    have hends : 'A'.val.toNat = 65 ∧ 'Z'.val.toNat = 90 ∧ '0'.val.toNat = 48 ∧
      '9'.val.toNat = 57 := by decide
    rcases h with ((h | h) | rfl) | rfl
    · apply between_plain <;> omega
    · apply between_plain <;> omega
    · decide
    · decide

theorem plain_username {username name : String} (h : validateUsernameRef username = .ok name) :
    Json.Plain name := by
  obtain ⟨_, _, h⟩ := bind_eq_ok.mp h
  obtain ⟨_, hchars, h⟩ := bind_eq_ok.mp h
  cases h
  exact plain_of_all (Classical.not_not.mp (rejectIf_eq_ok.mp hchars)) isUsernameChar_plain

/-- The key is checked in upper case and recorded as it was given. -/
theorem plain_itemKey {itemKey key : String} (h : validateWorkItemKeyRef itemKey = .ok key) :
    Json.Plain (trim itemKey) := by
  obtain ⟨_, _, h⟩ := bind_eq_ok.mp h
  obtain ⟨_, hchars, h⟩ := bind_eq_ok.mp h
  have hall := Classical.not_not.mp (rejectIf_eq_ok.mp hchars)
  unfold toAsciiUppercase at hall
  rw [String.toList_ofList, List.all_map] at hall
  exact plain_of_all hall isKeyChar_plain

theorem plain_date {value fieldName date : String}
    (h : validateOptionalDate value fieldName = .ok date) : Json.Plain date := by
  unfold validateOptionalDate at h
  split at h
  · cases h
    decide
  split at h
  · rename_i year month day hsplit
    obtain ⟨_, hparts, h⟩ := bind_eq_ok.mp h
    cases h
    obtain ⟨_, _, hparts⟩ := bind_eq_ok.mp hparts
    obtain ⟨_, hdigits, _⟩ := bind_eq_ok.mp hparts
    obtain ⟨hyear, hmonth, hday⟩ := Classical.not_not.mp (rejectIf_eq_ok.mp hdigits)
    intro c hc
    have hplain : 32 ≤ c.toNat ∧ c ≠ Json.quote ∧ c ≠ Json.backslash := by
      rcases @mem_splitAll '-' c _ hc with rfl | ⟨piece, hpiece, hmem⟩
      · decide
      rw [hsplit] at hpiece
      have hdigit : c.isDigit = true := by
        rcases List.mem_cons.mp hpiece with rfl | hpiece
        · exact List.all_eq_true.mp hyear c hmem
        rcases List.mem_cons.mp hpiece with rfl | hpiece
        · exact List.all_eq_true.mp hmonth c hmem
        obtain rfl := List.mem_singleton.mp hpiece
        exact List.all_eq_true.mp hday c hmem
      exact isAlphanum_plain (by rw [Char.isAlphanum, hdigit, Bool.or_true])
    exact Json.escapeChar_plain hplain.1 hplain.2.1 hplain.2.2
  · cases h

end Metadata
/-! ## Dates -/

/-- Year, month and day of the day that is so many days after 1970-01-01. -/
def civilDate (days : Int) : Int × Int × Int :=
  -- years start with March, so that a leap day comes last
  let shifted := days + 719468
  let era := shifted / 146097
  let dayOfEra := shifted % 146097
  let yearOfEra :=
    (dayOfEra - dayOfEra / 1460 + dayOfEra / 36524 - dayOfEra / 146096) / 365
  let dayOfYear := dayOfEra - (365 * yearOfEra + yearOfEra / 4 - yearOfEra / 100)
  let shiftedMonth := (5 * dayOfYear + 2) / 153
  let day := dayOfYear - (153 * shiftedMonth + 2) / 5 + 1
  let month := if shiftedMonth < 10 then shiftedMonth + 3 else shiftedMonth - 9
  (yearOfEra + era * 400 + (if month ≤ 2 then 1 else 0), month, day)

def padded (width : Nat) (n : Int) : String :=
  String.ofList ((Nat.toDigits 10 n.toNat).leftpad width '0')

/-- `strftime('%Y-%m', time)`, of a time in seconds since 1970. -/
def monthOf (time : Int) : String :=
  let (year, month, _) := civilDate (time / 86400)
  padded 4 year ++ "-" ++ padded 2 month

/-- `date(time)`. -/
def dateOf (time : Int) : String :=
  let (_, _, day) := civilDate (time / 86400)
  monthOf time ++ "-" ++ padded 2 day

example : dateOf 951868799 = "2000-02-29" ∧ monthOf 951868800 = "2000-03" := by decide +kernel

/-! ## The figures -/

structure WorkItemAssignmentCounts where
  requirements : Nat
  tasks : Nat
  bugs : Nat
  deriving DecidableEq, Repr

structure PersonalCompletion where
  itemKey : String
  itemType : String
  title : String
  completedAt : Int
  deriving DecidableEq, Repr

structure PersonalProjectAnalysis where
  completedTotal : Nat
  completedRequirements : Nat
  completedTasks : Nat
  completedBugs : Nat
  completedLast30Days : Nat
  pending : WorkItemAssignmentCounts
  dailyPeak : Nat
  dailyPeakDate : String
  monthlyPeak : Nat
  monthlyPeakMonth : String
  activeDays : Nat
  handoffCount : Nat
  recentCompletions : List PersonalCompletion
  deriving DecidableEq, Repr

namespace Db

variable (db : Db)

/-- The activities of a user in a project. -/
def activitiesOf (projectId userId : Int) : List ActivityRow :=
  db.activities.filter fun a => a.projectId == projectId && a.actorUserId == userId

/-- The activities that the queries count. -/
def completions (projectId userId : Int) : List ActivityRow :=
  (db.activitiesOf projectId userId).filter (·.kind.isCompletion)

/-- `LEFT JOIN work_items wi ON wi.item_key = pa.target_id`. -/
def withItems (activities : List ActivityRow) : List (ActivityRow × Option WorkItem) :=
  activities.flatMap fun a =>
    match db.workItems.filter (·.itemKey == a.targetId) with
    | [] => [(a, none)]
    | items => items.map fun wi => (a, some wi)

/-- The counted activities on items of a type. -/
def completedOf (itemType : WorkItemType) (joined : List (ActivityRow × Option WorkItem)) : Nat :=
  (joined.filter fun row => row.2.map (·.itemType) == some itemType).length

/-- The unfinished items of a type that a user is to do. -/
def pendingOf (projectId userId : Int) (itemType : WorkItemType) : Nat :=
  (db.workItems.filter fun wi => wi.projectId == projectId && wi.assigneeUserId == some userId
    && wi.status.isActive && wi.deletedAt.isNone && wi.itemType == itemType).length

/-- `ORDER BY created_at DESC, id DESC LIMIT 8`, of rows that stand in the order of their ids. -/
def recentCompletions (joined : List (ActivityRow × Option WorkItem)) : List PersonalCompletion :=
  let recent := orderBy (fun x y => decide (y.1.createdAt ≤ x.1.createdAt)) joined.reverse
  (recent.take 8).map fun (a, wi) =>
    { itemKey := a.targetId
      itemType := (wi.map (·.itemType.name)).getD ""
      title := (wi.map (·.title)).getD a.targetId
      completedAt := a.createdAt }

end Db

open Db in
def personalProjectAnalysis (db : Db) (now projectId userId : Int) : PersonalProjectAnalysis :=
  let joined := db.withItems (db.completions projectId userId)
  let times := (db.completions projectId userId).map (·.createdAt)
  let dailyPeak := topGroup (times.map dateOf)
  let monthlyPeak := topGroup (times.map monthOf)
  { completedTotal := joined.length
    completedRequirements := completedOf .requirement joined
    completedTasks := completedOf .task joined
    completedBugs := completedOf .bug joined
    completedLast30Days := (joined.filter fun row => now - 30 * 86400 ≤ row.1.createdAt).length
    pending :=
      { requirements := db.pendingOf projectId userId .requirement
        tasks := db.pendingOf projectId userId .task
        bugs := db.pendingOf projectId userId .bug }
    dailyPeak := (dailyPeak.map (·.2)).getD 0
    dailyPeakDate := (dailyPeak.map (·.1)).getD ""
    monthlyPeak := (monthlyPeak.map (·.2)).getD 0
    monthlyPeakMonth := (monthlyPeak.map (·.1)).getD ""
    activeDays := ((db.activitiesOf projectId userId).map fun a => dateOf a.createdAt).dedup.length
    handoffCount := ((db.activitiesOf projectId userId).filter fun a =>
      a.kind.action == "work_item.handoff").length
    recentCompletions := recentCompletions joined }

end Projects
end Yuance
