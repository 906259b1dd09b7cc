import Yuance.Projects.Listing
import Yuance.Projects.Statements

/-!
# Yuance.Projects.ItemLists

The lists of work items, their counts and their statistics, for administrators and for members. Each
of the queries has its own copy of the condition in the source; the copies agree.

* `WorkItemFilter.keeps`: the condition.
* `sortKey`: the four orders, as keys of one linear order.
* `work_item_lists_agree`: pages, counts, statistics and the lists of members agree.
-/

namespace Yuance
namespace Projects
namespace ItemLists

open Lib Platform Files

/-- The tables, with the times of the work items by their ids. -/
structure TimedDb extends Db where
  createdAt : Int → Int
  updatedAt : Int → Int

structure WorkItemListFilter where
  itemType : Option String
  keyword : String
  status : String
  priority : String
  projectKey : String
  assigneeUsername : String
  cycleId : String
  sortBy : String

inductive StatusFilter where
  | any
  | pending
  | only (status : WorkItemStatus)
  deriving DecidableEq, Repr

inductive WorkItemSort where
  | updatedDesc
  | createdDesc
  | priorityDesc
  | dueDateAsc
  deriving DecidableEq, Repr

structure NormalizedWorkItemFilter where
  itemType : Option WorkItemType
  keyword : String
  keywordLike : String
  status : StatusFilter
  priority : Option Priority
  projectKey : String
  assigneeUsername : String
  cycleId : Option Int
  sortBy : WorkItemSort

/-- `text.parse::<i64>()`. -/
def parseSigned (text : List Char) : Option Int :=
  let digits := fun ds : List Char =>
    if ds ≠ [] ∧ ds.all Char.isDigit then some (digitsValue ds) else none
  match text with
  | '-' :: ds => (digits ds).bind fun n => if n ≤ 2 ^ 63 then some (-(n : Int)) else none
  | '+' :: ds => (digits ds).bind fun n => if n < 2 ^ 63 then some (n : Int) else none
  | ds => (digits ds).bind fun n => if n < 2 ^ 63 then some (n : Int) else none

/-- A check that only a text with something in it has to pass. -/
def ifGiven {α : Type} (absent : α) (check : String → Except AppError α) (text : String) :
    Except AppError α :=
  if trim text = "" then .ok absent else check (trim text)

def validateCycleId (value : String) : Except AppError (Option Int) := do
  let cycleId ← okOr (parseSigned value.toList) (.badRequest "周期不能为空且必须是数字")
  rejectIf (cycleId ≤ 0) (.badRequest "周期不能为空且必须是数字")
  pure (some cycleId)

def validateWorkItemSort : String → Except AppError WorkItemSort :=
  oneOf [("", .updatedDesc), ("updated_desc", .updatedDesc), ("created_desc", .createdDesc),
    ("priority_desc", .priorityDesc), ("due_date_asc", .dueDateAsc)] "工作项排序方式不合法"

def normalizeStatus (value : String) : Except AppError StatusFilter :=
  if value = "pending" then .ok .pending
  else do
    let status ← validateWorkItemStatus value
    pure (.only status)

def normalizeWorkItemFilter (filter : WorkItemListFilter) :
    Except AppError NormalizedWorkItemFilter := do
  let itemType ← ifGiven none (fun value => do
    let itemType ← validateWorkItemType value
    pure (some itemType)) (filter.itemType.getD "")
  let keyword ← validateOptionalText filter.keyword "关键词" 120
  let status ← ifGiven .any normalizeStatus filter.status
  let priority ← ifGiven none (fun value => do
    let priority ← validatePriority value
    pure (some priority)) filter.priority
  let projectKey ← ifGiven "" validateProjectKey filter.projectKey
  let assigneeUsername ← ifGiven "" validateUsernameRef filter.assigneeUsername
  let cycleId ← ifGiven none validateCycleId filter.cycleId
  let sortBy ← validateWorkItemSort filter.sortBy
  pure
    { itemType
      keyword
      keywordLike := if keyword = "" then "" else "%" ++ keyword ++ "%"
      status
      priority
      projectKey
      assigneeUsername
      cycleId
      sortBy }

/-! ## The condition and the orders -/

/-- `?3 = '' OR (?3 = 'pending' AND wi.status NOT IN (..)) OR wi.status = ?3`. -/
def StatusFilter.keeps (status : WorkItemStatus) : StatusFilter → Bool
  | any => true
  | pending => status.isActive
  | only s => status == s

namespace NormalizedWorkItemFilter

variable (filter : NormalizedWorkItemFilter)

def hasKeyword (row : ItemRow) : Bool :=
  filter.keywordLike == "" ||
    [row.item.itemKey, row.item.title, row.item.description, row.project.projectKey,
      row.project.name].any fun text => likePattern filter.keywordLike.toList text.toList

/-- The condition of every query. -/
def keeps (row : ItemRow) : Bool :=
  filter.itemType.all (row.item.itemType == ·)
    && filter.hasKeyword row
    && filter.status.keeps row.item.status
    && filter.priority.all (row.item.priority == ·)
    && (filter.projectKey == "" || row.project.projectKey == filter.projectKey)
    && (filter.assigneeUsername == "" || row.assignee.any (·.username == filter.assigneeUsername))
    && filter.cycleId.all (row.item.cycleId == some ·)
    && row.item.deletedAt.isNone

end NormalizedWorkItemFilter

/-- `CASE wi.priority WHEN 'P0' THEN 0 WHEN 'P1' THEN 1 WHEN 'P2' THEN 2 ELSE 3 END`. -/
def priorityRank : Priority → Nat
  | .p0 => 0
  | .p1 => 1
  | .p2 => 2
  | .p3 => 3

/-- A rank, a text with `NULL` first, and a time and an id with the latest first. -/
abbrev SortKey := Nat ×ₗ WithBot String ×ₗ Intᵒᵈ ×ₗ Intᵒᵈ

/-- `time DESC, wi.id DESC`. -/
def latest (time id : Int) : Intᵒᵈ ×ₗ Intᵒᵈ :=
  toLex (OrderDual.toDual time, OrderDual.toDual id)

def sortKey (db : TimedDb) (wi : WorkItem) : WorkItemSort → SortKey
  | .updatedDesc => toLex (0, toLex (⊥, latest (db.updatedAt wi.id) wi.id))
  | .createdDesc => toLex (0, toLex (⊥, latest (db.createdAt wi.id) wi.id))
  | .priorityDesc =>
    toLex (priorityRank wi.priority, toLex (⊥, latest (db.updatedAt wi.id) wi.id))
  | .dueDateAsc =>
    -- CASE WHEN wi.due_date IS NULL OR wi.due_date = '' THEN 1 ELSE 0 END ASC, wi.due_date ASC
    toLex (if wi.dueDate.getD "" = "" then 1 else 0,
      toLex (wi.dueDate, latest (db.updatedAt wi.id) wi.id))

def before (db : TimedDb) (sortBy : WorkItemSort) (a b : ItemRow) : Bool :=
  decide (sortKey db a.item sortBy ≤ sortKey db b.item sortBy)

/-! ## Queries -/

structure WorkItemSummary where
  id : Int
  itemKey : String
  itemType : WorkItemType
  title : String
  status : WorkItemStatus
  priority : Priority
  projectKey : String
  projectName : String
  assigneeDisplayName : String
  dueDate : String
  updatedAt : Int
  deriving DecidableEq, Repr

structure WorkItemListStats where
  totalItems : Int64
  activeItems : Int64
  highPriorityItems : Int64
  completedItems : Int64
  deriving DecidableEq, Repr

namespace TimedDb

variable (db : TimedDb)

/-- `FROM work_items wi JOIN projects p .. LEFT JOIN users assignee ..`. -/
def rows : List ItemRow := db.workItems.filterMap db.itemRow

def summary (row : ItemRow) : WorkItemSummary where
  id := row.item.id
  itemKey := row.item.itemKey
  itemType := row.item.itemType
  title := row.item.title
  status := row.item.status
  priority := row.item.priority
  projectKey := row.project.projectKey
  projectName := row.project.name
  assigneeDisplayName := (row.assignee.map (·.displayName)).getD ""
  dueDate := row.item.dueDate.getD ""
  updatedAt := db.updatedAt row.item.id

/-- A page of the rows that meet `keep`. -/
def itemPage (keep : ItemRow → Bool) (sortBy : WorkItemSort) (pagination : Pagination) :
    List WorkItemSummary :=
  (limitOffset pagination.perPage pagination.offset
    (orderBy (before db sortBy) (db.rows.filter keep))).map db.summary

/-- `COUNT(*)`, or `SUM` of a condition. -/
def countItems (keep : ItemRow → Bool) : Int64 := Int64.ofNat (db.rows.filter keep).length

def itemStats (keep : ItemRow → Bool) : WorkItemListStats where
  totalItems := db.countItems keep
  activeItems := db.countItems fun row => keep row && row.item.status.isActive
  highPriorityItems := db.countItems fun row =>
    keep row && [Priority.p0, .p1].contains row.item.priority
  completedItems := db.countItems fun row =>
    keep row && [WorkItemStatus.done, .verified].contains row.item.status

/-- `JOIN project_members pm ON pm.project_id = p.id AND pm.user_id = ?1`. -/
def ofMember (userId : Int) (row : ItemRow) : Bool := db.isMember row.project.id userId

end TimedDb

def countWorkItemSummariesFiltered (db : TimedDb) (normalized : NormalizedWorkItemFilter) : Int64 :=
  db.countItems normalized.keeps

def countWorkItemSummariesFilteredForUser (db : TimedDb) (userId : Int)
    (normalized : NormalizedWorkItemFilter) : Int64 :=
  db.countItems fun row => db.ofMember userId row && normalized.keeps row

def listWorkItemSummariesFilteredPaginated (db : TimedDb) (filter : WorkItemListFilter)
    (pagination : Pagination) : Except AppError (Paginated WorkItemSummary) := do
  let normalized ← normalizeWorkItemFilter filter
  let pagination ← normalizePagination pagination
  pure
    { items := db.itemPage normalized.keeps normalized.sortBy pagination
      page := pagination.page
      perPage := pagination.perPage
      totalItems := countWorkItemSummariesFiltered db normalized }

def listWorkItemSummariesFilteredForUserPaginated (db : TimedDb) (userId : Int)
    (isSuperAdmin : Bool) (filter : WorkItemListFilter) (pagination : Pagination) :
    Except AppError (Paginated WorkItemSummary) :=
  if isSuperAdmin then listWorkItemSummariesFilteredPaginated db filter pagination
  else do
    let normalized ← normalizeWorkItemFilter filter
    let pagination ← normalizePagination pagination
    pure
      { items := db.itemPage (fun row => db.ofMember userId row && normalized.keeps row)
          normalized.sortBy pagination
        page := pagination.page
        perPage := pagination.perPage
        totalItems := countWorkItemSummariesFilteredForUser db userId normalized }

def listWorkItemSummariesFilteredForUser (db : TimedDb) (userId : Int) (isSuperAdmin : Bool)
    (filter : WorkItemListFilter) : Except AppError (List WorkItemSummary) := do
  let page ← listWorkItemSummariesFilteredForUserPaginated db userId isSuperAdmin filter
    { page := 1, perPage := Int64.maxValue }
  pure page.items

def workItemListStatsFiltered (db : TimedDb) (filter : WorkItemListFilter) :
    Except AppError WorkItemListStats := do
  let normalized ← normalizeWorkItemFilter filter
  pure (db.itemStats normalized.keeps)

def workItemListStatsFilteredForUser (db : TimedDb) (userId : Int) (isSuperAdmin : Bool)
    (filter : WorkItemListFilter) : Except AppError WorkItemListStats :=
  if isSuperAdmin then workItemListStatsFiltered db filter
  else do
    let normalized ← normalizeWorkItemFilter filter
    pure (db.itemStats fun row => db.ofMember userId row && normalized.keeps row)

/-! ## The rows and their order -/

/-- The rows of `work_items` have the distinct positive keys of 64 bits that SQLite gives them. -/
structure Stored (db : TimedDb) : Prop where
  ids : (db.workItems.map (·.id)).Nodup
  range : ∀ wi ∈ db.workItems, 0 < wi.id ∧ wi.id < 2 ^ 63

theorem sortKey_id (db : TimedDb) (wi : WorkItem) (sortBy : WorkItemSort) :
    (ofLex (ofLex (ofLex (sortKey db wi sortBy)).2).2).2 = OrderDual.toDual wi.id := by
  cases sortBy <;> rfl

theorem before_total (db : TimedDb) (sortBy : WorkItemSort) (a b : ItemRow) :
    before db sortBy a b = true ∨ before db sortBy b a = true := by
  unfold before
  rw [decide_eq_true_iff, decide_eq_true_iff]
  exact le_total _ _

theorem before_trans (db : TimedDb) (sortBy : WorkItemSort) (a b c : ItemRow)
    (hab : before db sortBy a b = true) (hbc : before db sortBy b c = true) :
    before db sortBy a c = true := by
  unfold before at *
  rw [decide_eq_true_iff] at *
  exact hab.trans hbc

theorem id_eq_of_before {db : TimedDb} {sortBy : WorkItemSort} {a b : ItemRow}
    (hab : before db sortBy a b = true) (hba : before db sortBy b a = true) :
    a.item.id = b.item.id := by
  unfold before at *
  rw [decide_eq_true_iff] at *
  have hkey := le_antisymm hab hba
  have hid := sortKey_id db a.item sortBy
  rw [hkey, sortKey_id] at hid
  exact (OrderDual.toDual.injective hid).symm

section Rows

variable {db : TimedDb}

theorem rows_item {row : ItemRow} (h : row ∈ db.rows) :
    row.item ∈ db.workItems ∧ row.project.id = row.item.projectId := by
  obtain ⟨wi, hwi, hrow⟩ := List.mem_filterMap.mp h
  obtain ⟨p, hp, rfl⟩ := Option.map_eq_some_iff.mp hrow
  unfold Db.project at hp
  have hid := List.find?_some hp
  exact ⟨hwi, beq_iff_eq.mp hid⟩

theorem rows_ids (hdb : Stored db) : (db.rows.map (·.item.id)).Nodup :=
  hdb.ids.sublist (itemRows_sublist db.workItems)

theorem rows_length (hdb : Stored db) (keep : ItemRow → Bool) :
    (db.rows.filter keep).length < 2 ^ 63 := by
  have hlength := length_lt_of_ids hdb.ids (List.forall_mem_map.mpr hdb.range)
  rw [List.length_map] at hlength
  have hkept := List.length_filter_le keep db.rows
  have hrows := (@itemRows_sublist db.toDb db.workItems).length_le
  rw [List.length_map, List.length_map] at hrows
  unfold TimedDb.rows at *
  omega

/-- The rows that meet `keep`, in order. -/
def listed (db : TimedDb) (sortBy : WorkItemSort) (keep : ItemRow → Bool) : List ItemRow :=
  (orderBy (before db sortBy) db.rows).filter keep

theorem orderBy_rows (hdb : Stored db) (sortBy : WorkItemSort) (keep : ItemRow → Bool) :
    orderBy (before db sortBy) (db.rows.filter keep) = listed db sortBy keep := by
  apply orderBy_filter keep (before_total db sortBy) (before_trans db sortBy)
  intro a ha b hb hab hba
  exact eq_of_key (rows_ids hdb) ha hb (id_eq_of_before hab hba)

theorem mem_listed {sortBy : WorkItemSort} {keep : ItemRow → Bool} {row : ItemRow} :
    row ∈ listed db sortBy keep ↔ row ∈ db.rows ∧ keep row = true := by
  unfold listed
  rw [List.mem_filter, mem_orderBy]

theorem length_listed (sortBy : WorkItemSort) (keep : ItemRow → Bool) :
    (listed db sortBy keep).length = (db.rows.filter keep).length :=
  ((List.perm_insertionSort _ db.rows).filter keep).length_eq

/-- The order is total and no two rows stand at one place. -/
theorem listed_ordered (hdb : Stored db) (sortBy : WorkItemSort) (keep : ItemRow → Bool) :
    (listed db sortBy keep).Pairwise fun a b =>
      before db sortBy a b = true ∧ before db sortBy b a = false := by
  have : Std.Total fun a b => before db sortBy a b = true := ⟨before_total db sortBy⟩
  have : IsTrans ItemRow fun a b => before db sortBy a b = true := ⟨before_trans db sortBy⟩
  have hsorted := (List.pairwise_insertionSort (fun a b => before db sortBy a b = true)
    db.rows).filter keep
  have hids : (listed db sortBy keep).Pairwise fun a b => a.item.id ≠ b.item.id := by
    have hperm := (List.perm_insertionSort (fun a b => before db sortBy a b = true) db.rows).map
      (fun row => row.item.id)
    exact (List.pairwise_map.mp (hperm.nodup_iff.mpr (rows_ids hdb))).filter keep
  refine (hsorted.and hids).imp ?_
  rintro a b ⟨hab, hne⟩
  refine ⟨hab, Bool.eq_false_iff.mpr ?_⟩
  exact fun hba => hne (id_eq_of_before hab hba)

/-- A condition added to the listed rows. -/
theorem listed_filter (sortBy : WorkItemSort) (keep also : ItemRow → Bool) :
    (listed db sortBy keep).filter also = listed db sortBy fun row => also row && keep row :=
  List.filter_filter

end Rows

/-! ## What a user is shown -/

/-- What the queries of a user keep. -/
def visible (db : TimedDb) (userId : Int) (isSuperAdmin : Bool)
    (normalized : NormalizedWorkItemFilter) (row : ItemRow) : Bool :=
  (isSuperAdmin || db.ofMember userId row) && normalized.keeps row

/-- The pages of a list: each shows its part of the rows and counts all of them; together they show
every row, each where it belongs. -/
structure Pages {α : Type} (list : Pagination → Except AppError (Paginated α)) (perPage : Int64)
    (rows : List α) : Prop where
  page : ∀ page : Int64, 1 ≤ page → ∃ shown, list { page, perPage } = .ok shown ∧
    shown.items = (rows.drop ((page.toInt.toNat - 1) * perPage.toInt.toNat)).take
      perPage.toInt.toNat ∧ shown.totalItems.toInt = rows.length
  whole : ∀ k : Nat, k < 2 ^ 63 → rows.length ≤ k * perPage.toInt.toNat → ∃ pages,
    (List.range k).mapM (fun i => list { page := Int64.ofNat (i + 1), perPage }) = .ok pages ∧
      pages.flatMap (·.items) = rows

/-- The answers to one filter, from the rows that they are about. -/
structure ListsAgree (db : TimedDb) (userId : Int) (isSuperAdmin : Bool)
    (filter : WorkItemListFilter) (normalized : NormalizedWorkItemFilter) (perPage : Int64)
    (rows : List ItemRow) : Prop where
  asked : ∀ row, row ∈ rows ↔ row ∈ db.rows ∧ normalized.keeps row = true ∧
    (isSuperAdmin = true ∨ db.isMember row.item.projectId userId = true)
  ordered : rows.Pairwise fun a b => before db normalized.sortBy a b = true ∧
    before db normalized.sortBy b a = false
  pages : Pages (listWorkItemSummariesFilteredForUserPaginated db userId isSuperAdmin filter) perPage
    (rows.map db.summary)
  restricted : ∃ all, listWorkItemSummariesFilteredForUser db userId true filter = .ok all ∧
    listWorkItemSummariesFilteredForUser db userId isSuperAdmin filter =
      .ok (all.filter fun summary => isSuperAdmin ||
        (db.workItem summary.id).any fun wi => db.isMember wi.projectId userId)
  stats : ∃ stats, workItemListStatsFilteredForUser db userId isSuperAdmin filter = .ok stats ∧
    stats.totalItems.toInt = rows.length ∧
    (trim filter.status = "" → ∃ pending,
      listWorkItemSummariesFilteredForUser db userId isSuperAdmin { filter with status := "pending" } =
        .ok pending ∧ stats.activeItems.toInt = pending.length)

section Answers

variable {db : TimedDb} (hdb : Stored db) {userId : Int} {isSuperAdmin : Bool}
  {filter : WorkItemListFilter} {normalized : NormalizedWorkItemFilter} {perPage : Int64}
  (hfilter : normalizeWorkItemFilter filter = .ok normalized)
include hdb

theorem countItems_toInt (keep : ItemRow → Bool) (sortBy : WorkItemSort) :
    (db.countItems keep).toInt = (listed db sortBy keep).length := by
  unfold TimedDb.countItems
  rw [Int64.toInt_ofNat_of_lt (rows_length hdb keep), length_listed]

theorem itemPage_eq (keep : ItemRow → Bool) (sortBy : WorkItemSort) (pagination : Pagination) :
    db.itemPage keep sortBy pagination = limitOffset pagination.perPage pagination.offset
      ((listed db sortBy keep).map db.summary) := by
  unfold TimedDb.itemPage
  rw [orderBy_rows hdb, map_limitOffset]

omit hdb in
theorem length_listed_lt (hdb : Stored db) (keep : ItemRow → Bool) (sortBy : WorkItemSort) :
    ((listed db sortBy keep).map db.summary).length < 2 ^ 63 := by
  rw [List.length_map, length_listed]
  exact rows_length hdb keep

include hfilter

/-- A page that a user asks for. -/
theorem listForUser_eq {page : Int64} (hpage : 1 ≤ page) (hpos : 1 ≤ perPage) :
    listWorkItemSummariesFilteredForUserPaginated db userId isSuperAdmin filter { page, perPage } =
      .ok
        { items := limitOffset perPage (Pagination.offset { page, perPage })
            ((listed db normalized.sortBy (visible db userId isSuperAdmin normalized)).map db.summary)
          page
          perPage
          totalItems := db.countItems (visible db userId isSuperAdmin normalized) } := by
  unfold listWorkItemSummariesFilteredForUserPaginated
  cases isSuperAdmin with
  | true =>
    unfold listWorkItemSummariesFilteredPaginated
    rw [if_pos rfl, hfilter, ok_bind, normalizePagination_ok hpage hpos, ok_bind,
      itemPage_eq hdb]
    rfl
  | false =>
    rw [if_neg Bool.false_ne_true, hfilter, ok_bind, normalizePagination_ok hpage hpos, ok_bind,
      itemPage_eq hdb]
    rfl

/-- The list that is not paged. -/
theorem wholeList_eq :
    listWorkItemSummariesFilteredForUser db userId isSuperAdmin filter =
      .ok ((listed db normalized.sortBy (visible db userId isSuperAdmin normalized)).map
        db.summary) := by
  unfold listWorkItemSummariesFilteredForUser
  rw [listForUser_eq hdb hfilter (by decide) (by decide), ok_bind, pure_ok,
    limitOffset_page (length_listed_lt hdb _ _) (by decide) (by decide)]
  have hstart : ((1 : Int64).toInt.toNat - 1) * Int64.maxValue.toInt.toNat = 0 := by decide
  have hmax : Int64.maxValue.toInt.toNat = 2 ^ 63 - 1 := by decide
  have hlength := length_listed_lt hdb (visible db userId isSuperAdmin normalized) normalized.sortBy
  rw [hstart, List.drop_zero, hmax, List.take_of_length_le (by omega)]

omit hdb in
theorem stats_eq : workItemListStatsFilteredForUser db userId isSuperAdmin filter =
    .ok (db.itemStats (visible db userId isSuperAdmin normalized)) := by
  unfold workItemListStatsFilteredForUser
  cases isSuperAdmin with
  | true =>
    unfold workItemListStatsFiltered
    rw [if_pos rfl, hfilter]
    rfl
  | false =>
    rw [if_neg Bool.false_ne_true, hfilter]
    rfl

theorem pages_of_list (hpos : 1 ≤ perPage) :
    Pages (listWorkItemSummariesFilteredForUserPaginated db userId isSuperAdmin filter) perPage
      ((listed db normalized.sortBy (visible db userId isSuperAdmin normalized)).map db.summary) := by
  have hone : (1 : Int64).toInt = 1 := rfl
  have hp : 1 ≤ perPage.toInt := by
    rw [Int64.le_iff_toInt_le, hone] at hpos
    exact hpos
  have hlength := length_listed_lt hdb (visible db userId isSuperAdmin normalized) normalized.sortBy
  constructor
  · intro page hpage
    refine ⟨_, listForUser_eq hdb hfilter hpage hpos, ?_, ?_⟩
    · rw [Int64.le_iff_toInt_le, hone] at hpage
      exact limitOffset_page hlength hpage hp
    · rw [List.length_map]
      exact countItems_toInt hdb _ _
  · intro k hk hcovers
    refine ⟨_, mapM_ok (g := fun i =>
      { items := (((listed db normalized.sortBy (visible db userId isSuperAdmin normalized)).map
          db.summary).drop (i * perPage.toInt.toNat)).take perPage.toInt.toNat
        page := Int64.ofNat (i + 1)
        perPage
        totalItems := db.countItems (visible db userId isSuperAdmin normalized) }) ?_, ?_⟩
    · intro i hi
      have hi := List.mem_range.mp hi
      have hpage : (Int64.ofNat (i + 1)).toInt = i + 1 := Int64.toInt_ofNat_of_lt (by omega)
      rw [listForUser_eq hdb hfilter (by rw [Int64.le_iff_toInt_le, hone, hpage]; omega) hpos,
        limitOffset_page hlength (by omega) hp, hpage]
      rfl
    · rw [List.flatMap_map]
      rw [flatMap_pages]
      exact List.take_of_length_le hcovers

end Answers

/-- The filter that asks for pending items besides. -/
theorem normalize_pending {filter : WorkItemListFilter} {normalized : NormalizedWorkItemFilter}
    (hfilter : normalizeWorkItemFilter filter = .ok normalized) (hstatus : trim filter.status = "") :
    normalized.status = .any ∧
      normalizeWorkItemFilter { filter with status := "pending" } =
        .ok { normalized with status := .pending } := by
  obtain ⟨itemType, hitemType, hfilter⟩ := bind_eq_ok.mp hfilter
  obtain ⟨keyword, hkeyword, hfilter⟩ := bind_eq_ok.mp hfilter
  obtain ⟨status, hgiven, hfilter⟩ := bind_eq_ok.mp hfilter
  obtain ⟨priority, hpriority, hfilter⟩ := bind_eq_ok.mp hfilter
  obtain ⟨projectKey, hprojectKey, hfilter⟩ := bind_eq_ok.mp hfilter
  obtain ⟨assigneeUsername, hassignee, hfilter⟩ := bind_eq_ok.mp hfilter
  obtain ⟨cycleId, hcycleId, hfilter⟩ := bind_eq_ok.mp hfilter
  obtain ⟨sortBy, hsortBy, hfilter⟩ := bind_eq_ok.mp hfilter
  cases hfilter
  unfold ifGiven at hgiven
  rw [if_pos hstatus] at hgiven
  cases hgiven
  refine ⟨rfl, ?_⟩
  have hpending : ifGiven StatusFilter.any normalizeStatus "pending" = .ok .pending := by decide
  unfold normalizeWorkItemFilter
  dsimp only
  rw [hitemType, ok_bind, hkeyword, ok_bind, hpending, ok_bind, hpriority, ok_bind, hprojectKey,
    ok_bind, hassignee, ok_bind, hcycleId, ok_bind, hsortBy, ok_bind, pure_ok]

/-- With the status `pending` instead of none, the unfinished rows are kept. -/
theorem visible_pending (db : TimedDb) (userId : Int) (isSuperAdmin : Bool)
    {normalized : NormalizedWorkItemFilter} (hany : normalized.status = .any) (row : ItemRow) :
    visible db userId isSuperAdmin { normalized with status := .pending } row =
      (visible db userId isSuperAdmin normalized row && row.item.status.isActive) := by
  unfold visible NormalizedWorkItemFilter.keeps NormalizedWorkItemFilter.hasKeyword
  rw [hany]
  dsimp only [StatusFilter.keeps]
  rw [Bool.eq_iff_iff]
  simp only [Bool.and_eq_true]
  tauto

/-- For every filter that is accepted and every page size, the pages partition one totally ordered
list of rows, the counts and the statistics count these rows, a member is shown the administrator's
list without the projects of others, and the active items are those that are listed as pending. -/
theorem work_item_lists_agree (db : TimedDb) (hdb : Stored db) (userId : Int) (isSuperAdmin : Bool)
    (filter : WorkItemListFilter) (normalized : NormalizedWorkItemFilter)
    (hfilter : normalizeWorkItemFilter filter = .ok normalized) (perPage : Int64)
    (hpos : 1 ≤ perPage) :
    ∃ rows, ListsAgree db userId isSuperAdmin filter normalized perPage rows := by
  refine ⟨listed db normalized.sortBy (visible db userId isSuperAdmin normalized), ?_, ?_, ?_, ?_, ?_⟩
  · intro row
    rw [mem_listed]
    refine and_congr_right fun hrow => ?_
    unfold visible TimedDb.ofMember
    rw [Bool.and_eq_true, Bool.or_eq_true, (rows_item hrow).2]
    exact And.comm
  · exact listed_ordered hdb _ _
  · exact pages_of_list hdb hfilter hpos
  · refine ⟨_, wholeList_eq hdb hfilter, ?_⟩
    rw [wholeList_eq hdb hfilter, List.filter_map, listed_filter]
    congr 2
    apply List.filter_congr
    intro row hrow
    rw [mem_orderBy] at hrow
    obtain ⟨hmem, hproject⟩ := rows_item hrow
    have hstored : db.workItem (db.summary row).id = some row.item := workItem_of_mem hdb.ids hmem
    unfold visible TimedDb.ofMember
    rw [Function.comp_apply, hstored, Option.any_some, hproject]
    rfl
  · refine ⟨_, stats_eq hfilter, countItems_toInt hdb _ _, ?_⟩
    intro hstatus
    obtain ⟨hany, hpending⟩ := normalize_pending hfilter hstatus
    refine ⟨_, wholeList_eq hdb hpending, ?_⟩
    rw [List.length_map]
    refine (countItems_toInt hdb _ normalized.sortBy).trans ?_
    congr 2
    unfold listed
    apply List.filter_congr
    intro row _
    exact (visible_pending db userId isSuperAdmin hany row).symm


/-- An item of the project, last updated at its id. -/
def listedItem (id projectId : Int) (status : WorkItemStatus) : WorkItem where
  id := id
  projectId := projectId
  itemKey := "PA-" ++ toString id
  itemType := .task
  title := "item"
  description := ""
  status := status
  priority := .p2
  assigneeUserId := none
  reporterUserId := none
  parentWorkItemId := none
  cycleId := none
  dueDate := none
  completedAt := none
  deletedAt := none
  deletedByUserId := none

/-- Two projects, the user is a member of the first. -/
def listsDb : TimedDb where
  users := [⟨1, "alice", "Alice", true⟩]
  projects := [1, 2].map fun id =>
    { id, projectKey := "P" ++ toString id, name := "Project", description := "",
      status := .inProgress, ownerUserId := none, startDate := none, dueDate := none,
      updatedAt := 0 }
  nextProject := 3
  members := [⟨1, 1, .member, 0⟩]
  workItems := [listedItem 1 1 .opened, listedItem 2 2 .opened, listedItem 3 1 .done]
  nextWorkItem := 4
  cycles := []
  comments := []
  activities := []
  unavailable := []
  createdAt id := id
  updatedAt id := id

def everything : WorkItemListFilter := ⟨none, "", "", "", "", "", "", ""⟩

theorem lists_of_member_agree :
    (listWorkItemSummariesFilteredForUser listsDb 1 false everything).toOption.map
        (·.map (·.id)) = some [3, 1] ∧
      ∃ rows, ListsAgree listsDb 1 false everything
        ⟨none, "", "", .any, none, "", "", none, .updatedDesc⟩ 1 rows := by
  refine ⟨by decide +kernel, ?_⟩
  exact work_item_lists_agree listsDb ⟨by decide, by decide⟩ 1 false everything _ rfl 1
    (by decide)

end ItemLists
end Projects
end Yuance
