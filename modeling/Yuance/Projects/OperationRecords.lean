import Yuance.Lib.Pages
import Yuance.Projects.CommentBody
import Yuance.Projects.Listing

/-!
# Yuance.Projects.OperationRecords

The history of a work item in `api/src/domains/projects.rs`: its flow records, which are comments, and
its edit records, which are activities of the project, merged and read page by page. They are sorted
by their second and by their id, and the two tables count their ids on their own. How the database
orders records that tie is left to it at each request.

* `operationRecords`: what the query reads, before it is sorted.
* `Tie`: a flow record and an edit record that the sort does not tell apart.
-/

namespace Yuance
namespace Projects
namespace OperationRecords

open Lib

/-- A row of `work_item_comments`. -/
structure CommentRow where
  id : Int
  workItemId : Int
  body : String
  isDraft : Bool
  deleted : Bool
  authorUserId : Option Int
  actorDisplayNameSnapshot : String
  createdAt : String
  deriving DecidableEq, Repr

/-- A row of `project_activities`. -/
structure ActivityRow where
  id : Int
  actorUserId : Option Int
  action : String
  targetType : String
  targetId : String
  actorDisplayNameSnapshot : String
  createdAt : String
  deriving DecidableEq, Repr

structure Db where
  users : List User
  comments : List CommentRow
  activities : List ActivityRow
  /-- `id INTEGER PRIMARY KEY`. -/
  commentIds : (comments.map (·.id)).Nodup
  activityIds : (activities.map (·.id)).Nodup

inductive SourceKind where
  | flow
  | edit
  deriving DecidableEq, Repr

/-- A row of the union. -/
structure OperationRecord where
  sourceKind : SourceKind
  sortId : Int
  actorDisplayName : String
  createdAt : String
  body : String
  deriving DecidableEq, Repr

structure WorkItemOperationSummary where
  sourceKind : SourceKind
  actorDisplayName : String
  createdAt : String
  body : String
  deriving DecidableEq, Repr

def OperationRecord.summary (r : OperationRecord) : WorkItemOperationSummary :=
  { sourceKind := r.sourceKind, actorDisplayName := r.actorDisplayName, createdAt := r.createdAt,
    body := r.body }

namespace Db

variable (db : Db) (workItemId : Int) (itemKey : String)

/-- `COALESCE(NULLIF(snapshot, ''), u.display_name, '')`. -/
def actorDisplayName (snapshot : String) (userId : Option Int) : String :=
  if snapshot ≠ "" then snapshot
  else ((userId.bind fun id => db.users.find? (·.id == id)).map (·.displayName)).getD ""

def flowComments : List CommentRow :=
  db.comments.filter fun c => c.workItemId == workItemId && !c.deleted && !c.isDraft
    && isFlowRow c.body

def editActivities : List ActivityRow :=
  db.activities.filter fun pa => pa.targetType == "work_item" && pa.targetId == itemKey
    && pa.action == "work_item.updated"

def flowRecord (c : CommentRow) : OperationRecord :=
  { sourceKind := .flow, sortId := c.id
    actorDisplayName := db.actorDisplayName c.actorDisplayNameSnapshot c.authorUserId
    createdAt := c.createdAt, body := c.body }

def editRecord (pa : ActivityRow) : OperationRecord :=
  { sourceKind := .edit, sortId := pa.id
    actorDisplayName := db.actorDisplayName pa.actorDisplayNameSnapshot pa.actorUserId
    createdAt := pa.createdAt, body := "" }

/-- The `UNION ALL`. -/
def operationRecords : List OperationRecord :=
  (db.flowComments workItemId).map db.flowRecord ++ (db.editActivities itemKey).map db.editRecord

end Db

/-- `ORDER BY created_at DESC, sort_id DESC`. -/
def newestFirst : OperationRecord → OperationRecord → Bool :=
  descending (·.createdAt) (·.sortId)

/-- The page of the records, as the database sorted them. -/
def operationPage (sorted : List OperationRecord) (pagination : Pagination) : List OperationRecord :=
  limitOffset pagination.perPage pagination.offset sorted

/-- `sorted` are the records as the database sorts them at this request. -/
def listWorkItemOperationRecordsPaginated (db : Db) (workItemId : Int) (itemKey : String)
    (sorted : List OperationRecord) (pagination : Pagination) :
    Paginated WorkItemOperationSummary :=
  { items := (operationPage sorted pagination).map (·.summary)
    page := pagination.page
    perPage := pagination.perPage
    totalItems := Int64.ofNat (db.flowComments workItemId).length +
      Int64.ofNat (db.editActivities itemKey).length }

/-! ## Records that tie -/

/-- A flow record and an edit record of one second with one id. -/
structure Tie (c a : OperationRecord) : Prop where
  flow : c.sourceKind = .flow
  edit : a.sourceKind = .edit
  second : c.createdAt = a.createdAt
  id : c.sortId = a.sortId

section Ties

variable {db : Db} {workItemId : Int} {itemKey : String} {r x : OperationRecord}

theorem record_eq (hr : r ∈ db.operationRecords workItemId itemKey)
    (hx : x ∈ db.operationRecords workItemId itemKey) (hkind : x.sourceKind = r.sourceKind)
    (hid : x.sortId = r.sortId) : x = r := by
  rcases List.mem_append.mp hr with hr | hr
  · obtain ⟨c, hc, rfl⟩ := List.mem_map.mp hr
    rcases List.mem_append.mp hx with hx | hx
    · obtain ⟨c', hc', rfl⟩ := List.mem_map.mp hx
      rw [eq_of_key db.commentIds (List.mem_of_mem_filter hc') (List.mem_of_mem_filter hc) hid]
    · obtain ⟨a, _, rfl⟩ := List.mem_map.mp hx
      cases hkind
  · obtain ⟨a, ha, rfl⟩ := List.mem_map.mp hr
    rcases List.mem_append.mp hx with hx | hx
    · obtain ⟨c, _, rfl⟩ := List.mem_map.mp hx
      cases hkind
    · obtain ⟨a', ha', rfl⟩ := List.mem_map.mp hx
      rw [eq_of_key db.activityIds (List.mem_of_mem_filter ha') (List.mem_of_mem_filter ha) hid]

theorem operationRecords_nodup : (db.operationRecords workItemId itemKey).Nodup := by
  unfold Db.operationRecords
  rw [List.nodup_append]
  refine ⟨?_, ?_, ?_⟩
  · refine List.Nodup.map_on ?_ (List.Nodup.filter _ (List.Nodup.of_map _ db.commentIds))
    intro c hc c' hc' heq
    exact eq_of_key db.commentIds (List.mem_of_mem_filter hc) (List.mem_of_mem_filter hc')
      (congrArg OperationRecord.sortId heq)
  · refine List.Nodup.map_on ?_ (List.Nodup.filter _ (List.Nodup.of_map _ db.activityIds))
    intro a ha a' ha' heq
    exact eq_of_key db.activityIds (List.mem_of_mem_filter ha) (List.mem_of_mem_filter ha')
      (congrArg OperationRecord.sortId heq)
  · intro c hc a ha heq
    obtain ⟨_, _, rfl⟩ := List.mem_map.mp hc
    obtain ⟨_, _, rfl⟩ := List.mem_map.mp ha
    cases congrArg OperationRecord.sourceKind heq

/-- Two records that the sort does not tell apart are equal or a tie. -/
theorem tied_iff : newestFirst x r = true ∧ newestFirst r x = true ↔
    x.createdAt = r.createdAt ∧ x.sortId = r.sortId := by
  unfold newestFirst
  rw [descending_iff, descending_iff]
  constructor
  · rintro ⟨hlt | ⟨heq, hle⟩, hlt' | ⟨heq', hle'⟩⟩
    · exact absurd (lt_trans hlt hlt') (lt_irrefl _)
    · exact absurd (heq' ▸ hlt) (lt_irrefl _)
    · exact absurd (heq ▸ hlt') (lt_irrefl _)
    · exact ⟨heq, le_antisymm hle' hle⟩
  · rintro ⟨heq, hid⟩
    exact ⟨.inr ⟨heq, hid.ge⟩, .inr ⟨heq.symm, hid.le⟩⟩

theorem newestFirst_total (a b : OperationRecord) :
    newestFirst a b = true ∨ newestFirst b a = true := descending_total a b

theorem newestFirst_trans (a b c : OperationRecord) (hab : newestFirst a b = true)
    (hbc : newestFirst b c = true) : newestFirst a c = true := descending_trans a b c hab hbc

theorem newestFirst_refl (r : OperationRecord) : newestFirst r r = true := by
  rcases newestFirst_total r r with h | h
  · exact h
  · exact h

/-- The sort looks at the second and the id. -/
theorem newestFirst_congr {c : OperationRecord} (hsecond : r.createdAt = c.createdAt)
    (hid : r.sortId = c.sortId) :
    newestFirst x r = newestFirst x c ∧ newestFirst r x = newestFirst c x := by
  unfold newestFirst
  constructor
  · rw [Bool.eq_iff_iff, descending_iff, descending_iff, hsecond, hid]
  · rw [Bool.eq_iff_iff, descending_iff, descending_iff, hsecond, hid]

/-- A tie and its records: the first has as many places as there are records in the tie. -/
theorem places_of_tie {c a : OperationRecord} (hc : c ∈ db.operationRecords workItemId itemKey)
    (ha : a ∈ db.operationRecords workItemId itemKey) (htie : Tie c a)
    (hr : r = c ∨ r = a) :
    firstRank newestFirst (db.operationRecords workItemId itemKey) r =
        firstRank newestFirst (db.operationRecords workItemId itemKey) c ∧
      lastRank newestFirst (db.operationRecords workItemId itemKey) r =
        firstRank newestFirst (db.operationRecords workItemId itemKey) c + 1 := by
  have hkeys : r.createdAt = c.createdAt ∧ r.sortId = c.sortId := by
    rcases hr with rfl | rfl
    · exact ⟨rfl, rfl⟩
    · exact ⟨htie.second.symm, htie.id.symm⟩
  have hmem : r ∈ db.operationRecords workItemId itemKey := by
    rcases hr with rfl | rfl
    · exact hc
    · exact ha
  have hrank : firstRank newestFirst (db.operationRecords workItemId itemKey) r =
      firstRank newestFirst (db.operationRecords workItemId itemKey) c := by
    refine List.countP_congr fun x _ => ?_
    rw [(newestFirst_congr hkeys.1 hkeys.2).1, (newestFirst_congr hkeys.1 hkeys.2).2]
  have hties : ((db.operationRecords workItemId itemKey).filter fun x =>
      newestFirst x r && newestFirst r x).Perm [c, a] := by
    rw [List.perm_ext_iff_of_nodup (operationRecords_nodup.filter _) (by
      rw [List.nodup_cons, List.mem_singleton]
      refine ⟨?_, List.nodup_singleton a⟩
      rintro rfl
      have hflow := htie.flow
      rw [htie.edit] at hflow
      cases hflow)]
    intro x
    rw [List.mem_filter, Bool.and_eq_true, tied_iff, List.mem_cons, List.mem_singleton]
    constructor
    · rintro ⟨hx, hsecond, hid⟩
      cases hkind : x.sourceKind with
      | flow => exact .inl (record_eq hc hx (hkind.trans htie.flow.symm) (hid.trans hkeys.2))
      | edit =>
        exact .inr (record_eq ha hx (hkind.trans htie.edit.symm)
          ((hid.trans hkeys.2).trans htie.id))
    · rintro (rfl | rfl)
      · exact ⟨hc, hkeys.1.symm, hkeys.2.symm⟩
      · exact ⟨ha, htie.second.symm.trans hkeys.1.symm, htie.id.symm.trans hkeys.2.symm⟩
  have hcount := lastRank_succ newestFirst_refl hmem
  rw [List.countP_eq_length_filter, hties.length_eq, hrank] at hcount
  simp only [List.length_cons, List.length_nil] at hcount
  exact ⟨hrank, by omega⟩

/-- A record outside every tie has one place. -/
theorem place_of_alone (hr : r ∈ db.operationRecords workItemId itemKey)
    (halone : ∀ c ∈ db.operationRecords workItemId itemKey,
      ∀ a ∈ db.operationRecords workItemId itemKey, Tie c a → r ≠ c ∧ r ≠ a) :
    lastRank newestFirst (db.operationRecords workItemId itemKey) r =
      firstRank newestFirst (db.operationRecords workItemId itemKey) r := by
  have hties : ((db.operationRecords workItemId itemKey).filter fun x =>
      newestFirst x r && newestFirst r x).Perm [r] := by
    rw [List.perm_ext_iff_of_nodup (operationRecords_nodup.filter _) (List.nodup_singleton r)]
    intro x
    rw [List.mem_filter, Bool.and_eq_true, tied_iff, List.mem_singleton]
    constructor
    · rintro ⟨hx, hsecond, hid⟩
      by_cases hkind : x.sourceKind = r.sourceKind
      · exact record_eq hr hx hkind hid
      · cases hx' : x.sourceKind with
        | flow =>
          have hr' : r.sourceKind = .edit := by
            cases h : r.sourceKind with
            | flow => exact absurd (hx'.trans h.symm) hkind
            | edit => rfl
          exact absurd rfl (halone x hx r hr ⟨hx', hr', hsecond, hid⟩).2
        | edit =>
          have hr' : r.sourceKind = .flow := by
            cases h : r.sourceKind with
            | flow => rfl
            | edit => exact absurd (hx'.trans h.symm) hkind
          exact absurd rfl (halone r hr x hx ⟨hr', hx', hsecond.symm, hid.symm⟩).1
    · rintro rfl
      exact ⟨hr, rfl, rfl⟩
  have hcount := lastRank_succ newestFirst_refl hr
  rw [List.countP_eq_length_filter, hties.length_eq] at hcount
  simp only [List.length_cons, List.length_nil] at hcount
  omega

/-- No page of `n` records ends inside a tie. -/
def SplitsNoTie (db : Db) (workItemId : Int) (itemKey : String) (n : Nat) : Prop :=
  ∀ c ∈ db.operationRecords workItemId itemKey, ∀ a ∈ db.operationRecords workItemId itemKey,
    Tie c a → (firstRank newestFirst (db.operationRecords workItemId itemKey) c + 1) % n ≠ 0

theorem same_page_iff {k n : Nat} : k / n = (k + 1) / n ↔ (k + 1) % n ≠ 0 := by
  rw [Nat.succ_div, Ne, ← Nat.dvd_iff_mod_eq_zero]
  split
  · rename_i h
    exact ⟨fun heq => absurd heq (by omega), fun hne => absurd h hne⟩
  · rename_i h
    exact ⟨fun _ => h, fun _ => rfl⟩

theorem places_iff {n : Nat} :
    (∀ r ∈ db.operationRecords workItemId itemKey,
      firstRank newestFirst (db.operationRecords workItemId itemKey) r / n =
        lastRank newestFirst (db.operationRecords workItemId itemKey) r / n) ↔
      SplitsNoTie db workItemId itemKey n := by
  constructor
  · intro h c hc a ha htie
    obtain ⟨hrank, hlast⟩ := places_of_tie hc ha htie (.inl rfl)
    have hpage := h c hc
    rw [hlast] at hpage
    exact same_page_iff.mp hpage
  · intro h r hr
    by_cases halone : ∀ c ∈ db.operationRecords workItemId itemKey,
        ∀ a ∈ db.operationRecords workItemId itemKey, Tie c a → r ≠ c ∧ r ≠ a
    · rw [place_of_alone hr halone]
    · push Not at halone
      obtain ⟨c, hc, a, ha, htie, hr'⟩ := halone
      have hin : r = c ∨ r = a := by
        by_cases hrc : r = c
        · exact .inl hrc
        · exact .inr (hr' hrc)
      obtain ⟨hrank, hlast⟩ := places_of_tie hc ha htie hin
      rw [hrank, hlast]
      exact same_page_iff.mpr (h c hc a ha htie)

end Ties

/-! ## Pages -/

section Pages

variable {db : Db} {workItemId : Int} {itemKey : String} {perPage : Int64}

theorem operationPage_eq {sorted : List OperationRecord} {page : Int64}
    (hlength : sorted.length < 2 ^ 63) (hpage : 1 ≤ page.toInt) (hp : 1 ≤ perPage.toInt) :
    operationPage sorted { page, perPage } =
      pageAt perPage.toInt.toNat sorted (page.toInt.toNat - 1) :=
  limitOffset_page hlength hpage hp

/-- The number of the page behind `i` others. -/
theorem pageNumber {i : Nat} (hi : i + 1 < 2 ^ 63) :
    (Int64.ofNat (i + 1)).toInt = (i : Int) + 1 ∧ (Int64.ofNat (i + 1)).toInt.toNat - 1 = i := by
  rw [Int64.toInt_ofNat_of_lt hi]
  exact ⟨Int.natCast_succ i, by omega⟩

/-- A page with a row is among those that have a number. -/
theorem page_lt {α : Type} {r : α} {n i : Nat} {l : List α} (hn : 0 < n) (hl : l.length < 2 ^ 63)
    (h : r ∈ pageAt n l i) : i + 1 < 2 ^ 63 := by
  obtain ⟨j, hj, rfl⟩ := (mem_pageAt hn).mp h
  have hlt := (List.getElem?_eq_some_iff.mp hj).1
  have := Nat.div_le_self j n
  omega

theorem paged_once_iff (hp : 1 ≤ perPage.toInt)
    (hsize : (db.operationRecords workItemId itemKey).length < 2 ^ 63) :
    (∀ sorted : Int64 → List OperationRecord,
        (∀ page, Listing newestFirst (db.operationRecords workItemId itemKey) (sorted page)) →
        ∀ r ∈ db.operationRecords workItemId itemKey, ∃! page : Int64,
          1 ≤ page.toInt ∧ r ∈ operationPage (sorted page) { page, perPage }) ↔
      SplitsNoTie db workItemId itemKey perPage.toInt.toNat := by
  have hn : 0 < perPage.toInt.toNat := by omega
  have hlength : ∀ {l}, Listing newestFirst (db.operationRecords workItemId itemKey) l →
      l.length < 2 ^ 63 := by
    intro l hl
    rw [hl.perm.length_eq]
    exact hsize
  rw [← places_iff, ← once_iff newestFirst_total newestFirst_trans newestFirst_refl hn]
  constructor
  · intro h listing hlisting r hr
    obtain ⟨page, ⟨hpage, hin⟩, hunique⟩ :=
      h (fun page => listing (page.toInt.toNat - 1)) (fun _ => hlisting _) r hr
    rw [operationPage_eq (hlength (hlisting _)) hpage hp] at hin
    refine ⟨page.toInt.toNat - 1, hin, ?_⟩
    intro i hi
    obtain ⟨hone, hback⟩ := pageNumber (page_lt hn (hlength (hlisting i)) hi)
    have hsame := hunique (Int64.ofNat (i + 1)) ⟨by omega, by
      rw [operationPage_eq (hlength (hlisting _)) (by omega) hp, hback]
      exact hi⟩
    rw [← hback, hsame]
  · intro h sorted hsorted r hr
    obtain ⟨i, hi, hunique⟩ :=
      h (fun i => sorted (Int64.ofNat (i + 1))) (fun _ => hsorted _) r hr
    obtain ⟨hone, hback⟩ := pageNumber (page_lt hn (hlength (hsorted _)) hi)
    refine ⟨Int64.ofNat (i + 1), ⟨by omega, ?_⟩, ?_⟩
    · rw [operationPage_eq (hlength (hsorted _)) (by omega) hp, hback]
      exact hi
    · intro page ⟨hpage, hin⟩
      rw [operationPage_eq (hlength (hsorted _)) hpage hp] at hin
      have hnumber : Int64.ofNat (page.toInt.toNat - 1 + 1) = page := by
        have hbound := Int64.toInt_lt page
        rw [← Int64.toInt_inj, (pageNumber (by omega)).1]
        omega
      have hthis := hunique (page.toInt.toNat - 1) (by
        dsimp only
        rw [hnumber]
        exact hin)
      rw [← hnumber, hthis]

/-- The pages hold the records that are counted, in whatever order they were sorted. -/
theorem pages_hold_total (hp : 1 ≤ perPage.toInt)
    (hsize : (db.operationRecords workItemId itemKey).length < 2 ^ 63)
    {sorted : Int64 → List OperationRecord}
    (hsorted : ∀ page, Listing newestFirst (db.operationRecords workItemId itemKey) (sorted page))
    {pages : Nat} (hpages : pages < 2 ^ 63)
    (hall : (db.operationRecords workItemId itemKey).length ≤ pages * perPage.toInt.toNat) (page : Pagination) :
    Int64.ofNat (((List.range pages).map fun i => (listWorkItemOperationRecordsPaginated db workItemId
        itemKey (sorted (Int64.ofNat (i + 1)))
        { page := Int64.ofNat (i + 1), perPage }).items.length).sum) =
      (listWorkItemOperationRecordsPaginated db workItemId itemKey (sorted page.page) page).totalItems := by
  have hitems : ((List.range pages).map fun i => (listWorkItemOperationRecordsPaginated db workItemId
        itemKey (sorted (Int64.ofNat (i + 1)))
        { page := Int64.ofNat (i + 1), perPage }).items.length) =
      (List.range pages).map fun i =>
        (pageAt perPage.toInt.toNat (sorted (Int64.ofNat (i + 1))) i).length := by
    refine List.map_congr_left fun i hi => ?_
    obtain ⟨hone, hback⟩ := @pageNumber i (by
      have := List.mem_range.mp hi
      omega)
    unfold listWorkItemOperationRecordsPaginated
    dsimp only
    rw [List.length_map, operationPage_eq (by
      rw [(hsorted _).perm.length_eq]
      exact hsize) (by omega) hp, hback]
  rw [hitems, sum_pages (fun i => (hsorted _).perm.length_eq) hall]
  unfold listWorkItemOperationRecordsPaginated Db.operationRecords
  dsimp only
  rw [List.length_append, List.length_map, List.length_map, Int64.ofNat_add]

/-- Each record is on one page exactly, however ties are sorted at each request, and the pages hold
`total_items` records, if and only if no page ends inside a tie. -/
theorem operation_records_paged_once (db : Db) (workItemId : Int) (itemKey : String)
    (perPage : Int64) (hp : 1 ≤ perPage.toInt)
    (hsize : (db.operationRecords workItemId itemKey).length < 2 ^ 63) :
    (∀ sorted : Int64 → List OperationRecord,
        (∀ page, Listing newestFirst (db.operationRecords workItemId itemKey) (sorted page)) →
        (∀ r ∈ db.operationRecords workItemId itemKey, ∃! page : Int64,
          1 ≤ page.toInt ∧ r ∈ operationPage (sorted page) { page, perPage }) ∧
        ∀ pages : Nat, pages < 2 ^ 63 →
          (db.operationRecords workItemId itemKey).length ≤ pages * perPage.toInt.toNat →
          ∀ page, Int64.ofNat (((List.range pages).map fun i =>
              (listWorkItemOperationRecordsPaginated db workItemId itemKey
                (sorted (Int64.ofNat (i + 1)))
                { page := Int64.ofNat (i + 1), perPage }).items.length).sum) =
            (listWorkItemOperationRecordsPaginated db workItemId itemKey (sorted page)
              { page, perPage }).totalItems) ↔
      SplitsNoTie db workItemId itemKey perPage.toInt.toNat := by
  rw [← paged_once_iff hp hsize]
  constructor
  · intro h sorted hsorted
    exact (h sorted hsorted).1
  · intro h sorted hsorted
    refine ⟨h sorted hsorted, ?_⟩
    intro pages hpages hall page
    exact pages_hold_total hp hsize hsorted hpages hall { page, perPage }

end Pages

def sampleComment : CommentRow where
  id := 5
  workItemId := 1
  body := "[yuance-flow] closed"
  isDraft := false
  deleted := false
  authorUserId := none
  actorDisplayNameSnapshot := "wang"
  createdAt := "2026-01-01 08:00:00"

def sampleActivity (id : Int) : ActivityRow where
  id := id
  actorUserId := none
  action := "work_item.updated"
  targetType := "work_item"
  targetId := "PA-TASK-1"
  actorDisplayNameSnapshot := "wang"
  createdAt := "2026-01-01 08:00:00"

/-- A flow record and an edit record of one second. -/
def sampleDb (activityId : Int) : Db where
  users := []
  comments := [sampleComment]
  activities := [sampleActivity activityId]
  commentIds := List.nodup_singleton _
  activityIds := List.nodup_singleton _

theorem operation_records_paged_once_apart :
    ∃! page : Int64, 1 ≤ page.toInt ∧ (sampleDb 6).flowRecord sampleComment ∈
      operationPage [(sampleDb 6).editRecord (sampleActivity 6),
        (sampleDb 6).flowRecord sampleComment] { page, perPage := 1 } := by
  have hall : (sampleDb 6).operationRecords 1 "PA-TASK-1" =
      [(sampleDb 6).flowRecord sampleComment, (sampleDb 6).editRecord (sampleActivity 6)] := by
    decide +kernel
  have hlisting : Listing newestFirst ((sampleDb 6).operationRecords 1 "PA-TASK-1")
      [(sampleDb 6).editRecord (sampleActivity 6), (sampleDb 6).flowRecord sampleComment] := by
    rw [hall]
    exact ⟨List.Perm.swap _ _ _, by decide +kernel⟩
  refine ((operation_records_paged_once (sampleDb 6) 1 "PA-TASK-1" 1 (by decide)
    (by rw [hall]; decide)).mpr ?_ (fun _ => _) fun _ => hlisting).1 _ ?_
  · intro c hc a ha htie
    rw [hall] at hc ha
    simp only [List.mem_cons, List.not_mem_nil, or_false] at hc ha
    have hid := htie.id
    rcases hc with rfl | rfl
    · rcases ha with rfl | rfl
      · cases htie.edit
      · cases hid
    · cases htie.flow
  · rw [hall]
    exact List.mem_cons_self

/-- The first request sorts the flow record first, the second sorts it last. -/
theorem tied_record_on_two_pages :
    let flow := (sampleDb 5).flowRecord sampleComment
    let edit := (sampleDb 5).editRecord (sampleActivity 5)
    let sorted : Int64 → List OperationRecord := fun page =>
      if page = 1 then [flow, edit] else [edit, flow]
    (∀ page, Listing newestFirst ((sampleDb 5).operationRecords 1 "PA-TASK-1") (sorted page)) ∧
      flow ∈ operationPage (sorted 1) { page := 1, perPage := 1 } ∧
      flow ∈ operationPage (sorted 2) { page := 2, perPage := 1 } ∧
      edit ∉ operationPage (sorted 1) { page := 1, perPage := 1 } ∧
      edit ∉ operationPage (sorted 2) { page := 2, perPage := 1 } := by
  have hall : (sampleDb 5).operationRecords 1 "PA-TASK-1" =
      [(sampleDb 5).flowRecord sampleComment, (sampleDb 5).editRecord (sampleActivity 5)] := by
    decide +kernel
  refine ⟨?_, by decide +kernel⟩
  intro page
  rw [hall]
  dsimp only
  split
  · exact ⟨List.Perm.refl _, by decide +kernel⟩
  · exact ⟨List.Perm.swap _ _ _, by decide +kernel⟩

end OperationRecords
end Projects
end Yuance
