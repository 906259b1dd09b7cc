import Yuance.Projects.Tables

/-!
# Yuance.Projects.Listing

The lists of projects, page by page: `list_project_summaries_paginated` for administrators and
`list_project_summaries_for_user_paginated` for members. The join with `project_members` keeps the
projects that the user is a member of; a user is at most once a member of a project.

The count of a member's projects takes the keyword into account, their listing does not.

* `allPages`: the pages up to `total_pages`, one behind the other.
-/

namespace Yuance
namespace Projects

open Lib Platform

structure ProjectListFilter where
  status : String
  keyword : String

structure NormalizedProjectFilter where
  /-- No status where the text is empty. -/
  status : Option ProjectStatus
  keyword : String
  keywordLike : String

structure Pagination where
  page : Int64
  perPage : Int64

/-- `a.saturating_mul(b)`. -/
def saturatingMul (a b : Int64) : Int64 :=
  Int64.ofInt (max (-2 ^ 63) (min (2 ^ 63 - 1) (a.toInt * b.toInt)))

def Pagination.offset (pagination : Pagination) : Int64 :=
  saturatingMul (pagination.page - 1) pagination.perPage

structure Paginated (α : Type) where
  items : List α
  page : Int64
  perPage : Int64
  totalItems : Int64

def Paginated.totalPages {α : Type} (paginated : Paginated α) : Int64 :=
  if paginated.totalItems = 0 then 1
  else (paginated.totalItems + paginated.perPage - 1) / paginated.perPage

structure ProjectSummary where
  id : Int
  projectKey : String
  name : String
  status : ProjectStatus
  ownerDisplayName : String
  ownerUsername : String
  workItemCount : Nat
  activeWorkItemCount : Nat
  updatedAt : Int
  deriving DecidableEq, Repr

def normalizeStatusFilter (status : String) : Except AppError (Option ProjectStatus) :=
  if trim status = "" then .ok none
  else do
    let status ← validateProjectStatus (trim status)
    pure (some status)

def normalizeProjectFilter (filter : ProjectListFilter) :
    Except AppError NormalizedProjectFilter := do
  let status ← normalizeStatusFilter filter.status
  let keyword ← validateOptionalText filter.keyword "项目关键词" 120
  pure { status, keyword, keywordLike := if keyword = "" then "" else "%" ++ keyword ++ "%" }

def normalizePagination (pagination : Pagination) : Except AppError Pagination := do
  rejectIf (pagination.page < 1) (.badRequest "页码不能小于 1")
  rejectIf (pagination.perPage < 1) (.badRequest "每页数量不能小于 1")
  pure pagination

/-! ## Queries -/

/-- `?1 = '' OR p.status = ?1`. -/
def NormalizedProjectFilter.hasStatus (filter : NormalizedProjectFilter) (p : Project) : Bool :=
  filter.status.all (p.status == ·)

/-- `?4 = '' OR p.name LIKE ?4 OR p.project_key LIKE ?4`. -/
def NormalizedProjectFilter.hasKeyword (filter : NormalizedProjectFilter) (p : Project) : Bool :=
  filter.keywordLike == "" || likePattern filter.keywordLike.toList p.name.toList
    || likePattern filter.keywordLike.toList p.projectKey.toList

/-- `ORDER BY p.updated_at DESC, p.id DESC`. -/
def recentFirst (p q : Project) : Bool :=
  if p.updatedAt = q.updatedAt then p.id ≥ q.id else p.updatedAt ≥ q.updatedAt

/-- `LIMIT limit OFFSET offset`. -/
def limitOffset {α : Type} (limit offset : Int64) (rows : List α) : List α :=
  (rows.drop offset.toInt.toNat).take limit.toInt.toNat

namespace Db

variable (db : Db)

def summary (p : Project) : ProjectSummary :=
  let owner := p.ownerUserId.bind db.user
  let items := db.workItems.filter fun wi => wi.projectId == p.id && wi.deletedAt.isNone
  { id := p.id
    projectKey := p.projectKey
    name := p.name
    status := p.status
    ownerDisplayName := (owner.map (·.displayName)).getD ""
    ownerUsername := (owner.map (·.username)).getD ""
    workItemCount := items.length
    activeWorkItemCount := (items.filter (·.status.isActive)).length
    updatedAt := p.updatedAt }

/-- The summaries of the projects that meet `keep`, newest first. -/
def projectPage (keep : Project → Bool) (pagination : Pagination) : List ProjectSummary :=
  (limitOffset pagination.perPage pagination.offset
    (orderBy recentFirst (db.projects.filter keep))).map db.summary

/-- `SELECT COUNT(*)`. -/
def countProjects (keep : Project → Bool) : Int64 := Int64.ofNat (db.projects.filter keep).length

end Db

def countProjectSummaries (db : Db) (filter : NormalizedProjectFilter) : Int64 :=
  db.countProjects fun p => filter.hasStatus p && filter.hasKeyword p

def countProjectSummariesForUser (db : Db) (userId : Int) (filter : NormalizedProjectFilter) :
    Int64 :=
  db.countProjects fun p => db.isMember p.id userId && filter.hasStatus p && filter.hasKeyword p

def listProjectSummariesPaginated (db : Db) (filter : ProjectListFilter)
    (pagination : Pagination) : Except AppError (Paginated ProjectSummary) := do
  let normalized ← normalizeProjectFilter filter
  let pagination ← normalizePagination pagination
  pure
    { items := db.projectPage (fun p => normalized.hasStatus p && normalized.hasKeyword p) pagination
      page := pagination.page
      perPage := pagination.perPage
      totalItems := countProjectSummaries db normalized }

def listProjectSummariesForUserPaginated (db : Db) (userId : Int) (isSuperAdmin : Bool)
    (filter : ProjectListFilter) (pagination : Pagination) :
    Except AppError (Paginated ProjectSummary) :=
  if isSuperAdmin then listProjectSummariesPaginated db filter pagination
  else do
    let normalized ← normalizeProjectFilter filter
    let pagination ← normalizePagination pagination
    -- the keyword is not among the conditions of this query
    pure
      { items := db.projectPage (fun p => db.isMember p.id userId && normalized.hasStatus p)
          pagination
        page := pagination.page
        perPage := pagination.perPage
        totalItems := countProjectSummariesForUser db userId normalized }

/-- The pages `1 ..= total_pages` of a list, one behind the other, and its `total_items`. -/
def allPages {α : Type} (list : Pagination → Except AppError (Paginated α)) (perPage : Int64) :
    Except AppError (List α × Int64) := do
  let first ← list { page := 1, perPage }
  let pages ← (List.range first.totalPages.toInt.toNat).mapM fun i =>
    list { page := Int64.ofNat (i + 1), perPage }
  pure (pages.flatMap (·.items), first.totalItems)

/-! ## Arithmetic of the pages -/

theorem saturatingMul_toInt {a b : Int64} (h0 : 0 ≤ a.toInt * b.toInt)
    (h1 : a.toInt * b.toInt < 2 ^ 63) : (saturatingMul a b).toInt = a.toInt * b.toInt := by
  unfold saturatingMul
  have hmin : min (2 ^ 63 - 1) (a.toInt * b.toInt) = a.toInt * b.toInt := by omega
  have hmax : max (-2 ^ 63) (a.toInt * b.toInt) = a.toInt * b.toInt := by omega
  rw [hmin, hmax]
  apply Int64.toInt_ofInt_of_le
  · omega
  · omega

/-- The page behind `k` others starts behind their rows. -/
theorem offset_toInt {k : Nat} {perPage : Int64} (hk : k + 1 < 2 ^ 63) (hp : 1 ≤ perPage.toInt)
    (h : (k : Int) * perPage.toInt < 2 ^ 63) :
    (Pagination.offset { page := Int64.ofNat (k + 1), perPage }).toInt = k * perPage.toInt := by
  have hpage : (Int64.ofNat (k + 1) - 1).toInt = k := by
    rw [Int64.toInt_sub, Int64.toInt_ofNat_of_lt hk]
    have hone : (1 : Int64).toInt = 1 := rfl
    rw [hone, Int.bmod_eq_of_le]
    · omega
    · omega
    · omega
  have h0 : 0 ≤ (k : Int) * perPage.toInt := by positivity
  unfold Pagination.offset
  rw [saturatingMul_toInt, hpage]
  · rw [hpage]
    exact h0
  · rw [hpage]
    exact h

/-- A page number from one on shows the rows behind the pages before it; where the offset saturates,
there are none. -/
theorem limitOffset_page {α : Type} {rows : List α} (hlength : rows.length < 2 ^ 63)
    {page perPage : Int64} (hpage : 1 ≤ page.toInt) (hp : 1 ≤ perPage.toInt) :
    limitOffset perPage (Pagination.offset { page, perPage }) rows =
      (rows.drop ((page.toInt.toNat - 1) * perPage.toInt.toNat)).take perPage.toInt.toNat := by
  have hbound := Int64.toInt_lt page
  obtain ⟨k, hk⟩ : ∃ k : Nat, page.toInt = k + 1 := ⟨page.toInt.toNat - 1, by omega⟩
  have hpageEq : page = Int64.ofNat (k + 1) := by
    rw [← Int64.toInt_inj, Int64.toInt_ofNat_of_lt (by omega), hk]
    exact (Int.natCast_succ k).symm
  obtain ⟨n, hn⟩ : ∃ n : Nat, perPage.toInt = n := ⟨perPage.toInt.toNat, by omega⟩
  have hk' : page.toInt.toNat - 1 = k := by omega
  unfold limitOffset
  rw [hk', hn, Int.toNat_natCast]
  by_cases hfits : (k : Int) * n < 2 ^ 63
  · have hoffset := @offset_toInt k perPage (by omega) hp (by rw [hn]; exact hfits)
    rw [hpageEq, hoffset, hn, ← Int.natCast_mul, Int.toNat_natCast]
  · have hsaturated : (Pagination.offset { page, perPage }).toInt = 2 ^ 63 - 1 := by
      have hminus : (page - 1).toInt = k := by
        have hone : (1 : Int64).toInt = 1 := rfl
        rw [Int64.toInt_sub, hk, hone, Int.bmod_eq_of_le]
        · omega
        · omega
        · omega
      unfold Pagination.offset saturatingMul
      dsimp only
      rw [hminus, hn, Int.min_eq_left (by omega), Int.max_eq_right (by omega)]
      rfl
    have hover : 2 ^ 63 ≤ k * n := by
      have : (2 ^ 63 : Int) ≤ ((k * n : Nat) : Int) := by
        rw [Int.natCast_mul]
        exact Int.not_lt.mp hfits
      exact_mod_cast this
    rw [hsaturated, List.drop_eq_nil_of_le (by omega), List.drop_eq_nil_of_le (by omega)]

/-- The number of pages that are read: none where the sum of `total_pages` overflows. -/
def pageCount (total perPage : Nat) : Nat :=
  if total = 0 then 1
  else if total + perPage ≤ 2 ^ 63 then (total + perPage - 1) / perPage
  else 0

/-- `total_items + per_page - 1` in 64 bits. -/
theorem wrapped_sum {total n : Nat} (ht : total < 2 ^ 63) (hn : n < 2 ^ 63) (hpos : 0 < n) :
    (((total : Int) + n).bmod (2 ^ 64) - 1).bmod (2 ^ 64) =
      if total + n ≤ 2 ^ 63 then (total : Int) + n - 1 else (total : Int) + n - 1 - 2 ^ 64 := by
  simp only [Int.bmod_def]
  split
  · omega
  · omega

theorem totalPages_toNat {α : Type} {paginated : Paginated α} {total n : Nat}
    (htotal : paginated.totalItems = Int64.ofNat total) (hlt : total < 2 ^ 63)
    (hn : paginated.perPage.toInt = n) (hpos : 0 < n) :
    paginated.totalPages.toInt.toNat = pageCount total n := by
  have hbound := Int64.toInt_lt paginated.perPage
  rw [hn] at hbound
  have htotalInt : paginated.totalItems.toInt = total := by
    rw [htotal, Int64.toInt_ofNat_of_lt hlt]
  have hzero : paginated.totalItems = 0 ↔ total = 0 := by
    rw [← Int64.toInt_inj, htotalInt]
    exact Int.natCast_eq_zero
  unfold Paginated.totalPages pageCount
  by_cases h0 : total = 0
  · rw [if_pos (hzero.mpr h0), if_pos h0]
    rfl
  rw [if_neg fun h => h0 (hzero.mp h), if_neg h0]
  have hne : paginated.perPage ≠ -1 := by
    intro h
    rw [h] at hn
    have hneg : (-1 : Int64).toInt = -1 := by decide
    omega
  have hone : (1 : Int64).toInt = 1 := rfl
  rw [Int64.toInt_div_of_ne_right _ _ hne, Int64.toInt_sub, Int64.toInt_add, htotalInt, hn, hone,
    wrapped_sum hlt (by omega) hpos]
  split
  · have hsum : (total : Int) + n - 1 = ((total + n - 1 : Nat) : Int) := by omega
    rw [hsum, ← Int.ofNat_tdiv, Int.toNat_natCast]
  · -- the wrapped sum is negative
    have hneg : (total : Int) + n - 1 - 2 ^ 64 = -((2 ^ 64 - (total + n - 1) : Nat) : Int) := by omega
    rw [hneg, Int.neg_tdiv, ← Int.ofNat_tdiv]
    exact Int.toNat_of_nonpos (neg_nonpos.mpr (Int.natCast_nonneg _))

/-- Every page but the first starts before the last counted row. -/
theorem mul_lt_of_lt_pageCount {total n i : Nat} (hpos : 0 < n) (h : i < pageCount total n) :
    i = 0 ∨ i * n < total := by
  unfold pageCount at h
  split at h
  · exact .inl (by omega)
  split at h
  · right
    have hle : i * n + n ≤ total + n - 1 := by
      calc i * n + n = (i + 1) * n := by ring
        _ ≤ (total + n - 1) / n * n := Nat.mul_le_mul_right n h
        _ ≤ total + n - 1 := Nat.div_mul_le_self _ _
    omega
  · omega

/-! ## What the pages show -/

section Pages

variable {α : Type} {list : Pagination → Except AppError (Paginated α)} {rows : List α}
  {perPage : Int64} {total : Nat}

/-- The pages of a list show the first rows, as many as the pages have. -/
theorem allPages_eq (hpos : 1 ≤ perPage) (htotal : total < 2 ^ 63)
    (hlist : ∀ page, 1 ≤ page → list { page, perPage } = .ok
      { items := limitOffset perPage (Pagination.offset { page, perPage }) rows
        page
        perPage
        totalItems := Int64.ofNat total }) :
    allPages list perPage = .ok
      (rows.take (pageCount total perPage.toInt.toNat * perPage.toInt.toNat),
        Int64.ofNat total) := by
  have hone : (1 : Int64).toInt = 1 := rfl
  have hp : 1 ≤ perPage.toInt := by
    rw [Int64.le_iff_toInt_le, hone] at hpos
    exact hpos
  obtain ⟨n, hn⟩ : ∃ n : Nat, perPage.toInt = n := ⟨perPage.toInt.toNat, by omega⟩
  have hn1 : 0 < n := by omega
  unfold allPages
  rw [hlist 1 (by decide), ok_bind, totalPages_toNat rfl htotal hn hn1, hn, Int.toNat_natCast,
    mapM_ok (g := fun i =>
      { items := (rows.drop (i * n)).take n, page := Int64.ofNat (i + 1), perPage,
        totalItems := Int64.ofNat total }), ok_bind, pure_ok]
  · rw [List.flatMap_map, flatMap_pages]
  intro i hi
  have hstart := mul_lt_of_lt_pageCount hn1 (List.mem_range.mp hi)
  have hi63 : i + 1 < 2 ^ 63 := by
    rcases hstart with h | h
    · omega
    · have := Nat.le_mul_of_pos_right i hn1
      omega
  have hoff : (i : Int) * perPage.toInt < 2 ^ 63 := by
    rw [hn]
    rcases hstart with h | h
    · simp [h]
    · have : i * n < 2 ^ 63 := by omega
      exact_mod_cast this
  rw [hlist]
  · have hto : (Pagination.offset { page := Int64.ofNat (i + 1), perPage }).toInt.toNat = i * n := by
      rw [offset_toInt hi63 hp hoff, hn]
      exact_mod_cast Int.toNat_natCast (i * n)
    simp only [limitOffset, hto, hn, Int.toNat_natCast]
  · rw [Int64.le_iff_toInt_le, hone, Int64.toInt_ofNat_of_lt hi63]
    omega

/-- Where the count is that of the rows and nothing overflows, the pages show all rows. -/
theorem le_pageCount_mul {total n : Nat} (hpos : 0 < n) (hfits : total + n ≤ 2 ^ 63) :
    total ≤ pageCount total n * n := by
  unfold pageCount
  split
  · omega
  · have hdiv := Nat.div_add_mod (total + n - 1) n
    have hmod := Nat.mod_lt (total + n - 1) hpos
    rw [Nat.mul_comm] at hdiv
    omega

/-- The pages hold no more than a part of a page too many. -/
theorem pageCount_mul_eq {total n : Nat} (hpos : 0 < n) (hfits : total + n ≤ 2 ^ 63) :
    pageCount total n * n = total ↔ 0 < total ∧ n ∣ total := by
  unfold pageCount
  split
  · omega
  · constructor
    · intro h
      exact ⟨by omega, Dvd.intro_left _ h⟩
    · rintro ⟨h0, k, rfl⟩
      have hk : (n * k + n - 1) / n = k := by
        rw [Nat.div_eq_iff hpos]
        rw [Nat.mul_comm n k]
        omega
      rw [hk, Nat.mul_comm]

end Pages

/-! ## The order of the rows -/

theorem recentFirst_total (p q : Project) : recentFirst p q = true ∨ recentFirst q p = true := by
  unfold recentFirst
  split <;> split <;> simp only [decide_eq_true_eq] <;> omega

theorem recentFirst_trans (p q r : Project) (hpq : recentFirst p q = true)
    (hqr : recentFirst q r = true) : recentFirst p r = true := by
  unfold recentFirst at *
  split at hpq <;> split at hqr <;> split <;> simp only [decide_eq_true_eq] at * <;> omega

theorem id_eq_of_recentFirst {p q : Project} (hpq : recentFirst p q = true)
    (hqp : recentFirst q p = true) : p.id = q.id := by
  unfold recentFirst at *
  split at hpq <;> split at hqp <;> simp only [decide_eq_true_eq] at * <;> omega

/-- The rows of `projects` have the distinct positive keys of 64 bits that SQLite gives them. -/
structure Stored (db : Db) : Prop where
  ids : (db.projects.map (·.id)).Nodup
  range : ∀ p ∈ db.projects, 0 < p.id ∧ p.id < 2 ^ 63

theorem length_lt_of_ids {ids : List Int} (hnodup : ids.Nodup)
    (hrange : ∀ id ∈ ids, 0 < id ∧ id < 2 ^ 63) : ids.length < 2 ^ 63 := by
  have hsub : ids.toFinset ⊆ Finset.Ioo (0 : Int) (2 ^ 63) := by
    intro id hid
    exact Finset.mem_Ioo.mpr (hrange id (List.mem_toFinset.mp hid))
  have hcard := Finset.card_le_card hsub
  rw [List.toFinset_card_of_nodup hnodup, Int.card_Ioo] at hcard
  omega

theorem Stored.length_lt {db : Db} (h : Stored db) : db.projects.length < 2 ^ 63 := by
  rw [← List.length_map (·.id)]
  exact length_lt_of_ids h.ids (List.forall_mem_map.mpr h.range)

/-- The projects, newest first. -/
def Db.recent (db : Db) : List Project := orderBy recentFirst db.projects

section Rows

variable {db : Db} (hdb : Stored db)
include hdb

theorem orderBy_projects (keep : Project → Bool) :
    orderBy recentFirst (db.projects.filter keep) = db.recent.filter keep := by
  apply orderBy_filter keep recentFirst_total recentFirst_trans
  intro p hp q hq hpq hqp
  exact eq_of_key hdb.ids hp hq (id_eq_of_recentFirst hpq hqp)

theorem length_filter_lt (keep : Project → Bool) : (db.projects.filter keep).length < 2 ^ 63 :=
  (List.length_filter_le _ _).trans_lt hdb.length_lt

end Rows

theorem length_recent (db : Db) (keep : Project → Bool) :
    (db.projects.filter keep).length = (db.recent.filter keep).length :=
  (((List.perm_insertionSort _ _).filter keep).length_eq).symm

theorem mem_recent {db : Db} {p : Project} : p ∈ db.recent ↔ p ∈ db.projects := mem_orderBy

theorem nodup_summaries {db : Db} (hdb : Stored db) : (db.recent.map db.summary).Nodup := by
  have hids : (db.recent.map (·.id)).Nodup :=
    ((List.perm_insertionSort _ _).map _).nodup_iff.mpr hdb.ids
  apply List.Nodup.of_map (·.id)
  rw [List.map_map]
  exact hids

theorem eq_of_summary {db : Db} (hdb : Stored db) {p q : Project} (hp : p ∈ db.recent)
    (hq : q ∈ db.recent) (h : db.summary p = db.summary q) : p = q :=
  eq_of_key hdb.ids (mem_recent.mp hp) (mem_recent.mp hq) (congrArg ProjectSummary.id h)

/-! ## Members and administrators -/

/-- What the pages of a member should show: the administrator's list, less the projects that the
user is not a member of, with as many rows as the first page announces. -/
def PagesShowMembership (db : Db) (userId : Int) (isSuperAdmin : Bool) (filter : ProjectListFilter)
    (perPage : Int64) : Prop :=
  ∃ admin items totalItems,
    listProjectSummariesPaginated db filter { page := 1, perPage := Int64.maxValue } = .ok admin ∧
    allPages (listProjectSummariesForUserPaginated db userId isSuperAdmin filter) perPage =
      .ok (items, totalItems) ∧
    items = admin.items.filter (fun p => db.isMember p.id userId) ∧ items.Nodup ∧
    (items.length : Int) = totalItems.toInt

/-- The projects of a member that the filter asks for. -/
def Db.matching (db : Db) (userId : Int) (filter : NormalizedProjectFilter) : List Project :=
  db.projects.filter fun p =>
    db.isMember p.id userId && filter.hasStatus p && filter.hasKeyword p

/-- The rows of a member's listing: the keyword is not looked at. -/
def Db.listed (db : Db) (userId : Int) (filter : NormalizedProjectFilter) : List Project :=
  db.recent.filter fun p => db.isMember p.id userId && filter.hasStatus p

/-- The page numbers do not overflow, and the projects of the status that the keyword does not match
stay off the pages: there are none, or the matching ones are the newest and fill whole pages. For an
administrator, who is shown every project, each listed project must have the user as a member. -/
def PagesFit (db : Db) (userId : Int) (filter : NormalizedProjectFilter) (perPage : Int64) :
    Bool → Prop
  | true =>
    ((db.projects.filter fun p => filter.hasStatus p && filter.hasKeyword p).length : Int)
        + perPage.toInt ≤ 2 ^ 63 ∧
      ∀ p ∈ db.projects, filter.hasStatus p = true → filter.hasKeyword p = true →
        db.isMember p.id userId = true
  | false =>
    ((db.matching userId filter).length : Int) + perPage.toInt ≤ 2 ^ 63 ∧
      ((∀ p ∈ db.listed userId filter, filter.hasKeyword p = true) ∨
        (0 < (db.matching userId filter).length ∧
          perPage.toInt.toNat ∣ (db.matching userId filter).length ∧
          ∀ p ∈ (db.listed userId filter).take (db.matching userId filter).length,
            filter.hasKeyword p = true))

theorem normalizePagination_ok {page perPage : Int64} (hpage : 1 ≤ page) (hpos : 1 ≤ perPage) :
    normalizePagination { page, perPage } = .ok { page, perPage } := by
  unfold normalizePagination
  rw [rejectIf_neg (Int64.not_lt.mpr hpage), ok_bind, rejectIf_neg (Int64.not_lt.mpr hpos), ok_bind,
    pure_ok]

theorem map_limitOffset {α β : Type} (f : α → β) (limit offset : Int64) (rows : List α) :
    (limitOffset limit offset rows).map f = limitOffset limit offset (rows.map f) := by
  simp only [limitOffset, List.map_take, List.map_drop]

/-- The rows of a member that match, counted on the pages and in the table. -/
theorem length_matching (db : Db) (userId : Int) (normalized : NormalizedProjectFilter) :
    (db.matching userId normalized).length =
      ((db.listed userId normalized).filter normalized.hasKeyword).length := by
  unfold Db.matching Db.listed
  rw [length_recent, List.filter_filter]
  congr 1
  apply List.filter_congr
  intro p _
  exact Bool.and_comm _ _

section Lists

variable {db : Db} {userId : Int} {filter : ProjectListFilter} {normalized : NormalizedProjectFilter}
  {perPage : Int64} (hdb : Stored db) (hfilter : normalizeProjectFilter filter = .ok normalized)
include hdb

/-- A page of the projects that meet `keep`. -/
theorem projectPage_eq (keep : Project → Bool) (pagination : Pagination) :
    db.projectPage keep pagination = limitOffset pagination.perPage pagination.offset
      ((db.recent.filter keep).map db.summary) := by
  unfold Db.projectPage
  rw [orderBy_projects hdb, map_limitOffset]

/-- A page that holds every row. -/
theorem wholePage (keep : Project → Bool) :
    db.projectPage keep { page := 1, perPage := Int64.maxValue } =
      (db.recent.filter keep).map db.summary := by
  rw [projectPage_eq hdb]
  have hoffset : (Pagination.offset { page := 1, perPage := Int64.maxValue }).toInt.toNat = 0 := by
    decide
  have hmax : Int64.maxValue.toInt.toNat = 2 ^ 63 - 1 := by decide
  unfold limitOffset
  rw [hoffset, List.drop_zero, hmax]
  apply List.take_of_length_le
  have hlen := length_filter_lt hdb keep
  rw [length_recent] at hlen
  rw [List.length_map]
  omega

include hfilter

theorem adminPages_eq (hpos : 1 ≤ perPage) :
    let keep := fun p => normalized.hasStatus p && normalized.hasKeyword p
    allPages (listProjectSummariesPaginated db filter) perPage = .ok
      (((db.recent.filter keep).map db.summary).take
          (pageCount (db.projects.filter keep).length perPage.toInt.toNat * perPage.toInt.toNat),
        Int64.ofNat (db.projects.filter keep).length) := by
  apply allPages_eq hpos (length_filter_lt hdb _)
  intro page hpage
  unfold listProjectSummariesPaginated
  rw [hfilter, ok_bind, normalizePagination_ok hpage hpos, ok_bind, projectPage_eq hdb]
  rfl

theorem memberPages_eq (hpos : 1 ≤ perPage) :
    allPages (listProjectSummariesForUserPaginated db userId false filter) perPage = .ok
      (((db.listed userId normalized).map db.summary).take
          (pageCount (db.matching userId normalized).length perPage.toInt.toNat
            * perPage.toInt.toNat),
        Int64.ofNat (db.matching userId normalized).length) := by
  apply allPages_eq hpos (length_filter_lt hdb _)
  intro page hpage
  unfold listProjectSummariesForUserPaginated
  rw [if_neg Bool.false_ne_true, hfilter, ok_bind, normalizePagination_ok hpage hpos, ok_bind,
    projectPage_eq hdb]
  rfl

/-- The administrator's list without the projects of others. -/
theorem adminList_filter :
    ∃ admin, listProjectSummariesPaginated db filter { page := 1, perPage := Int64.maxValue } =
        .ok admin ∧
      admin.items.filter (fun p => db.isMember p.id userId) =
        (((db.listed userId normalized).filter normalized.hasKeyword).map db.summary) := by
  have hlist : listProjectSummariesPaginated db filter { page := 1, perPage := Int64.maxValue } =
      .ok
        { items := (db.recent.filter fun p =>
            normalized.hasStatus p && normalized.hasKeyword p).map db.summary
          page := 1
          perPage := Int64.maxValue
          totalItems := countProjectSummaries db normalized } := by
    unfold listProjectSummariesPaginated
    rw [hfilter, ok_bind, normalizePagination_ok (by decide) (by decide), ok_bind, wholePage hdb]
    rfl
  refine ⟨_, hlist, ?_⟩
  simp only [List.filter_map, Db.listed, List.filter_filter]
  congr 1
  apply List.filter_congr
  intro p _
  have hid : (db.summary p).id = p.id := rfl
  simp only [Function.comp_apply, hid]
  cases db.isMember p.id userId <;> cases normalized.hasStatus p <;>
    cases normalized.hasKeyword p <;> rfl

end Lists

/-- Pages of `rows` that hold the rows that meet `q`, each once, and as many as were counted. -/
def PagesShow (db : Db) (rows : List Project) (q : Project → Bool) (total n : Nat) : Prop :=
  (rows.map db.summary).take (pageCount total n * n) = (rows.filter q).map db.summary ∧
    ((rows.map db.summary).take (pageCount total n * n)).length = total

section Shown

variable {db : Db} {rows : List Project} {q : Project → Bool} {total n : Nat}

theorem PagesShow.fits (h : PagesShow db rows q total n) (hn : n < 2 ^ 63) : total + n ≤ 2 ^ 63 := by
  by_contra hover
  have hnone : pageCount total n = 0 := by
    unfold pageCount
    rw [if_neg (by omega), if_neg hover]
  have hlen := h.2
  rw [hnone, Nat.zero_mul, List.take_zero, List.length_nil] at hlen
  omega

variable (hdb : Stored db) (hrows : ∀ p ∈ rows, p ∈ db.recent) (hn : 0 < n)
include hdb hrows hn

/-- With the rows that meet `q` counted. -/
theorem pagesShow_counted (htotal : total = (rows.filter q).length) (hfits : total + n ≤ 2 ^ 63) :
    PagesShow db rows q total n ↔ (∀ p ∈ rows, q p = true) ∨
      (0 < total ∧ n ∣ total ∧ ∀ p ∈ rows.take total, q p = true) := by
  have hle := le_pageCount_mul hn hfits
  have heq : PagesShow db rows q total n ↔ rows.take (pageCount total n * n) = rows.filter q := by
    unfold PagesShow
    rw [← List.map_take]
    constructor
    · rintro ⟨h, -⟩
      refine eq_of_map_eq ?_ h
      intro a ha b hb hab
      exact eq_of_summary hdb (hrows a (List.mem_of_mem_take ha))
        (hrows b (List.mem_filter.mp hb).1) hab
    · intro h
      rw [h]
      exact ⟨rfl, by rw [List.length_map, htotal]⟩
  rw [heq, take_eq_filter_iff (by omega), ← htotal, pageCount_mul_eq hn hfits, and_assoc]

/-- With all rows counted. -/
theorem pagesShow_all (htotal : total = rows.length) (hfits : total + n ≤ 2 ^ 63) :
    PagesShow db rows q total n ↔ ∀ p ∈ rows, q p = true := by
  have hle := le_pageCount_mul hn hfits
  have hwhole : (rows.map db.summary).take (pageCount total n * n) = rows.map db.summary := by
    apply List.take_of_length_le
    rw [List.length_map]
    omega
  unfold PagesShow
  rw [hwhole, ← List.filter_eq_self]
  constructor
  · rintro ⟨h, -⟩
    refine (eq_of_map_eq ?_ h).symm
    intro a ha b hb hab
    exact eq_of_summary hdb (hrows a ha) (hrows b (List.mem_filter.mp hb).1) hab
  · intro h
    rw [h]
    exact ⟨rfl, by rw [List.length_map, htotal]⟩

end Shown

/-- The pages of a list, from the rows that they are made of. -/
theorem pagesShowMembership_iff {db : Db} (hdb : Stored db) {userId : Int} {isSuperAdmin : Bool}
    {filter : ProjectListFilter} {normalized : NormalizedProjectFilter} {perPage : Int64}
    (hfilter : normalizeProjectFilter filter = .ok normalized) {rows : List Project}
    {q : Project → Bool} {total : Nat} (htotal : total < 2 ^ 63) (hsub : rows.Sublist db.recent)
    (hpages : allPages (listProjectSummariesForUserPaginated db userId isSuperAdmin filter) perPage =
      .ok ((rows.map db.summary).take
        (pageCount total perPage.toInt.toNat * perPage.toInt.toNat), Int64.ofNat total))
    (hq : rows.filter q = (db.listed userId normalized).filter normalized.hasKeyword) :
    PagesShowMembership db userId isSuperAdmin filter perPage ↔
      PagesShow db rows q total perPage.toInt.toNat := by
  obtain ⟨admin, hadmin, hitems⟩ := @adminList_filter db userId filter normalized hdb hfilter
  have hcount : (Int64.ofNat total).toInt = total := Int64.toInt_ofNat_of_lt htotal
  unfold PagesShowMembership PagesShow
  rw [hpages, hadmin, hq]
  constructor
  · rintro ⟨admin', items, totalItems, ha, hp, h1, -, h2⟩
    cases ha
    cases hp
    rw [hcount] at h2
    exact ⟨h1.trans hitems, by exact_mod_cast h2⟩
  · rintro ⟨h1, h2⟩
    refine ⟨admin, _, _, rfl, rfl, h1.trans hitems.symm, ?_, ?_⟩
    · exact ((nodup_summaries hdb).sublist (hsub.map _)).sublist (List.take_sublist _ _)
    · rw [hcount, h2]

section Fits

variable {db : Db} (hdb : Stored db) {userId : Int} {filter : ProjectListFilter}
  {normalized : NormalizedProjectFilter} {perPage : Int64}
  (hfilter : normalizeProjectFilter filter = .ok normalized) (hpos : 1 ≤ perPage)
include hdb hfilter hpos

theorem member_pages_fit :
    PagesShowMembership db userId false filter perPage ↔
      PagesFit db userId normalized perPage false := by
  have hp : 1 ≤ perPage.toInt := Int64.le_iff_toInt_le.mp hpos
  have hbound := Int64.toInt_lt perPage
  have hshow : PagesShowMembership db userId false filter perPage ↔
      PagesShow db (db.listed userId normalized) normalized.hasKeyword
        (db.matching userId normalized).length perPage.toInt.toNat :=
    pagesShowMembership_iff hdb hfilter (length_filter_lt hdb _) List.filter_sublist
      (memberPages_eq hdb hfilter hpos) rfl
  have hmem : ∀ p ∈ db.listed userId normalized, p ∈ db.recent :=
    fun p h => (List.mem_filter.mp h).1
  rw [hshow]
  unfold PagesFit
  by_cases hfits : (db.matching userId normalized).length + perPage.toInt.toNat ≤ 2 ^ 63
  · rw [pagesShow_counted hdb hmem (by omega) (length_matching db userId normalized) hfits]
    constructor
    · exact fun h => ⟨by omega, h⟩
    · exact fun h => h.2
  · constructor
    · exact fun h => absurd (h.fits (by omega)) hfits
    · exact fun h => absurd (by omega) hfits

theorem administrator_pages_fit :
    PagesShowMembership db userId true filter perPage ↔
      PagesFit db userId normalized perPage true := by
  have hp : 1 ≤ perPage.toInt := Int64.le_iff_toInt_le.mp hpos
  have hbound := Int64.toInt_lt perPage
  let keep := fun p : Project => normalized.hasStatus p && normalized.hasKeyword p
  have hkept : (db.recent.filter keep).filter (fun p => db.isMember p.id userId) =
      (db.listed userId normalized).filter normalized.hasKeyword := by
    unfold Db.listed
    rw [List.filter_filter, List.filter_filter]
    apply List.filter_congr
    intro p _
    simp only [keep]
    cases db.isMember p.id userId <;> cases normalized.hasStatus p <;>
      cases normalized.hasKeyword p <;> rfl
  have hshow : PagesShowMembership db userId true filter perPage ↔
      PagesShow db (db.recent.filter keep) (fun p => db.isMember p.id userId)
        (db.projects.filter keep).length perPage.toInt.toNat :=
    pagesShowMembership_iff hdb hfilter (length_filter_lt hdb _) List.filter_sublist
      (adminPages_eq hdb hfilter hpos) hkept
  have hmem : ∀ p ∈ db.recent.filter keep, p ∈ db.recent := fun p h => (List.mem_filter.mp h).1
  rw [hshow]
  unfold PagesFit
  change _ ↔ ((db.projects.filter keep).length : Int) + perPage.toInt ≤ 2 ^ 63 ∧ _
  by_cases hfits : (db.projects.filter keep).length + perPage.toInt.toNat ≤ 2 ^ 63
  · rw [pagesShow_all hdb hmem (by omega) (length_recent db keep) hfits]
    constructor
    · intro h
      refine ⟨by omega, ?_⟩
      intro p hp hstatus hkeyword
      exact h p (List.mem_filter.mpr ⟨mem_recent.mpr hp, by simp [keep, hstatus, hkeyword]⟩)
    · rintro ⟨-, h⟩ p hp
      obtain ⟨hp, hk⟩ := List.mem_filter.mp hp
      rw [Bool.and_eq_true] at hk
      exact h p (mem_recent.mp hp) hk.1 hk.2
  · constructor
    · exact fun h => absurd (h.fits (by omega)) hfits
    · exact fun h => absurd (by omega) hfits

end Fits

/-- The pages of a member show the member's part of the administrator's list exactly where the
projects that the keyword leaves out do not come onto them. -/
theorem member_pages_are_complete (db : Db) (hdb : Stored db) (userId : Int) (isSuperAdmin : Bool)
    (filter : ProjectListFilter) (normalized : NormalizedProjectFilter)
    (hfilter : normalizeProjectFilter filter = .ok normalized) (perPage : Int64)
    (hpos : 1 ≤ perPage) :
    PagesShowMembership db userId isSuperAdmin filter perPage ↔
      PagesFit db userId normalized perPage isSuperAdmin := by
  cases isSuperAdmin with
  | true => exact administrator_pages_fit hdb hfilter hpos
  | false => exact member_pages_fit hdb hfilter hpos

def sampleProject (id : Int) (name : String) : Project where
  id := id
  projectKey := "P" ++ toString id
  name := name
  description := ""
  status := .inProgress
  ownerUserId := some 1
  startDate := none
  dueDate := none
  updatedAt := id

/-- Three projects, two of them with the first user as a member. -/
def sampleDb : Db where
  users := [⟨1, "alice", "Alice", true⟩]
  projects := [sampleProject 1 "alpha", sampleProject 2 "beta", sampleProject 3 "alphabet"]
  nextProject := 4
  members := [⟨1, 1, .owner, 0⟩, ⟨2, 1, .member, 0⟩]
  workItems := []
  nextWorkItem := 1
  cycles := []
  comments := []
  activities := []
  unavailable := []

theorem stored_sampleDb : Stored sampleDb where
  ids := by decide
  range := by decide

theorem pages_without_keyword_are_complete :
    PagesShowMembership sampleDb 1 false { status := "", keyword := "" } 1 := by
  have hfilter : normalizeProjectFilter { status := "", keyword := "" } =
      .ok { status := none, keyword := "", keywordLike := "" } := rfl
  rw [member_pages_are_complete sampleDb stored_sampleDb 1 false _ _ hfilter 1 (by decide)]
  refine ⟨by decide +kernel, .inl ?_⟩
  intro p _
  rfl

/-- The member's only page shows the newest project, which the keyword does not match. -/
theorem keyword_is_not_applied :
    ∃ db userId filter perPage, Stored db ∧ 1 ≤ perPage ∧
      (normalizeProjectFilter filter).toOption.isSome = true ∧
      ¬PagesShowMembership db userId false filter perPage := by
  refine ⟨sampleDb, 1, { status := "", keyword := "alpha" }, 1, stored_sampleDb, by decide,
    by decide +kernel, ?_⟩
  rintro ⟨admin, items, totalItems, hadmin, hpages, hitems, -, -⟩
  have hshown : (allPages (listProjectSummariesForUserPaginated sampleDb 1 false
      { status := "", keyword := "alpha" }) 1).toOption.map (fun r => r.1.map (·.name)) =
      some ["beta"] := by
    decide +kernel
  have hasked : (listProjectSummariesPaginated sampleDb { status := "", keyword := "alpha" }
      { page := 1, perPage := Int64.maxValue }).toOption.map (fun r =>
        (r.items.filter fun p => sampleDb.isMember p.id 1).map (·.name)) = some ["alpha"] := by
    decide +kernel
  rw [hpages] at hshown
  rw [hadmin] at hasked
  have h1 : items.map (·.name) = ["beta"] := Option.some.inj hshown
  have h2 : (admin.items.filter fun p => sampleDb.isMember p.id 1).map (·.name) = ["alpha"] :=
    Option.some.inj hasked
  rw [← hitems, h1] at h2
  exact absurd h2 (by decide)

end Projects
end Yuance
