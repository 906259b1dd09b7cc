import Yuance.Releases.Model

/-!
# Yuance.Releases.Reading

What the calls that only read return, made alone: the detail of a release, the release of the
download page, and the two checks of a download.

* `getLatestPublishedReleaseDetail_ok`: the newest release whose downloads are complete.
* `not_offered`: a withdrawn release is not offered for download.
-/

namespace Yuance
namespace Releases

open Lib Platform Files

/-- The call, made alone at the moment `m`. -/
abbrev alone {α : Type} (m : Moment) (p : Task α) (db : Db) : Db × Except AppError α :=
  Call.solo perform m p db

section Select

variable {db : Db}

theorem select_id {id : Int} {r : Release} (h : db.select id = some r) : r.id = id := by
  have := List.find?_some h
  simpa using this

theorem select_mem {id : Int} {r : Release} (h : db.select id = some r) : r ∈ db.releases :=
  List.mem_of_find?_eq_some h

theorem select_of_mem (hids : (db.releases.map (·.id)).Nodup) {r : Release} (h : r ∈ db.releases) :
    db.select r.id = some r := by
  cases hs : db.select r.id with
  | none =>
    have := List.find?_eq_none.mp hs r h
    simp at this
  | some r' =>
    rw [eq_of_key hids (select_mem hs) h (select_id hs)]

end Select

section Alone

variable {m : Moment} {db db' : Db}

theorem query_ok {s : Statement} {a : s.Answer} :
    alone m (query s) db = (db', .ok a) ↔
      m.fault = none ∧ execute m.now db s = (db', .ok a) := by
  unfold alone query
  rw [Call.solo_make_ok, perform]
  cases m.fault with
  | none => simp
  | some e => simp

/-- A statement that only reads. -/
theorem read_ok {s : Statement} {a b : s.Answer} (h : execute m.now db s = (db, .ok b)) :
    alone m (query s) db = (db', .ok a) ↔ m.fault = none ∧ b = a ∧ db' = db := by
  rw [query_ok, h, Prod.mk.injEq, Except.ok.injEq]
  constructor
  · rintro ⟨hm, rfl, rfl⟩
    exact ⟨hm, rfl, rfl⟩
  · rintro ⟨hm, rfl, rfl⟩
    exact ⟨hm, rfl, rfl⟩

theorem listReleaseAssets_ok {id : Int} {assets : List AssetSummary} :
    alone m (listReleaseAssets id) db = (db', .ok assets) ↔
      0 < id ∧ m.fault = none ∧ db.assetsOf id = assets ∧ db' = db := by
  unfold alone listReleaseAssets
  rw [Call.solo_bind_ok]
  simp only [Call.solo_rejectIf_ok]
  constructor
  · rintro ⟨_, _, ⟨hid, rfl⟩, hread⟩
    exact ⟨by omega, (read_ok rfl).mp hread⟩
  · rintro ⟨hid, hread⟩
    exact ⟨db, (), ⟨by omega, rfl⟩, (read_ok rfl).mpr hread⟩

/-- The release and its assets as they are. -/
def Db.detail (db : Db) (id : Int) : Option ReleaseDetail :=
  (db.select id).map fun r => ⟨r, db.assetsOf id⟩

theorem getReleaseDetail_ok {id : Int} {o : Option ReleaseDetail} :
    alone m (getReleaseDetail id) db = (db', .ok o) ↔
      0 < id ∧ m.fault = none ∧ db.detail id = o ∧ db' = db := by
  unfold alone getReleaseDetail
  rw [Call.solo_bind_ok]
  simp only [Call.solo_rejectIf_ok, Call.solo_bind_ok]
  constructor
  · rintro ⟨_, _, ⟨hid, rfl⟩, _, r, hread, hrest⟩
    obtain ⟨hm, rfl, rfl⟩ := (read_ok rfl).mp hread
    refine ⟨by omega, hm, ?_⟩
    unfold Db.detail
    cases hs : Db.select _ id with
    | none =>
      rw [hs] at hrest
      exact Call.solo_done_ok.mp hrest
    | some r =>
      rw [hs] at hrest
      obtain ⟨_, assets, hassets, hrest⟩ := Call.solo_bind_ok.mp hrest
      obtain ⟨-, -, rfl, rfl⟩ := listReleaseAssets_ok.mp hassets
      exact Call.solo_done_ok.mp hrest
  · rintro ⟨hid, hm, rfl, rfl⟩
    refine ⟨db', (), ⟨by omega, rfl⟩, db', db'.select id, (read_ok rfl).mpr ⟨hm, rfl, rfl⟩, ?_⟩
    unfold Db.detail
    cases db'.select id with
    | none => exact Call.solo_done_ok.mpr ⟨rfl, rfl⟩
    | some r =>
      refine Call.solo_bind_ok.mpr ⟨db', _, listReleaseAssets_ok.mpr ⟨hid, hm, rfl, rfl⟩, ?_⟩
      exact Call.solo_done_ok.mpr ⟨rfl, rfl⟩

/-- The detail of a release whose downloads are complete. -/
def Db.completeDetail (db : Db) (id : Int) : Option ReleaseDetail :=
  (db.detail id).filter fun detail => hasCompleteDesktopDownloads detail.assets

theorem firstComplete_result {ids : List Int} {o : Option ReleaseDetail}
    (h : alone m (firstComplete ids) db = (db', .ok o)) :
    ids.findSome? db.completeDetail = o ∧ db' = db := by
  induction ids with
  | nil => exact Call.solo_done_ok.mp h
  | cons id rest ih =>
    obtain ⟨_, detail, hdetail, hrest⟩ := Call.solo_bind_ok.mp h
    obtain ⟨-, -, rfl, rfl⟩ := getReleaseDetail_ok.mp hdetail
    rw [List.findSome?_cons, Db.completeDetail]
    cases hd : Db.detail _ id with
    | none =>
      rw [hd] at hrest
      exact ih hrest
    | some detail =>
      rw [hd] at hrest
      dsimp only at hrest
      by_cases hcomplete : hasCompleteDesktopDownloads detail.assets = true
      · rw [if_pos hcomplete] at hrest
        rw [Option.filter_some, if_pos hcomplete]
        exact Call.solo_done_ok.mp hrest
      · rw [if_neg hcomplete] at hrest
        rw [Option.filter_some, if_neg hcomplete]
        exact ih hrest

theorem firstComplete_returns {ids : List Int} (hm : m.fault = none) (hids : ∀ id ∈ ids, 0 < id) :
    alone m (firstComplete ids) db = (db, .ok (ids.findSome? db.completeDetail)) := by
  induction ids with
  | nil => rfl
  | cons id rest ih =>
    have hrest := ih fun x hx => hids x (List.mem_cons_of_mem _ hx)
    have hdetail : alone m (getReleaseDetail id) db = (db, .ok (db.detail id)) :=
      getReleaseDetail_ok.mpr ⟨hids id List.mem_cons_self, hm, rfl, rfl⟩
    refine Call.solo_bind_ok.mpr ⟨db, _, hdetail, ?_⟩
    rw [List.findSome?_cons, Db.completeDetail]
    cases db.detail id with
    | none => exact hrest
    | some detail =>
      dsimp only
      by_cases hcomplete : hasCompleteDesktopDownloads detail.assets = true
      · rw [if_pos hcomplete, Option.filter_some, if_pos hcomplete]
        rfl
      · rw [if_neg hcomplete, Option.filter_some, if_neg hcomplete]
        exact hrest

/-- The newest release whose downloads are complete. -/
def Db.latest (db : Db) : Option ReleaseDetail := db.publishedIds.findSome? db.completeDetail

theorem getLatestPublishedReleaseDetail_ok {o : Option ReleaseDetail}
    (hids : ∀ id ∈ db.publishedIds, 0 < id) :
    alone m getLatestPublishedReleaseDetail db = (db', .ok o) ↔
      m.fault = none ∧ db.latest = o ∧ db' = db := by
  unfold alone getLatestPublishedReleaseDetail
  rw [Call.solo_bind_ok]
  constructor
  · rintro ⟨_, ids, hread, hrest⟩
    obtain ⟨hm, rfl, rfl⟩ := (read_ok rfl).mp hread
    exact ⟨hm, firstComplete_result hrest⟩
  · rintro ⟨hm, rfl, rfl⟩
    exact ⟨db', _, (read_ok rfl).mpr ⟨hm, rfl, rfl⟩, firstComplete_returns hm hids⟩

theorem mem_publishedIds {id : Int} :
    id ∈ db.publishedIds ↔ ∃ r ∈ db.releases, r.id = id ∧ Db.isListed r = true ∧
      (r.channel = .legacy ∨ r.verification = .verified) := by
  unfold Db.publishedIds
  simp only [List.mem_map, mem_orderBy, List.mem_filter, Bool.and_eq_true, Bool.or_eq_true,
    beq_iff_eq]
  constructor
  · rintro ⟨r, ⟨hmem, hlisted, hchannel⟩, rfl⟩
    exact ⟨r, hmem, rfl, hlisted, hchannel⟩
  · rintro ⟨r, hmem, rfl, hlisted, hchannel⟩
    exact ⟨r, ⟨hmem, hlisted, hchannel⟩, rfl⟩

end Alone

/-- No call that starts now offers the release for download. -/
def NotOffered (db : Db) (id : Int) : Prop :=
  ∀ m, (∀ assetId asset, (alone m (getPublishedReleaseAsset id assetId) db).2 ≠ .ok asset) ∧
    (alone m (ensureReleaseAllowsDownload id) db).2 ≠ .ok () ∧
    ∀ detail, (alone m getLatestPublishedReleaseDetail db).2 = .ok (some detail) →
      detail.release.id ≠ id

section Withdrawn

variable {m : Moment} {db : Db} {id : Int} {r : Release}

theorem eq_of_answer {α : Type} {p : Task α} {x : Except AppError α} (h : (alone m p db).2 = x) :
    alone m p db = ((alone m p db).1, x) := by
  rw [← h]

theorem isListed_withdrawn (hw : r.withdrawnAt.isSome = true) : Db.isListed r = false := by
  unfold Db.isListed
  cases hr : r.withdrawnAt with
  | none =>
    rw [hr] at hw
    cases hw
  | some t => simp

theorem published_asset_refused (hr : db.select id = some r) (hw : r.withdrawnAt.isSome = true)
    (assetId : Int) (asset : AssetSummary) :
    (alone m (getPublishedReleaseAsset id assetId) db).2 ≠ .ok asset := by
  intro h
  have h := eq_of_answer h
  unfold alone getPublishedReleaseAsset getReleaseAsset at h
  simp only [Call.solo_bind_ok, Call.solo_rejectIf_ok, Call.solo_okOr_ok] at h
  obtain ⟨_, _, ⟨_, _, ⟨-, rfl⟩, _, _, hread, -, rfl⟩, _, release, hselect, _, _, ⟨hchecked, -⟩, -⟩ := h
  obtain ⟨-, -, rfl⟩ := (read_ok rfl).mp hread
  obtain ⟨-, rfl, rfl⟩ := (read_ok rfl).mp hselect
  apply hchecked
  simp [hr, isPublished, isListed_withdrawn hw]

theorem download_refused (hr : db.select id = some r) (hw : r.withdrawnAt.isSome = true) :
    (alone m (ensureReleaseAllowsDownload id) db).2 ≠ .ok () := by
  intro h
  have h := eq_of_answer h
  unfold alone ensureReleaseAllowsDownload at h
  simp only [Call.solo_bind_ok, Call.solo_rejectIf_ok, Call.solo_okOr_ok] at h
  obtain ⟨_, release, hselect, _, state, ⟨hstate, rfl⟩, hchecked, -⟩ := h
  obtain ⟨-, rfl, rfl⟩ := (read_ok rfl).mp hselect
  obtain rfl := Option.some.inj (hr.symm.trans hstate)
  exact hchecked hw

theorem latest_release_id {detail : ReleaseDetail}
    (h : (alone m getLatestPublishedReleaseDetail db).2 = .ok (some detail)) :
    detail.release.id ∈ db.publishedIds := by
  have h := eq_of_answer h
  obtain ⟨_, ids, hread, hrest⟩ := Call.solo_bind_ok.mp h
  obtain ⟨-, rfl, rfl⟩ := (read_ok rfl).mp hread
  obtain ⟨hsome, -⟩ := firstComplete_result hrest
  obtain ⟨id, hmem, hid⟩ := List.exists_of_findSome?_eq_some hsome
  obtain ⟨hdetail, -⟩ := Option.filter_eq_some_iff.mp hid
  obtain ⟨r, hr, rfl⟩ := Option.map_eq_some_iff.mp hdetail
  rw [show (⟨r, _⟩ : ReleaseDetail).release.id = id from select_id hr]
  exact hmem

theorem not_offered (hids : (db.releases.map (·.id)).Nodup) (hr : db.select id = some r)
    (hw : r.withdrawnAt.isSome = true) : NotOffered db id := by
  intro m
  refine ⟨published_asset_refused hr hw, download_refused hr hw, ?_⟩
  rintro detail hlatest rfl
  obtain ⟨r', hmem, hid, hlisted, -⟩ := mem_publishedIds.mp (latest_release_id hlatest)
  have hsel := select_of_mem hids hmem
  rw [hid, hr] at hsel
  obtain rfl := Option.some.inj hsel
  rw [isListed_withdrawn hw] at hlisted
  cases hlisted

end Withdrawn

end Releases
end Yuance
