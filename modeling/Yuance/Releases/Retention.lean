import Yuance.Releases.Pruning
import Yuance.Releases.Reading

/-!
# Yuance.Releases.Retention

Pruning and the download page. Publishing a release, and setting the retention count, removes the
published releases that are neither among the newest ones nor among the two newest verified internal
ones. The download page shows the newest release whose installers are complete, which need not be
among those that are kept.

* `prune_latest`: the page behind a prune.
* `download_page_behind_prune`: exactly when it still shows a release.
* `publishing_removes_the_only_download`: an incomplete release takes the place of a complete one.
-/

namespace Yuance
namespace Releases

open Lib Platform Files

/-- Ids as the tables give them. -/
structure Keyed (db : Db) : Prop where
  ids : (db.releases.map (·.id)).Nodup
  positive : ∀ r ∈ db.releases, 0 < r.id

/-- One of the releases that a prune keeps can be downloaded for every desktop platform. -/
def KeepsDownloads (db : Db) (retention : Int) : Prop :=
  ∃ r ∈ db.releases, (db.keptIds retention).contains r.id = true ∧ Db.isListed r = true ∧
    (r.channel = .legacy ∨ r.verification = .verified) ∧
    hasCompleteDesktopDownloads (db.assetsOf r.id) = true

section Page

variable {db : Db}

theorem Keyed.publishedIds (h : Keyed db) : ∀ id ∈ db.publishedIds, 0 < id := by
  intro id hid
  obtain ⟨r, hmem, rfl, -⟩ := mem_publishedIds.mp hid
  exact h.positive r hmem

theorem Keyed.prune (h : Keyed db) (retention : Int) : Keyed (db.prune retention) where
  ids := by
    rw [(prune_same retention).releases]
    exact h.ids.sublist (List.filter_sublist.map _)
  positive := by
    rw [(prune_same retention).releases]
    exact fun r hr => h.positive r (List.mem_filter.mp hr).1

/-- The page shows a release where a published one is complete. -/
theorem latest_isSome (h : Keyed db) :
    db.latest.isSome = true ↔ ∃ r ∈ db.releases, Db.isListed r = true ∧
      (r.channel = .legacy ∨ r.verification = .verified) ∧
      hasCompleteDesktopDownloads (db.assetsOf r.id) = true := by
  unfold Db.latest
  rw [List.isSome_findSome?, List.any_eq_true]
  constructor
  · rintro ⟨id, hid, hsome⟩
    obtain ⟨r, hmem, rfl, hlisted, hchannel⟩ := mem_publishedIds.mp hid
    refine ⟨r, hmem, hlisted, hchannel, ?_⟩
    obtain ⟨detail, hdetail⟩ := Option.isSome_iff_exists.mp hsome
    obtain ⟨hdetail, hcomplete⟩ := Option.filter_eq_some_iff.mp hdetail
    obtain ⟨r', -, rfl⟩ := Option.map_eq_some_iff.mp hdetail
    exact hcomplete
  · rintro ⟨r, hmem, hlisted, hchannel, hcomplete⟩
    refine ⟨r.id, mem_publishedIds.mpr ⟨r, hmem, rfl, hlisted, hchannel⟩, ?_⟩
    rw [Db.completeDetail, Db.detail, select_of_mem h.ids hmem, Option.map_some, Option.filter_some,
      if_pos hcomplete]
    rfl

theorem mem_prune {retention : Int} {r : Release} :
    r ∈ (db.prune retention).releases ↔
      r ∈ db.releases ∧ (db.prunedIds retention).contains r.id = false := by
  rw [(prune_same retention).releases, Db.withoutPruned, List.mem_filter, Bool.not_eq_true']

/-- A published release is pruned where it is not kept. -/
theorem listed_pruned {retention : Int} {r : Release} (hr : r ∈ db.releases)
    (hlisted : Db.isListed r = true) :
    (db.prunedIds retention).contains r.id = false ↔
      (db.keptIds retention).contains r.id = true := by
  rw [← Bool.not_eq_true, List.contains_iff_mem]
  unfold Db.prunedIds
  constructor
  · intro hout
    by_contra hkept
    apply hout
    rw [List.contains_iff_mem] at hkept
    refine List.mem_map_of_mem (List.mem_filter.mpr ⟨hr, ?_⟩)
    simp [hlisted, hkept]
  · intro hkept hin
    obtain ⟨r', hr', hid⟩ := List.mem_map.mp hin
    obtain ⟨hmem, hboth⟩ := List.mem_filter.mp hr'
    rw [hid, hkept] at hboth
    simp at hboth

/-- The page behind a prune. -/
theorem prune_latest (h : Keyed db) (retention : Int) :
    (db.prune retention).latest.isSome = true ↔ KeepsDownloads db retention := by
  rw [latest_isSome (h.prune retention)]
  constructor
  · rintro ⟨r, hmem, hlisted, hchannel, hcomplete⟩
    obtain ⟨hmem, hout⟩ := mem_prune.mp hmem
    rw [prune_assetsOf hout] at hcomplete
    exact ⟨r, hmem, (listed_pruned hmem hlisted).mp hout, hlisted, hchannel, hcomplete⟩
  · rintro ⟨r, hmem, hkept, hlisted, hchannel, hcomplete⟩
    have hout := (listed_pruned hmem hlisted).mpr hkept
    refine ⟨r, mem_prune.mpr ⟨hmem, hout⟩, hlisted, hchannel, ?_⟩
    rw [prune_assetsOf hout]
    exact hcomplete

end Page

/-- The tables with the release published. -/
def Db.publish (db : Db) (releaseId : Int) (input : UpdateReleaseInput) (now : Int) : Db :=
  (db.updateVersion releaseId
    { versionName := trim input.versionName, title := trim input.title, notes := trim input.notes,
      publish := true, status := .draft } now).1

/-- `db'` is what a prune leaves of `db`, up to the retention count. -/
def PrunedFrom (db : Db) (n : Int) (db' : Db) : Prop :=
  ∃ x y, db' = { ({ db with retention := x } : Db).prune n with retention := y }

section Calls

variable {m : Moment} {db db' : Db}

theorem updateVersion_retention {id now : Int} {u : Db.VersionUpdate} :
    (db.updateVersion id u now).1.retention = db.retention := by
  unfold Db.updateVersion
  dsimp only
  split
  · rfl
  · rfl

theorem Keyed.updateVersion (h : Keyed db) (id : Int) (u : Db.VersionUpdate) (now : Int) :
    Keyed (db.updateVersion id u now).1 := by
  unfold Db.updateVersion
  dsimp only
  split
  · exact h
  · refine ⟨?_, ?_⟩
    · rw [show (db.updateReleases _ _).1.releases = updateWhere _ _ db.releases from rfl,
        map_updateWhere (fun r : Release => r.id)
          (show ∀ r, (Db.setVersion u now r).id = r.id from fun _ => rfl)]
      exact h.ids
    · intro r hr
      obtain ⟨r', hr', rfl⟩ := mem_updateWhere.mp hr
      split
      · exact h.positive r' hr'
      · exact h.positive r' hr'

theorem getRetention_ok {n : Int} (h : alone m getRetention db = (db', .ok n)) :
    n = db.retention.getD defaultRetentionCount ∧ db' = { db with retention := some n } := by
  unfold alone getRetention at h
  simp only [Call.solo_bind_ok, Call.solo_okOr_ok] at h
  obtain ⟨d₁, _, hensure, d₂, retention, hread, hsome, rfl⟩ := h
  obtain ⟨-, hensure⟩ := query_ok.mp hensure
  obtain ⟨rfl, -⟩ := Prod.mk.inj hensure
  obtain ⟨-, rfl, rfl⟩ := (read_ok rfl).mp hread
  obtain rfl := Option.some.inj hsome
  exact ⟨rfl, rfl⟩

theorem prunePublishedReleases_ok {n : Int}
    (h : alone m (prunePublishedReleases n) db = (db', .ok ())) : db' = db.prune n := by
  unfold alone prunePublishedReleases at h
  simp only [Call.solo_bind_ok, Call.solo_ofExcept_ok] at h
  obtain ⟨_, k, ⟨hvalid, rfl⟩, hprune⟩ := h
  obtain ⟨_, -, hk⟩ := bind_eq_ok.mp hvalid
  obtain rfl : n = k := Except.ok.inj hk
  obtain ⟨-, hprune⟩ := query_ok.mp hprune
  exact (Prod.mk.inj hprune).1.symm

theorem getExistingDetail_ok {id : Int} {detail : ReleaseDetail}
    (h : alone m (getExistingDetail id) db = (db', .ok detail)) : db' = db := by
  unfold alone getExistingDetail at h
  simp only [Call.solo_bind_ok, Call.solo_okOr_ok] at h
  obtain ⟨_, _, hdetail, -, rfl⟩ := h
  exact (getReleaseDetail_ok.mp hdetail).2.2.2

theorem ensurePublishable_ok {current : Release} {id : Int} {publish : Bool}
    (h : alone m (ensurePublishable current id publish) db = (db', .ok ())) : db' = db := by
  cases publish with
  | false => exact (Call.solo_done_ok.mp h).2
  | true =>
    unfold alone ensurePublishable at h
    simp only [Call.solo_bind_ok, Call.solo_rejectIf_ok] at h
    obtain ⟨_, _, ⟨-, rfl⟩, _, _, hread, _, _, ⟨-, rfl⟩, hinternal⟩ := h
    obtain ⟨-, -, rfl⟩ := (read_ok rfl).mp hread
    unfold ensureInternalDownloads at hinternal
    cases hchannel : current.channel with
    | legacy =>
      rw [hchannel] at hinternal
      exact (Call.solo_done_ok.mp hinternal).2
    | internal =>
      rw [hchannel] at hinternal
      obtain ⟨_, _, hassets, hchecked⟩ := Call.solo_bind_ok.mp hinternal
      obtain ⟨-, -, -, rfl⟩ := listReleaseAssets_ok.mp hassets
      exact (Call.solo_rejectIf_ok.mp hchecked).2

/-- A draft that is published is published, and then the old releases are pruned. -/
theorem applyUpdate_ok {id : Int} {versionName title notes : String} {r : Release}
    {detail : ReleaseDetail} (hr : db.select id = some r) (hdraft : r.status = .draft)
    (h : alone m (applyUpdate id versionName title notes true) db = (db', .ok detail)) :
    PrunedFrom (db.updateVersion id { versionName, title, notes, publish := true, status := .draft }
        m.now).1 (db.retention.getD defaultRetentionCount) db' := by
  unfold alone applyUpdate ensureVersionNameAvailable at h
  simp only [Call.solo_bind_ok, Call.solo_rejectIf_ok, Call.solo_okOr_ok] at h
  obtain ⟨_, _, ⟨_, _, hcount, -, rfl⟩, _, release, hselect, _, current, ⟨hcurrent, rfl⟩, _, _,
    ⟨-, rfl⟩, _, _, ⟨-, rfl⟩, _, _, hpublishable, d, rows, hupdate, _, _, ⟨-, rfl⟩, _, _, hprune,
    hdetail⟩ := h
  obtain ⟨-, -, rfl⟩ := (read_ok rfl).mp hcount
  obtain ⟨-, rfl, rfl⟩ := (read_ok rfl).mp hselect
  obtain rfl := Option.some.inj (hr.symm.trans hcurrent)
  obtain rfl := ensurePublishable_ok hpublishable
  obtain rfl := getExistingDetail_ok hdetail
  obtain ⟨-, hupdate⟩ := query_ok.mp hupdate
  rw [hdraft] at hupdate hprune
  have hd : (Db.updateVersion _ id { versionName, title, notes, publish := true, status := .draft }
      m.now).1 = _ := congrArg Prod.fst hupdate
  rw [hd]
  obtain ⟨_, n, hretention, hprune⟩ := Call.solo_bind_ok.mp hprune
  obtain ⟨rfl, rfl⟩ := getRetention_ok hretention
  rw [← updateVersion_retention, hd]
  exact ⟨_, _, prunePublishedReleases_ok hprune⟩

theorem validated_trim {value checked : String} {c : Prop} [Decidable c] {e : AppError}
    (h : (rejectIf c e >>= fun _ => pure (trim value) : Except AppError String) = .ok checked) :
    checked = trim value := by
  obtain ⟨_, -, h⟩ := bind_eq_ok.mp h
  exact (Except.ok.inj h).symm

theorem updateRelease_ok {id : Int} {input : UpdateReleaseInput} {r : Release}
    {detail : ReleaseDetail} (hr : db.select id = some r) (hdraft : r.status = .draft)
    (hpublish : input.publish = true)
    (h : alone m (updateRelease id input) db = (db', .ok detail)) :
    PrunedFrom (db.publish id input m.now) (db.retention.getD defaultRetentionCount) db' := by
  unfold alone updateRelease at h
  simp only [Call.solo_bind_ok, Call.solo_rejectIf_ok, Call.solo_ofExcept_ok] at h
  obtain ⟨_, _, ⟨-, rfl⟩, _, versionName, ⟨hversion, rfl⟩, _, title, ⟨htitle, rfl⟩, _, notes,
    ⟨hnotes, rfl⟩, happly⟩ := h
  obtain rfl := validated_trim hversion
  obtain rfl := validated_trim htitle
  obtain rfl := validated_trim hnotes
  rw [hpublish] at happly
  exact applyUpdate_ok hr hdraft happly

theorem updateSettings_ok {n k : Int} (h : alone m (updateSettings n) db = (db', .ok k)) :
    PrunedFrom db n db' := by
  unfold alone updateSettings at h
  simp only [Call.solo_bind_ok, Call.solo_ofExcept_ok] at h
  obtain ⟨_, c, ⟨hvalid, rfl⟩, _, _, hensure, _, _, hset, _, _, hprune, hretention⟩ := h
  obtain ⟨_, -, hc⟩ := bind_eq_ok.mp hvalid
  obtain rfl : n = c := Except.ok.inj hc
  obtain ⟨-, hensure⟩ := query_ok.mp hensure
  obtain ⟨rfl, -⟩ := Prod.mk.inj hensure
  obtain ⟨-, hset⟩ := query_ok.mp hset
  obtain ⟨rfl, -⟩ := Prod.mk.inj hset
  obtain rfl := prunePublishedReleases_ok hprune
  obtain ⟨-, rfl⟩ := getRetention_ok hretention
  exact ⟨_, _, rfl⟩

end Calls

section Shown

variable {db db' : Db}

theorem PrunedFrom.latest (h : Keyed db) {n : Int} (hp : PrunedFrom db n db') :
    Keyed db' ∧ (db'.latest.isSome = true ↔ KeepsDownloads db n) := by
  obtain ⟨x, y, rfl⟩ := hp
  have hkeyed : Keyed { db with retention := x } := ⟨h.ids, h.positive⟩
  have hpruned := hkeyed.prune n
  exact ⟨⟨hpruned.ids, hpruned.positive⟩, prune_latest hkeyed n⟩

/-- `get_latest_published_release_detail` returns a release. -/
def ShowsRelease (db : Db) : Prop :=
  ∀ m : Moment, m.fault = none →
    ∃ detail, alone m getLatestPublishedReleaseDetail db = (db, .ok (some detail))

theorem showsRelease_iff (h : Keyed db) : ShowsRelease db ↔ db.latest.isSome = true := by
  constructor
  · intro hshows
    obtain ⟨detail, hlatest⟩ := hshows { now := 0, fault := none } rfl
    obtain ⟨-, hlatest, -⟩ := (getLatestPublishedReleaseDetail_ok h.publishedIds).mp hlatest
    rw [hlatest]
    rfl
  · intro hsome m hm
    obtain ⟨detail, hdetail⟩ := Option.isSome_iff_exists.mp hsome
    exact ⟨detail, (getLatestPublishedReleaseDetail_ok h.publishedIds).mpr ⟨hm, hdetail, rfl⟩⟩

theorem PrunedFrom.shows (h : Keyed db) {n : Int} (hp : PrunedFrom db n db') :
    ShowsRelease db' ↔ KeepsDownloads db n := by
  obtain ⟨hkeyed, hlatest⟩ := hp.latest h
  exact (showsRelease_iff hkeyed).trans hlatest

/-- A verified internal release is kept, so that the page shows one where they are complete. -/
theorem verified_downloads_are_kept (n : Int)
    (hsome : ∃ r ∈ db.releases, Db.isListed r = true ∧ Db.isVerifiedInternal r = true)
    (hcomplete : ∀ r ∈ db.releases, Db.isListed r = true → Db.isVerifiedInternal r = true →
      hasCompleteDesktopDownloads (db.assetsOf r.id) = true) : KeepsDownloads db n := by
  obtain ⟨r, hr, hlisted, hverified⟩ := hsome
  have hmem : r ∈ orderBy Db.latestFirst
      (db.releases.filter fun r => Db.isListed r && Db.isVerifiedInternal r) := by
    rw [mem_orderBy, List.mem_filter]
    exact ⟨hr, by rw [hlisted, hverified]; rfl⟩
  -- the newest of them
  obtain ⟨newest, rest, hlist⟩ := List.exists_cons_of_ne_nil (List.ne_nil_of_mem hmem)
  have hnewest : newest ∈ orderBy Db.latestFirst
      (db.releases.filter fun r => Db.isListed r && Db.isVerifiedInternal r) := by
    rw [hlist]
    exact List.mem_cons_self
  rw [mem_orderBy, List.mem_filter, Bool.and_eq_true] at hnewest
  obtain ⟨hin, hlisted', hverified'⟩ := hnewest
  refine ⟨newest, hin, ?_, hlisted', .inr ?_, hcomplete newest hin hlisted' hverified'⟩
  · rw [List.contains_iff_mem, Db.keptIds, List.mem_append]
    right
    rw [Db.newest, hlist]
    simp
  · simp only [Db.isVerifiedInternal, Bool.and_eq_true, beq_iff_eq] at hverified'
    exact hverified'.2

end Shown

/-- Behind a publication, and behind a change of the retention count, the download page shows a
release exactly where one of the releases that are kept is complete. -/
theorem download_page_behind_prune (db : Db) (h : Keyed db) :
    (∀ m id input r db' detail, db.select id = some r → r.status = .draft →
      input.publish = true → alone m (updateRelease id input) db = (db', .ok detail) →
      (ShowsRelease db' ↔ KeepsDownloads (db.publish id input m.now)
        (db.retention.getD defaultRetentionCount))) ∧
    (∀ m n k db', alone m (updateSettings n) db = (db', .ok k) →
      (ShowsRelease db' ↔ KeepsDownloads db n)) := by
  refine ⟨?_, ?_⟩
  · intro m id input r db' detail hr hdraft hpublish hupdate
    exact (updateRelease_ok hr hdraft hpublish hupdate).shows (h.updateVersion _ _ _)
  · intro m n k db' hupdate
    exact (updateSettings_ok hupdate).shows h

def legacyRelease (id : Int) (versionName : String) (status : StoredStatus)
    (publishedAt : Option Int) : Release where
  id := id
  versionName := versionName
  title := ""
  notes := ""
  status := status
  channel := .legacy
  verification := .unverified
  manifestSha256 := ""
  publishedAt := publishedAt
  withdrawnAt := none
  withdrawalReason := ""
  githubStatus := .none

def universalInstaller (id releaseId : Int) (platform : ReleasePlatform) : Asset where
  id := id
  releaseId := releaseId
  fileObjectId := id
  platform := platform
  architecture := .universal
  artifactKind := .installer
  createdAt := 0

def uploadedFile (id : Int) : FileObject where
  id := id
  folderId := none
  originalFilename := "installer"
  contentType := "application/octet-stream"
  byteSize := 1
  checksumSha256 := ""
  status := .uploaded

/-- A complete release is published, an incomplete one is a draft, and one release is to be kept. -/
def oneCompleteDb : Db where
  releases := [legacyRelease 1 "1.0.0" .published (some 0), legacyRelease 2 "2.0.0" .draft none]
  assets := [universalInstaller 1 1 .windows, universalInstaller 2 1 .macos,
    universalInstaller 3 1 .linux, universalInstaller 4 2 .windows]
  nextAsset := 5
  objects := [uploadedFile 1, uploadedFile 2, uploadedFile 3, uploadedFile 4]
  nextObject := 5
  attached := []
  retention := some 1
  storageActive := true

theorem keyed_oneCompleteDb : Keyed oneCompleteDb where
  ids := by decide
  positive := by decide

theorem retention_of_five_keeps_the_download :
    ∃ db' k, alone { now := 1, fault := none } (updateSettings 5) oneCompleteDb = (db', .ok k) ∧
      ShowsRelease db' := by
  obtain ⟨db', hdb⟩ : ∃ db', alone { now := 1, fault := none } (updateSettings 5) oneCompleteDb =
      (db', .ok 5) := ⟨_, rfl⟩
  refine ⟨db', 5, hdb, ?_⟩
  refine ((download_page_behind_prune oneCompleteDb keyed_oneCompleteDb).2 _ 5 5 _ hdb).mpr ?_
  exact ⟨legacyRelease 1 "1.0.0" .published (some 0), by decide, by decide +kernel, by decide,
    .inl rfl, by decide +kernel⟩

def publishInput : UpdateReleaseInput :=
  { versionName := "2.0.0", title := "", notes := "", publish := true }

/-- What is left when the incomplete release was published. -/
def prunedDb : Db :=
  (alone { now := 1, fault := none } (updateRelease 2 publishInput) oneCompleteDb).1

theorem publishing_removes_the_only_download :
    ShowsRelease oneCompleteDb ∧
      (∃ detail, alone { now := 1, fault := none } (updateRelease 2 publishInput) oneCompleteDb =
        (prunedDb, .ok detail)) ∧ ¬ShowsRelease prunedDb := by
  refine ⟨?_, ?_, ?_⟩
  · rw [showsRelease_iff keyed_oneCompleteDb]
    decide +kernel
  · exact ⟨_, rfl⟩
  · have hkeyed : Keyed prunedDb := ⟨by decide +kernel, by decide +kernel⟩
    rw [showsRelease_iff hkeyed]
    decide +kernel

end Releases
end Yuance
