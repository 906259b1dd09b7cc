import Yuance.Files.Validation
import Yuance.Lib.Calls
import Yuance.Lib.Table

/-!
# Yuance.Releases.Model

The releases of `api/src/domains/system_releases.rs`: their tables, the statements on them, and the
calls that add and remove assets, verify, publish and withdraw a release, prune old ones and find
the release of the download page. The transactions of `delete_release_asset` and
`prune_published_releases` are one statement each; the jobs that remove deleted objects from the
storage are left out.
-/

namespace Yuance
namespace Releases

open Lib Platform Files

inductive StoredStatus where
  | draft
  | published
  deriving DecidableEq, Repr

/-- The status that a summary shows. -/
inductive EffectiveStatus where
  | draft
  | published
  | withdrawn
  deriving DecidableEq, Repr

inductive Channel where
  | legacy
  | internal
  deriving DecidableEq, Repr

inductive VerificationStatus where
  | unverified
  | pending
  | verified
  | failed
  deriving DecidableEq, Repr

inductive ReleasePlatform where
  | windows
  | macos
  | linux
  | android
  | ios
  deriving DecidableEq, Repr

inductive Architecture where
  | x64
  | arm64
  | universal
  deriving DecidableEq, Repr

inductive ArtifactKind where
  | installer
  | signature
  | sbom
  | manifest
  | checksums
  deriving DecidableEq, Repr

inductive GithubStatus where
  | none
  | pending
  | succeeded
  | failed
  | notRequired
  deriving DecidableEq, Repr

/-- A row of `system_release_versions`. -/
structure Release where
  id : Int
  versionName : String
  title : String
  notes : String
  status : StoredStatus
  channel : Channel
  verification : VerificationStatus
  manifestSha256 : String
  publishedAt : Option Int
  withdrawnAt : Option Int
  withdrawalReason : String
  githubStatus : GithubStatus
  deriving DecidableEq, Repr

/-- A row of `system_release_assets`. -/
structure Asset where
  id : Int
  releaseId : Int
  fileObjectId : Int
  platform : ReleasePlatform
  architecture : Architecture
  artifactKind : ArtifactKind
  createdAt : Int
  deriving DecidableEq, Repr

/-- An asset joined with its file. -/
structure AssetSummary where
  asset : Asset
  file : FileObject
  deriving DecidableEq, Repr

structure ReleaseDetail where
  release : Release
  assets : List AssetSummary
  deriving DecidableEq, Repr

structure Db where
  releases : List Release
  assets : List Asset
  nextAsset : Int
  objects : List FileObject
  nextObject : Int
  /-- The files that an attachment of a live target protects. -/
  attached : List Int
  /-- `system_release_settings.retention_count`. -/
  retention : Option Int
  /-- There is an active storage configuration. -/
  storageActive : Bool

def Release.effectiveStatus (r : Release) : EffectiveStatus :=
  if r.withdrawnAt.isSome then .withdrawn
  else
    match r.status with
    | .draft => .draft
    | .published => .published

/-! ## Which releases are complete -/

def AssetSummary.isUploaded (a : AssetSummary) : Bool := a.file.status == .uploaded

/-- An uploaded installer of the platform and the architecture. -/
def hasInstaller (assets : List AssetSummary) (platform : ReleasePlatform)
    (architecture : Architecture) : Bool :=
  assets.any fun a => a.isUploaded && a.asset.artifactKind == .installer
    && a.asset.platform == platform && a.asset.architecture == architecture

def desktopReleasePlatforms : List ReleasePlatform := [.windows, .macos, .linux]

def hasCompleteDesktopDownloads (assets : List AssetSummary) : Bool :=
  desktopReleasePlatforms.all fun platform =>
    hasInstaller assets platform .universal
      || (hasInstaller assets platform .x64 && hasInstaller assets platform .arm64)

/-- The files that go with the installers, each with its kind. -/
def expectedEvidence (installers : List AssetSummary) : List (String × ArtifactKind) :=
  (installers.flatMap fun i =>
    [(i.file.originalFilename, .installer), (i.file.originalFilename ++ ".minisig", .signature),
      (i.file.originalFilename ++ ".cdx.json", .sbom)])
  ++ [("release-manifest.json", .manifest), ("release-manifest.json.minisig", .signature),
    ("SHA256SUMS", .checksums), ("SHA256SUMS.minisig", .signature)]

/-- Equality of two lists as sets. -/
def sameMembers {α : Type} [DecidableEq α] (l l' : List α) : Bool :=
  l.all (fun x => l'.contains x) && l'.all (fun x => l.contains x)

def hasCompleteInternalEvidence (detail : ReleaseDetail) : Bool :=
  let assets := detail.assets
  let installers := assets.filter fun a => a.asset.artifactKind == .installer
  let expected := expectedEvidence installers
  let actual := assets.map fun a => (a.file.originalFilename, a.asset.artifactKind)
  assets.length == 22 && assets.all (·.isUploaded) && installers.length == 6
    && hasCompleteDesktopDownloads assets && expected.dedup.length == 22
    && sameMembers actual expected
    && assets.any fun a => a.file.originalFilename == "release-manifest.json"
      && a.file.checksumSha256 == detail.release.manifestSha256

/-! ## Statements -/

namespace Db

variable (db : Db)

def select (id : Int) : Option Release := db.releases.find? (·.id == id)

def object (id : Int) : Option FileObject := db.objects.find? (·.id == id)

def joined (a : Asset) : Option AssetSummary := (db.object a.fileObjectId).map fun f => ⟨a, f⟩

/-- `ORDER BY sa.created_at DESC, sa.id DESC`. -/
def newestFirst (a b : AssetSummary) : Bool :=
  if a.asset.createdAt = b.asset.createdAt then a.asset.id ≥ b.asset.id
  else a.asset.createdAt ≥ b.asset.createdAt

def assetsOf (releaseId : Int) : List AssetSummary :=
  orderBy newestFirst ((db.assets.filter (·.releaseId == releaseId)).filterMap db.joined)

def asset (releaseId assetId : Int) : Option AssetSummary :=
  (db.assets.find? fun a => a.releaseId == releaseId && a.id == assetId).bind db.joined

def countVersionName (versionName : String) (excludeId : Option Int) : Nat :=
  (db.releases.filter fun r => r.versionName == versionName && excludeId != some r.id).length

/-- The condition of `ensure_release_is_mutable` and of `delete_release_asset`. -/
def isMutable (r : Release) : Bool :=
  r.status == .draft && r.withdrawnAt.isNone && (r.channel == .legacy || r.verification != .verified)

def countMutable (releaseId : Int) : Nat :=
  (db.releases.filter fun r => r.id == releaseId && isMutable r).length

/-- An `UPDATE` of releases, with the number of rows it changed. -/
def updateReleases (p : Release → Bool) (f : Release → Release) : Db × Nat :=
  ({ db with releases := updateWhere p f db.releases }, (db.releases.filter p).length)

structure VersionUpdate where
  versionName : String
  title : String
  notes : String
  publish : Bool
  /-- The status that was read. -/
  status : StoredStatus

def setVersion (u : VersionUpdate) (now : Int) (r : Release) : Release :=
  { r with
    versionName := u.versionName
    title := u.title
    notes := u.notes
    status := if r.status == .draft && u.publish then .published else r.status
    publishedAt := if r.status == .draft && u.publish then some now else r.publishedAt }

/-- The `UPDATE` of `update_release`; a name that another release has breaks its uniqueness. -/
def updateVersion (releaseId : Int) (u : VersionUpdate) (now : Int) : Db × Except AppError Nat :=
  let matching := fun r : Release => r.id == releaseId && r.withdrawnAt.isNone && r.status == u.status
  if db.releases.any matching && db.countVersionName u.versionName (some releaseId) > 0 then
    (db, .error .storage)
  else
    let (db', rows) := db.updateReleases matching (setVersion u now)
    (db', .ok rows)

def verifyRelease (releaseId : Int) : Db × Nat :=
  db.updateReleases (fun r => r.id == releaseId && r.status == .draft && r.channel == .internal
      && r.verification == .pending && r.withdrawnAt.isNone)
    ({ · with verification := .verified })

def withdrawRelease (releaseId : Int) (reason : String) (githubStatus : GithubStatus) (now : Int) :
    Db × Nat :=
  db.updateReleases (fun r => r.id == releaseId && r.status == .published && r.withdrawnAt.isNone)
    ({ · with withdrawnAt := some now, withdrawalReason := reason, githubStatus := githubStatus })

def insertObject (originalFilename contentType : String) (byteSize : Int)
    (checksumSha256 : String) : Db × Int :=
  ({ db with
      objects := db.objects ++ [
        { id := db.nextObject, folderId := none, originalFilename, contentType, byteSize,
          checksumSha256, status := .pending }]
      nextObject := db.nextObject + 1 }, db.nextObject)

def insertAsset (releaseId fileObjectId : Int) (platform : ReleasePlatform)
    (architecture : Architecture) (artifactKind : ArtifactKind) (now : Int) :
    Db × Except AppError Int :=
  if (db.select releaseId).isNone || (db.object fileObjectId).isNone
      || db.assets.any (·.fileObjectId == fileObjectId) then
    (db, .error .storage)
  else
    ({ db with
        assets := db.assets ++ [
          { id := db.nextAsset, releaseId, fileObjectId, platform, architecture, artifactKind,
            createdAt := now }]
        nextAsset := db.nextAsset + 1 }, .ok db.nextAsset)

/-- The `UPDATE` of `mark_file_uploaded_with_checksum`. -/
def markUploaded (fileObjectId : Int) (checksumSha256 : String) : Db × Nat :=
  let matching := fun o : FileObject => o.id == fileObjectId && o.status == .pending
    && (o.checksumSha256 == "" || o.checksumSha256 == checksumSha256)
  ({ db with
      objects := updateWhere matching
        ({ · with status := .uploaded, checksumSha256 := checksumSha256 }) db.objects },
    (db.objects.filter matching).length)

/-- `file_object_has_protecting_references_in_tx`. -/
def isProtected (fileObjectId : Int) : Bool :=
  db.attached.contains fileObjectId || db.assets.any (·.fileObjectId == fileObjectId)

/-- `enqueue_deleted_file_object_in_tx`, unless the file is protected. -/
def releaseObject (fileObjectId : Int) : Db :=
  if db.isProtected fileObjectId then db
  else
    { db with
      objects := updateWhere (·.id == fileObjectId) ({ · with status := .deleted }) db.objects }

/-- The transaction of `delete_release_asset`. -/
def deleteAsset (releaseId assetId fileObjectId : Int) : Db × Except AppError Unit :=
  if db.countMutable releaseId ≠ 1 then
    (db, .error (.conflict "只有未撤回的草稿版本可以修改资产"))
  else if (db.assets.filter fun a => a.id == assetId && a.releaseId == releaseId).length ≠ 1 then
    (db, .error (.notFound "版本资产不存在"))
  else
    (releaseObject { db with
        assets := db.assets.filter fun a => !(a.id == assetId && a.releaseId == releaseId) }
      fileObjectId, .ok ())

/-- `ORDER BY published_at DESC, id DESC`, a missing time coming last. -/
def latestFirst (r s : Release) : Bool :=
  match r.publishedAt, s.publishedAt with
  | some a, some b => if a = b then r.id ≥ s.id else a ≥ b
  | some _, none => true
  | none, some _ => false
  | none, none => r.id ≥ s.id

def isListed (r : Release) : Bool := r.status == .published && r.withdrawnAt.isNone

/-- The newest `n` of the releases that meet `p`. -/
def newest (p : Release → Bool) (n : Nat) : List Int :=
  ((orderBy latestFirst (db.releases.filter p)).take n).map (·.id)

def isVerifiedInternal (r : Release) : Bool := r.channel == .internal && r.verification == .verified

/-- The releases that a prune keeps. -/
def keptIds (retention : Int) : List Int :=
  db.newest isListed retention.toNat ++ db.newest (fun r => isListed r && isVerifiedInternal r) 2

def prunedIds (retention : Int) : List Int :=
  ((db.releases.filter fun r => isListed r && !(db.keptIds retention).contains r.id)).map (·.id)

/-- The transaction of `prune_published_releases`; the assets of a release go with it. -/
def prune (retention : Int) : Db :=
  let pruned := db.prunedIds retention
  let files := (db.assets.filter fun a => pruned.contains a.releaseId).map (·.fileObjectId)
  files.foldl releaseObject
    { db with
      releases := db.releases.filter fun r => !pruned.contains r.id
      assets := db.assets.filter fun a => !pruned.contains a.releaseId }

/-- The candidates of `get_latest_published_release_detail`. -/
def publishedIds : List Int :=
  (orderBy latestFirst (db.releases.filter fun r =>
    isListed r && (r.channel == .legacy || r.verification == .verified))).map (·.id)

end Db

def defaultRetentionCount : Int := 5

inductive Statement where
  | select (releaseId : Int)
  | countVersionName (versionName : String) (excludeId : Option Int)
  | assetsOf (releaseId : Int)
  | asset (releaseId assetId : Int)
  | updateVersion (releaseId : Int) (update : Db.VersionUpdate)
  | ensureSettings
  | selectRetention
  | setRetention (retention : Int)
  | prune (retention : Int)
  | storageActive
  | insertObject (originalFilename contentType : String) (byteSize : Int) (checksumSha256 : String)
  | object (fileObjectId : Int)
  | insertAsset (releaseId fileObjectId : Int) (platform : ReleasePlatform)
      (architecture : Architecture) (artifactKind : ArtifactKind)
  | countMutable (releaseId : Int)
  | markUploaded (fileObjectId : Int) (checksumSha256 : String)
  | verifyRelease (releaseId : Int)
  | withdrawRelease (releaseId : Int) (reason : String) (githubStatus : GithubStatus)
  | deleteAsset (releaseId assetId fileObjectId : Int)
  | publishedIds

abbrev Statement.Answer : Statement → Type
  | select _ => Option Release
  | countVersionName .. => Nat
  | assetsOf _ => List AssetSummary
  | asset .. => Option AssetSummary
  | updateVersion .. => Nat
  | ensureSettings => Unit
  | selectRetention => Option Int
  | setRetention _ => Unit
  | prune _ => Unit
  | storageActive => Bool
  | insertObject .. => Int
  | object _ => Option FileObject
  | insertAsset .. => Int
  | countMutable _ => Nat
  | markUploaded .. => Nat
  | verifyRelease _ => Nat
  | withdrawRelease .. => Nat
  | deleteAsset .. => Unit
  | publishedIds => List Int

/-- The time of a statement, and the error it fails with if it fails. -/
structure Moment where
  now : Int
  fault : Option AppError

def execute (now : Int) (db : Db) : (s : Statement) → Db × Except AppError s.Answer
  | .select releaseId => (db, .ok (db.select releaseId))
  | .countVersionName versionName excludeId => (db, .ok (db.countVersionName versionName excludeId))
  | .assetsOf releaseId => (db, .ok (db.assetsOf releaseId))
  | .asset releaseId assetId => (db, .ok (db.asset releaseId assetId))
  | .updateVersion releaseId update => db.updateVersion releaseId update now
  | .ensureSettings =>
    ({ db with retention := some (db.retention.getD defaultRetentionCount) }, .ok ())
  | .selectRetention => (db, .ok db.retention)
  | .setRetention retention =>
    ({ db with retention := db.retention.map fun _ => retention }, .ok ())
  | .prune retention => (db.prune retention, .ok ())
  | .storageActive => (db, .ok db.storageActive)
  | .insertObject originalFilename contentType byteSize checksumSha256 =>
    let (db', id) := db.insertObject originalFilename contentType byteSize checksumSha256
    (db', .ok id)
  | .object fileObjectId => (db, .ok (db.object fileObjectId))
  | .insertAsset releaseId fileObjectId platform architecture artifactKind =>
    db.insertAsset releaseId fileObjectId platform architecture artifactKind now
  | .countMutable releaseId => (db, .ok (db.countMutable releaseId))
  | .markUploaded fileObjectId checksumSha256 =>
    let (db', rows) := db.markUploaded fileObjectId checksumSha256
    (db', .ok rows)
  | .verifyRelease releaseId =>
    let (db', rows) := db.verifyRelease releaseId
    (db', .ok rows)
  | .withdrawRelease releaseId reason githubStatus =>
    let (db', rows) := db.withdrawRelease releaseId reason githubStatus now
    (db', .ok rows)
  | .deleteAsset releaseId assetId fileObjectId => db.deleteAsset releaseId assetId fileObjectId
  | .publishedIds => (db, .ok db.publishedIds)

def perform (m : Moment) (s : Statement) (db : Db) : Db × Except AppError s.Answer :=
  match m.fault with
  | some e => (db, .error e)
  | none => execute m.now db s

/-! ## Checks of the input -/

def validateVersionName (value : String) : Except AppError String := do
  rejectIf (trim value = "" ∨ byteLen (trim value) > 64)
    (.badRequest "版本号不能为空且不能超过 64 个字符")
  pure (trim value)

def validateTitle (value : String) : Except AppError String := do
  rejectIf (byteLen (trim value) > 160) (.badRequest "版本标题不能超过 160 个字符")
  pure (trim value)

def validateNotes (value : String) : Except AppError String := do
  rejectIf (byteLen (trim value) > 20000) (.badRequest "版本说明不能超过 20000 个字符")
  pure (trim value)

def validateWithdrawalReason (value : String) : Except AppError String := do
  rejectIf (trim value = "" ∨ charCount (trim value) > 500)
    (.badRequest "撤回原因不能为空且不能超过 500 个字符")
  pure (trim value)

def validateGithubWithdrawalStatus : String → Except AppError GithubStatus :=
  oneOf [("pending", .pending), ("succeeded", .succeeded), ("failed", .failed),
    ("not_required", .notRequired)] "GitHub 撤回状态无效"

def validatePlatform : String → Except AppError ReleasePlatform :=
  oneOf [("windows", .windows), ("macos", .macos), ("linux", .linux), ("android", .android),
    ("ios", .ios)] "平台只能是 windows / macos / linux / android / ios"

def validateArchitecture : String → Except AppError Architecture :=
  oneOf [("x64", .x64), ("arm64", .arm64), ("universal", .universal)]
    "架构只能是 x64 / arm64 / universal"

def validateArtifactKind : String → Except AppError ArtifactKind :=
  oneOf [("", .installer), ("installer", .installer), ("signature", .signature), ("sbom", .sbom),
    ("manifest", .manifest), ("checksums", .checksums)] "版本资产类型无效"

def validateRetentionCount (value : Int) : Except AppError Int := do
  rejectIf (value < 1 ∨ value > 50) (.badRequest "版本保留数必须在 1 到 50 之间")
  pure value

/-! ## Calls -/

abbrev Task (α : Type) := Call Statement Statement.Answer AppError α

def query (s : Statement) : Task s.Answer := Call.make s

def listReleaseAssets (releaseId : Int) : Task (List AssetSummary) := do
  Call.rejectIf (releaseId ≤ 0) (.badRequest "版本 ID 无效")
  query (.assetsOf releaseId)

def withAssets (releaseId : Int) : Option Release → Task (Option ReleaseDetail)
  | none => pure none
  | some release => do
    let assets ← listReleaseAssets releaseId
    pure (some { release, assets })

def getReleaseDetail (releaseId : Int) : Task (Option ReleaseDetail) := do
  Call.rejectIf (releaseId ≤ 0) (.badRequest "版本 ID 无效")
  let release ← query (.select releaseId)
  withAssets releaseId release

def getExistingDetail (releaseId : Int) : Task ReleaseDetail := do
  let detail ← getReleaseDetail releaseId
  Call.okOr detail (.notFound "版本不存在")

/-- The loop of `get_latest_published_release_detail`. -/
def firstComplete : List Int → Task (Option ReleaseDetail)
  | [] => pure none
  | releaseId :: rest => do
    let detail ← getReleaseDetail releaseId
    match detail with
    | none => firstComplete rest
    | some detail =>
      if hasCompleteDesktopDownloads detail.assets then pure (some detail) else firstComplete rest

def getLatestPublishedReleaseDetail : Task (Option ReleaseDetail) := do
  let releaseIds ← query .publishedIds
  firstComplete releaseIds

def getReleaseAsset (releaseId assetId : Int) : Task AssetSummary := do
  Call.rejectIf (releaseId ≤ 0 ∨ assetId ≤ 0) (.badRequest "版本资产 ID 无效")
  let asset ← query (.asset releaseId assetId)
  Call.okOr asset (.notFound "版本资产不存在")

/-- The rows that the check of `get_published_release_asset` counts. -/
def isPublished : Option Release → Bool
  | none => false
  | some r => Db.isListed r

def getPublishedReleaseAsset (releaseId assetId : Int) : Task AssetSummary := do
  let asset ← getReleaseAsset releaseId assetId
  let release ← query (.select releaseId)
  Call.rejectIf (!isPublished release || !asset.isUploaded) (.notFound "版本安装包不存在")
  pure asset

def ensureReleaseAllowsDownload (releaseId : Int) : Task Unit := do
  let release ← query (.select releaseId)
  let state ← Call.okOr release (.notFound "版本不存在")
  Call.rejectIf state.withdrawnAt.isSome (.notFound "版本不存在或已撤回")

def getRetention : Task Int := do
  query .ensureSettings
  let retention ← query .selectRetention
  Call.okOr retention .storage

def prunePublishedReleases (retention : Int) : Task Unit := do
  let retention ← Call.ofExcept (validateRetentionCount retention)
  query (.prune retention)

def updateSettings (retention : Int) : Task Int := do
  let retention ← Call.ofExcept (validateRetentionCount retention)
  query .ensureSettings
  query (.setRetention retention)
  prunePublishedReleases retention
  getRetention

def ensureVersionNameAvailable (versionName : String) (excludeId : Option Int) : Task Unit := do
  let existingCount ← query (.countVersionName versionName excludeId)
  Call.rejectIf (existingCount > 0) (.conflict ("版本号 " ++ versionName ++ " 已存在"))

structure UpdateReleaseInput where
  versionName : String
  title : String
  notes : String
  publish : Bool

/-- The checks of an internal release that is to be published. -/
def ensureInternalDownloads (current : Release) (releaseId : Int) : Task Unit :=
  match current.channel with
  | .legacy => pure ()
  | .internal => do
    let assets ← listReleaseAssets releaseId
    Call.rejectIf (!hasCompleteDesktopDownloads assets)
      (.badRequest "内部桌面版本必须上传完整六平台架构安装包后才能发布")

def ensurePublishable (current : Release) (releaseId : Int) : Bool → Task Unit
  | false => pure ()
  | true => do
    Call.rejectIf (current.channel = .internal ∧ current.verification ≠ .verified)
      (.conflict "内部版本必须完成发行证据验证后才能发布")
    let assets ← query (.assetsOf releaseId)
    Call.rejectIf ((assets.filter (·.isUploaded)).length ≤ 0)
      (.badRequest "至少上传一个版本包后才能发布版本")
    ensureInternalDownloads current releaseId

def pruneAfterPublish : Bool → Task Unit
  | false => pure ()
  | true => do
    let retention ← getRetention
    prunePublishedReleases retention

/-- `update_release` from the check of the name on. -/
def applyUpdate (releaseId : Int) (versionName title notes : String) (publish : Bool) :
    Task ReleaseDetail := do
  ensureVersionNameAvailable versionName (some releaseId)
  let release ← query (.select releaseId)
  let current ← Call.okOr release (.notFound "版本不存在")
  Call.rejectIf current.withdrawnAt.isSome (.conflict "已撤回版本不能修改或重新发布")
  Call.rejectIf (current.status = .published ∧
      (current.versionName ≠ versionName ∨ current.title ≠ title ∨ current.notes ≠ notes))
    (.conflict "已发布版本不可修改；请创建新版本或显式撤回")
  ensurePublishable current releaseId (current.status == .draft && publish)
  let rows ← query (.updateVersion releaseId
    { versionName, title, notes, publish := current.status == .draft && publish,
      status := current.status })
  Call.rejectIf (rows ≠ 1) (.conflict "版本状态已变化，请刷新后重试")
  pruneAfterPublish (current.status == .draft && publish)
  getExistingDetail releaseId

def updateRelease (releaseId : Int) (input : UpdateReleaseInput) : Task ReleaseDetail := do
  Call.rejectIf (releaseId ≤ 0) (.badRequest "版本 ID 无效")
  let versionName ← Call.ofExcept (validateVersionName input.versionName)
  let title ← Call.ofExcept (validateTitle input.title)
  let notes ← Call.ofExcept (validateNotes input.notes)
  applyUpdate releaseId versionName title notes input.publish

structure CreateAssetInput where
  platform : String
  architecture : String
  artifactKind : String
  originalFilename : String
  contentType : String
  byteSize : Int
  checksumSha256 : String

/-- What `create_file_object_with_checksum` writes. -/
structure ObjectRow where
  originalFilename : String
  contentType : String
  byteSize : Int
  checksumSha256 : String

def objectRow (input : CreateAssetInput) : Except AppError ObjectRow := do
  let originalFilename ← validateFilename input.originalFilename
  let contentType ← validateContentType input.contentType
  validateByteSize input.byteSize
  let checksumSha256 ← validateChecksumSha256 input.checksumSha256
  pure { originalFilename, contentType, byteSize := input.byteSize, checksumSha256 }

def getFileObject (fileObjectId : Int) : Task FileObject := do
  let object ← query (.object fileObjectId)
  Call.okOr object .storage

def createFileObjectWithChecksum (input : CreateAssetInput) : Task FileObject := do
  let row ← Call.ofExcept (objectRow input)
  let id ← query (.insertObject row.originalFilename row.contentType row.byteSize
    row.checksumSha256)
  getFileObject id

def createReleaseAsset (releaseId : Int) (input : CreateAssetInput) : Task AssetSummary := do
  Call.rejectIf (releaseId ≤ 0) (.badRequest "版本 ID 无效")
  let platform ← Call.ofExcept (validatePlatform input.platform)
  let architecture ← Call.ofExcept (validateArchitecture input.architecture)
  let artifactKind ← Call.ofExcept (validateArtifactKind input.artifactKind)
  let release ← query (.select releaseId)
  let state ← Call.okOr release (.notFound "版本不存在")
  Call.rejectIf (state.status ≠ .draft ∨ state.withdrawnAt.isSome ∨
      (state.channel = .internal ∧ state.verification = .verified))
    (.conflict "只有未撤回的草稿版本可以新增资产")
  Call.rejectIf (state.channel = .internal ∧
      (byteLen input.checksumSha256 ≠ 64 ∨ ¬ input.checksumSha256.toList.all isLowerHex))
    (.badRequest "内部发行资产必须提供 64 位小写 SHA-256")
  let active ← query .storageActive
  Call.rejectIf (!active) (.badRequest "对象存储未激活，请先完成系统存储配置")
  let file ← createFileObjectWithChecksum input
  let assetId ← query (.insertAsset releaseId file.id platform architecture artifactKind)
  getReleaseAsset releaseId assetId

def ensureReleaseIsMutable (releaseId : Int) : Task Unit := do
  let rows ← query (.countMutable releaseId)
  Call.rejectIf (rows ≠ 1) (.conflict "只有未撤回的草稿版本可以修改资产")

/-- `mark_file_uploaded_with_checksum` where its `UPDATE` changed nothing. -/
def recheckUploaded (fileObjectId : Int) (checksum : String) : Task FileObject := do
  let object ← query (.object fileObjectId)
  let current ← Call.okOr object (.notFound "文件对象不存在")
  Call.rejectIf (¬ (current.status = .uploaded ∧ current.checksumSha256 = checksum))
    (.conflict "附件状态已变化，请重新读取附件后再确认")
  getFileObject fileObjectId

def markPending (fileObjectId : Int) (checksum : String) (state : FileObject) : Task FileObject := do
  Call.rejectIf (state.status = .deleted) (.notFound "附件已归档")
  Call.rejectIf (state.checksumSha256 ≠ "" ∧ state.checksumSha256 ≠ checksum)
    (.badRequest "上传对象 SHA-256 与登记摘要不一致")
  let rows ← query (.markUploaded fileObjectId checksum)
  if rows = 1 then getFileObject fileObjectId else recheckUploaded fileObjectId checksum

def markUploadedAgain (fileObjectId : Int) (checksum : String) (state : FileObject) :
    Task FileObject := do
  Call.rejectIf (state.checksumSha256 ≠ checksum)
    (.conflict "附件已上传，但对象摘要与本次确认不一致")
  getFileObject fileObjectId

def markFileUploadedWithChecksum (fileObjectId : Int) (actualChecksum : String) :
    Task FileObject := do
  Call.rejectIf (fileObjectId ≤ 0) (.badRequest "文件对象 ID 无效")
  let checksum ← Call.ofExcept (validateChecksumSha256 actualChecksum)
  Call.rejectIf (checksum = "") (.badRequest "文件 SHA-256 校验值不能为空")
  let object ← query (.object fileObjectId)
  let state ← Call.okOr object (.notFound "文件对象不存在")
  if state.status = .uploaded then markUploadedAgain fileObjectId checksum state
  else markPending fileObjectId checksum state

def markReleaseAssetUploaded (releaseId assetId : Int) (actualChecksum : String) :
    Task AssetSummary := do
  ensureReleaseIsMutable releaseId
  let asset ← getReleaseAsset releaseId assetId
  let _ ← markFileUploadedWithChecksum asset.file.id actualChecksum
  getReleaseAsset releaseId assetId

def markReleaseVerified (releaseId : Int) : Task ReleaseDetail := do
  let detail ← getExistingDetail releaseId
  Call.rejectIf (detail.release.effectiveStatus ≠ .draft ∨ detail.release.channel ≠ .internal ∨
      detail.release.verification ≠ .pending)
    (.conflict "只有待验证的内部草稿版本可以标记为已验证")
  Call.rejectIf (!hasCompleteInternalEvidence detail)
    (.badRequest "完整 22 文件内部发行证据集上传后才能完成验证")
  let rows ← query (.verifyRelease releaseId)
  Call.rejectIf (rows ≠ 1) (.conflict "版本验证状态已变化，请刷新后重试")
  getExistingDetail releaseId

def withdrawRelease (releaseId : Int) (reason githubStatus : String) : Task ReleaseDetail := do
  Call.rejectIf (releaseId ≤ 0) (.badRequest "版本 ID 无效")
  let reason ← Call.ofExcept (validateWithdrawalReason reason)
  let githubStatus ← Call.ofExcept (validateGithubWithdrawalStatus githubStatus)
  let rows ← query (.withdrawRelease releaseId reason githubStatus)
  Call.rejectIf (rows ≠ 1) (.conflict "只有尚未撤回的已发布版本可以撤回")
  getExistingDetail releaseId

def deleteReleaseAsset (releaseId assetId : Int) : Task AssetSummary := do
  let asset ← getReleaseAsset releaseId assetId
  query (.deleteAsset releaseId assetId asset.file.id)
  pure { asset with file := { asset.file with status := .deleted } }

inductive Request where
  | createReleaseAsset (releaseId : Int) (input : CreateAssetInput)
  | markReleaseAssetUploaded (releaseId assetId : Int) (actualChecksum : String)
  | deleteReleaseAsset (releaseId assetId : Int)
  | markReleaseVerified (releaseId : Int)
  | updateRelease (releaseId : Int) (input : UpdateReleaseInput)
  | withdrawRelease (releaseId : Int) (reason githubStatus : String)

inductive Response where
  | asset (asset : AssetSummary)
  | detail (detail : ReleaseDetail)

def start : Request → Task Response
  | .createReleaseAsset releaseId input => do
    let asset ← createReleaseAsset releaseId input
    pure (.asset asset)
  | .markReleaseAssetUploaded releaseId assetId actualChecksum => do
    let asset ← markReleaseAssetUploaded releaseId assetId actualChecksum
    pure (.asset asset)
  | .deleteReleaseAsset releaseId assetId => do
    let asset ← deleteReleaseAsset releaseId assetId
    pure (.asset asset)
  | .markReleaseVerified releaseId => do
    let detail ← markReleaseVerified releaseId
    pure (.detail detail)
  | .updateRelease releaseId input => do
    let detail ← updateRelease releaseId input
    pure (.detail detail)
  | .withdrawRelease releaseId reason githubStatus => do
    let detail ← withdrawRelease releaseId reason githubStatus
    pure (.detail detail)

end Releases
end Yuance
