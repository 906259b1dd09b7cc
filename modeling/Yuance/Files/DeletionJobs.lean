import Yuance.Lib.Calls
import Yuance.Lib.Scan
import Yuance.Lib.Table
import Yuance.Platform.Crypto

/-!
# Yuance.Files.DeletionJobs

The jobs of `api/src/domains/files.rs` that delete objects from the storage: how a file is queued for
deletion, how the workers lease and finish the jobs, and how the validity of a signed upload URL is
recorded. Times are seconds; both callers of `extend_file_object_upload_url_expiration` format one,
and the empty text of the column is none. The storage itself is the environment: it answers a delete,
and keeps a log of those that it answered.

* `enqueueDeletedFileObject`, `claim`, `complete`, `retry`: the statements on the tables.
* `cleanupDeletedFileObjects`: the loop of a worker.
-/

namespace Yuance
namespace Files
namespace Deletion

open Lib Platform

inductive ObjectStatus where
  | pending
  | uploaded
  | deleted
  deriving DecidableEq, Repr

/-- A row of `file_objects`, as far as a deletion reads it. -/
structure ObjectRow where
  id : Int
  storageConfigId : Option Int
  provider : String
  bucket : String
  objectKey : String
  status : ObjectStatus
  uploadUrlExpiresAt : Option Int
  deriving DecidableEq, Repr

/-- A row of `storage_configs`. -/
structure StorageConfig where
  id : Int
  provider : String
  endpoint : String
  region : String
  bucket : String
  deriving DecidableEq, Repr

inductive JobStatus where
  | pending
  | processing
  | completed
  deriving DecidableEq, Repr

/-- A row of `file_object_deletion_jobs`. -/
structure JobRow where
  id : Int
  fileObjectId : Int
  storageConfigId : Option Int
  provider : String
  endpoint : String
  region : String
  bucket : String
  objectKey : String
  status : JobStatus
  attemptCount : Nat
  nextAttemptAt : Int
  leaseUntil : Option Int
  leaseToken : Option String
  lastError : String
  completedAt : Option Int
  deriving DecidableEq, Repr

/-- A job as a worker holds it. -/
structure FileObjectDeletionJob where
  id : Int
  storageConfigId : Option Int
  provider : String
  endpoint : String
  region : String
  bucket : String
  objectKey : String
  leaseToken : String
  attemptCount : Nat
  deriving DecidableEq, Repr

structure Tables where
  objects : List ObjectRow
  configs : List StorageConfig
  jobs : List JobRow
  nextJob : Int

namespace Tables

variable (t : Tables)

def object (id : Int) : Option ObjectRow := t.objects.find? (·.id == id)

def config (id : Int) : Option StorageConfig := t.configs.find? (·.id == id)

def job (id : Int) : Option JobRow := t.jobs.find? (·.id == id)

/-! ## Queueing a file -/

def setDeleted (fileObjectId : Int) : List ObjectRow :=
  updateWhere (·.id == fileObjectId) ({ · with status := .deleted }) t.objects

/-- 65 minutes from now, or 4 hours and 5 minutes behind the validity of the upload URL. -/
def safeAfter (now : Int) (expiresAt : Option Int) : Int :=
  match expiresAt with
  | none => now + 65 * 60
  | some expiry => max (now + 65 * 60) (expiry + (4 * 60 + 5) * 60)

def newJob (now : Int) (object : ObjectRow) (config : StorageConfig) : JobRow where
  id := t.nextJob
  fileObjectId := object.id
  storageConfigId := some config.id
  provider := config.provider
  endpoint := config.endpoint
  region := config.region
  bucket := config.bucket
  objectKey := object.objectKey
  status := .pending
  attemptCount := 0
  nextAttemptAt := safeAfter now object.uploadUrlExpiresAt
  leaseUntil := none
  leaseToken := none
  lastError := ""
  completedAt := none

/-- `enqueue_deleted_file_object_in_tx`; its transaction is rolled back where it fails. -/
def enqueueDeletedFileObject (now : Int) (fileObjectId : Int) : Tables × Except AppError Unit :=
  match t.object fileObjectId with
  | none => (t, .error (.notFound "文件对象不存在"))
  | some object =>
    match object.storageConfigId with
    | none => (t, .error (.conflict "文件对象未绑定原存储配置，不能安全删除"))
    | some storageConfigId =>
      match t.config storageConfigId with
      | none => (t, .error (.conflict "文件对象的原存储配置不存在，不能安全删除"))
      | some config =>
        if config.provider ≠ object.provider ∨ config.bucket ≠ object.bucket then
          (t, .error (.conflict "文件对象与原存储配置不一致，不能安全删除"))
        else if t.jobs.any (·.fileObjectId == fileObjectId) then
          ({ t with objects := t.setDeleted fileObjectId }, .ok ())
        else
          ({ t with
             objects := t.setDeleted fileObjectId
             jobs := t.jobs ++ [t.newJob now object config]
             nextJob := t.nextJob + 1 }, .ok ())

/-- `extend_file_object_upload_url_expiration`. -/
def extendUploadUrlExpiration (fileObjectId expiresAt : Int) : Tables × Except AppError Unit :=
  if (t.objects.filter fun o => o.id == fileObjectId && o.status == .pending).length ≠ 1 then
    (t, .error (.conflict "附件状态已变化，不能生成上传签名"))
  else
    ({ t with
       objects := updateWhere (fun o => o.id == fileObjectId && o.status == .pending)
        (fun o => { o with
          uploadUrlExpiresAt :=
            match o.uploadUrlExpiresAt with
            | none => some expiresAt
            | some known => if known < expiresAt then some expiresAt else some known })
        t.objects }, .ok ())

/-! ## Leasing and finishing a job -/

/-- The `WHERE` of a claim. -/
def isDue (now : Int) (j : JobRow) : Bool :=
  (j.status == .pending && decide (j.nextAttemptAt ≤ now))
    || (j.status == .processing && j.leaseUntil.any (decide <| · ≤ now))

/-- `ORDER BY next_attempt_at, id`. -/
def dueLe (x y : JobRow) : Bool :=
  x.nextAttemptAt < y.nextAttemptAt || (x.nextAttemptAt == y.nextAttemptAt && x.id ≤ y.id)

def claimed (now : Int) (leaseToken : String) (j : JobRow) : JobRow :=
  { j with
    status := .processing
    leaseUntil := some (now + 5 * 60)
    leaseToken := some leaseToken
    attemptCount := j.attemptCount + 1 }

def returning (leaseToken : String) (j : JobRow) : FileObjectDeletionJob where
  id := j.id
  storageConfigId := j.storageConfigId
  provider := j.provider
  endpoint := j.endpoint
  region := j.region
  bucket := j.bucket
  objectKey := j.objectKey
  leaseToken := leaseToken
  attemptCount := j.attemptCount + 1

/-- The job that a claim takes. -/
def nextDue (now : Int) : Option JobRow := (orderBy dueLe (t.jobs.filter (isDue now))).head?

def claim (now : Int) (leaseToken : String) : Tables × Option FileObjectDeletionJob :=
  match t.nextDue now with
  | none => (t, none)
  | some j =>
    ({ t with
       jobs := updateWhere (fun r => r.id == j.id && isDue now r) (claimed now leaseToken) t.jobs },
      some (returning leaseToken j))

/-- The `WHERE` of the two statements that end a lease. -/
def isLeased (job : FileObjectDeletionJob) (j : JobRow) : Bool :=
  j.id == job.id && j.status == .processing && j.leaseToken == some job.leaseToken

def completed (now : Int) (j : JobRow) : JobRow :=
  { j with
    status := .completed
    storageConfigId := none
    leaseUntil := none
    leaseToken := none
    lastError := ""
    completedAt := some now }

def complete (now : Int) (job : FileObjectDeletionJob) : Tables × Bool :=
  ({ t with jobs := updateWhere (isLeased job) (completed now) t.jobs },
    (t.jobs.filter (isLeased job)).length == 1)

/-- `1_i64.checked_shl(..)`, at most 360. -/
def retryMinutes (attemptCount : Nat) : Int := min (2 ^ min (attemptCount - 1) 9) 360

def isControl (c : Char) : Bool := c.toNat < 32 || (127 ≤ c.toNat && c.toNat < 160)

def redact (message value : String) : String :=
  if value = "" then message else String.ofList (replaceText value "[redacted]" message.toList)

def sanitizeDeletionJobError (error : String) (job : FileObjectDeletionJob) : String :=
  let message := redact (redact (redact error job.objectKey) job.bucket) job.endpoint
  String.ofList ((message.toList.map fun c => if isControl c then ' ' else c).take 500)

def retried (now : Int) (job : FileObjectDeletionJob) (error : String) (j : JobRow) : JobRow :=
  { j with
    status := .pending
    leaseUntil := none
    leaseToken := none
    nextAttemptAt := now + retryMinutes job.attemptCount * 60
    lastError := sanitizeDeletionJobError error job }

def retry (now : Int) (job : FileObjectDeletionJob) (error : String) : Tables × Bool :=
  ({ t with jobs := updateWhere (isLeased job) (retried now job error) t.jobs },
    (t.jobs.filter (isLeased job)).length == 1)

end Tables

/-! ## The tables, the clock and the storage -/

/-- A lease that was given to a worker. -/
structure Claim where
  jobId : Int
  leaseToken : String
  deriving DecidableEq, Repr

/-- A delete that the storage answered. -/
structure StorageDelete where
  jobId : Int
  leaseToken : String
  startedAt : Int
  /-- It returned `Ok`. -/
  succeeded : Bool
  deriving DecidableEq, Repr

/-- The claims and the storage deletes so far are kept beside the tables; no statement reads them. -/
structure Db where
  clock : Int
  tables : Tables
  claims : List Claim
  deletes : List StorageDelete

inductive Statement where
  | countDue
  | countOpen
  | claim
  | deleteObject (job : FileObjectDeletionJob)
  | complete (job : FileObjectDeletionJob)
  | retry (job : FileObjectDeletionJob) (error : String)
  | extend (fileObjectId expiresAt : Int)
  | enqueue (fileObjectId : Int)

abbrev Statement.Answer : Statement → Type
  | countDue => Nat
  | countOpen => Nat
  | claim => Option FileObjectDeletionJob
  | deleteObject _ => Except String Unit
  | complete _ => Bool
  | retry .. => Bool
  | extend .. => Unit
  | enqueue _ => Unit

/-- The seconds since the statement before, the error a statement fails with if it fails, and what
the storage answers to a delete. -/
structure Moment where
  elapsed : Nat
  fault : Option AppError
  stored : Except String Unit

def openCount (t : Tables) : Nat := (t.jobs.filter (·.status != .completed)).length

section Executing

-- the token of each claim
variable (draw : Nat → String)

def execute (stored : Except String Unit) (db : Db) : (s : Statement) → Db × Except AppError s.Answer
  | .countDue => (db, .ok (db.tables.jobs.filter (Tables.isDue db.clock)).length)
  | .countOpen => (db, .ok (openCount db.tables))
  | .claim =>
    let leaseToken := draw db.claims.length
    match db.tables.claim db.clock leaseToken with
    | (tables, none) => ({ db with tables := tables }, .ok none)
    | (tables, some job) =>
      ({ db with tables := tables, claims := db.claims ++ [⟨job.id, leaseToken⟩] }, .ok (some job))
  | .deleteObject job =>
    ({ db with deletes := db.deletes ++ [⟨job.id, job.leaseToken, db.clock, stored.isOk⟩] },
      .ok stored)
  | .complete job =>
    let (tables, done) := db.tables.complete db.clock job
    ({ db with tables := tables }, .ok done)
  | .retry job error =>
    let (tables, done) := db.tables.retry db.clock job error
    ({ db with tables := tables }, .ok done)
  | .extend fileObjectId expiresAt =>
    let (tables, answer) := db.tables.extendUploadUrlExpiration fileObjectId expiresAt
    ({ db with tables := tables }, answer)
  | .enqueue fileObjectId =>
    let (tables, answer) := db.tables.enqueueDeletedFileObject db.clock fileObjectId
    ({ db with tables := tables }, answer)

def Db.after (db : Db) (elapsed : Nat) : Db := { db with clock := db.clock + elapsed }

def perform (m : Moment) (s : Statement) (db : Db) : Db × Except AppError s.Answer :=
  match m.fault with
  | some e => (db.after m.elapsed, .error e)
  | none => execute draw m.stored (db.after m.elapsed) s

end Executing

/-! ## The calls -/

abbrev Task (α : Type) := Call Statement Statement.Answer AppError α

def query (s : Statement) : Task s.Answer := Call.make s

structure DeletedFileCleanupSummary where
  dueCount : Nat
  notDueCount : Nat
  processedCount : Nat
  completedCount : Nat
  failedCount : Nat
  leaseLostCount : Nat
  pendingCount : Nat
  deriving DecidableEq, Repr

/-- The loop of `cleanup_deleted_file_objects`, while jobs may be processed. -/
def processJobs : Nat → DeletedFileCleanupSummary → Task DeletedFileCleanupSummary
  | 0, summary => pure summary
  | left + 1, summary => do
    let job ← query .claim
    match job with
    | none => pure summary
    | some job =>
      let summary := { summary with processedCount := summary.processedCount + 1 }
      let deleted ← query (.deleteObject job)
      match deleted with
      | .ok () =>
        let done ← query (.complete job)
        processJobs left
          (if done then { summary with completedCount := summary.completedCount + 1 }
          else { summary with leaseLostCount := summary.leaseLostCount + 1 })
      | .error error =>
        let done ← query (.retry job error)
        processJobs left
          (if done then { summary with failedCount := summary.failedCount + 1 }
          else { summary with leaseLostCount := summary.leaseLostCount + 1 })

def cleanupDeletedFileObjects (dryRun : Bool) (limit : Int) : Task DeletedFileCleanupSummary := do
  Call.rejectIf (¬(1 ≤ limit ∧ limit ≤ 1000)) (.badRequest "删除对象清理 limit 必须在 1 到 1000 之间")
  let dueCount ← query .countDue
  let pendingCount ← query .countOpen
  let summary : DeletedFileCleanupSummary :=
    { dueCount, notDueCount := pendingCount - dueCount, processedCount := 0, completedCount := 0,
      failedCount := 0, leaseLostCount := 0, pendingCount }
  if dryRun then pure summary
  else do
    let summary ← processJobs limit.toNat summary
    let pendingCount ← query .countOpen
    pure { summary with pendingCount }

inductive Request where
  | cleanup (dryRun : Bool) (limit : Int)
  | extend (fileObjectId expiresAt : Int)
  | enqueue (fileObjectId : Int)

inductive Response where
  | summary (summary : DeletedFileCleanupSummary)
  | done

def start : Request → Task Response
  | .cleanup dryRun limit => do
    let summary ← cleanupDeletedFileObjects dryRun limit
    pure (.summary summary)
  | .extend fileObjectId expiresAt => do
    query (.extend fileObjectId expiresAt)
    pure .done
  | .enqueue fileObjectId => do
    query (.enqueue fileObjectId)
    pure .done

abbrev Server := Serving Statement Statement.Answer AppError Response Db

end Deletion
end Files
end Yuance
